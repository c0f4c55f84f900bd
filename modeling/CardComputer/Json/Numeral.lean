import CardComputer.Decimal.Shortest

/-!
# Numerals

The numbers of a JSON text. A `Numeral` keeps the digits as they are written; `Numeral.value?` says
which number they denote. Whole numbers that fit in 64 bits are exact. Everything else is a
floating point number: its leading digits, as many as fit in 64 bits, are multiplied or divided by a
power of ten, and one that becomes infinite on the way is refused.
-/

namespace CardComputer.Json

/-- A number: whole within 64 bits, or floating point. -/
inductive Number where
  /-- A whole number, at least `-2 ^ 63` and below `2 ^ 64` when it was read. -/
  | whole (value : Int)
  | real (value : Float)

/-- The written form of a number, digit by digit. -/
structure Numeral where
  /-- Whether a minus sign leads. -/
  negative : Bool
  /-- Digits before the point. -/
  whole : List Nat
  /-- Digits after the point, if there is one. -/
  fraction : Option (List Nat)
  /-- Sign and digits of the exponent, if there is one. -/
  exponent : Option (Bool × List Nat)
deriving DecidableEq

namespace Numeral

/-- Appends digits to a significand as long as it stays below `2 ^ 64`; the rest is returned. -/
def absorb (significand : Nat) : List Nat → Nat × List Nat
  | [] => (significand, [])
  | d :: rest =>
    if significand * 10 + d < UInt64.size then absorb (significand * 10 + d) rest
    else (significand, d :: rest)

/-- The number that digits denote, at most `2 ^ 31`. -/
def clampedNat (digits : List Nat) : Nat :=
  digits.foldl (fun n d => min (n * 10 + d) (Nat.pow 2 31)) 0

/-- The power `10 ^ n` as a floating point number, for `n` up to 308. -/
def powerOfTen (n : Nat) : Float :=
  Float.ofScientific 1 false n

/-- Brings `x · 10 ^ exponent` into range by dividing by `10 ^ 308` as often as needed; `steps`
bounds the divisions, and two already turn every 64-bit significand into zero. -/
def scaleDown (x : Float) (exponent : Nat) : Nat → Float
  | 0 => x
  | steps + 1 =>
    if exponent ≤ 308 then x / powerOfTen exponent
    else if x == 0 then x
    else scaleDown (x / powerOfTen 308) (exponent - 308) steps

/-- The number `significand · 10 ^ exponent`, or nothing when it is infinite. -/
def scale? (significand : Nat) (exponent : Int) : Option Float :=
  let x := Float.ofNat significand
  if exponent < 0 then some (scaleDown x exponent.natAbs 4)
  else if exponent ≤ 308 then
    let y := x * powerOfTen exponent.toNat
    if y.isInf then none else some y
  else if significand = 0 then some x else none

/-- The floating point number of a numeral, or nothing when it is out of range. -/
def real? (n : Numeral) : Option Float :=
  let (lead, dropped) := absorb 0 n.whole
  -- Digits of the fraction that were absorbed lower the power, unused whole ones raise it.
  let (significand, power) : Nat × Int :=
    match n.fraction with
    | none => (lead, dropped.length)
    | some digits =>
      let (significand, unused) := absorb lead digits
      (significand, dropped.length - (digits.length - unused.length : Nat))
  let written : Int :=
    match n.exponent with
    | none => 0
    | some (down, digits) => if down then -(clampedNat digits : Int) else clampedNat digits
  (scale? significand (power + written)).map fun x => if n.negative then -x else x

/-- The number a numeral denotes, or nothing when it is out of range. A negative zero and whole
numbers beyond 64 bits are floating point numbers. -/
def value? (n : Numeral) : Option Number :=
  match n.fraction, n.exponent, absorb 0 n.whole with
  | none, none, (k, []) =>
    if !n.negative then some (.whole k)
    -- Only a floating point number has a negative zero.
    else if 0 < k ∧ k ≤ Nat.pow 2 63 then some (.whole (-k))
    else some (.real (-Float.ofNat k))
  | _, _, _ => n.real?.map .real

end Numeral

/-- Exponents of ten of the leading digit that are written without an exponent part. -/
def positionalExponents : Int × Int := (-5, 15)

/-- Text of a floating point number: the shortest digits, `.0` after a whole number, and outside
`positionalExponents` one digit, a point and an exponent of at least two digits. -/
def realText (x : Float) : String :=
  let sign := if x.toBits.toNat / Nat.pow 2 63 = 1 then "-" else ""
  if x == 0 then sign ++ "0.0"
  else
    let d := (Decimal.Binary.ofFloat x).shortest
    let digits := Nat.toDigits 10 d.digits
    let lead : Int := d.exponent + digits.length - 1
    let zeros (n : Int) : List Char := List.replicate n.toNat '0'
    let body :=
      if positionalExponents.1 ≤ lead ∧ lead ≤ positionalExponents.2 then
        if 0 ≤ d.exponent then digits ++ zeros d.exponent ++ ['.', '0']
        else if 0 ≤ lead then
          digits.take (lead.toNat + 1) ++ '.' :: digits.drop (lead.toNat + 1)
        else '0' :: '.' :: zeros (-1 - lead) ++ digits
      else
        let power := Nat.toDigits 10 lead.natAbs
        let padded := if power.length < 2 then '0' :: power else power
        let tail := digits.drop 1
        digits.take 1 ++ (if tail.isEmpty then [] else '.' :: tail)
          ++ 'e' :: (if lead < 0 then '-' else '+') :: padded
    sign ++ String.ofList body

end CardComputer.Json
