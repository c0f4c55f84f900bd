/-!
# Shortest decimals

A positive binary number `m · 2 ^ q` is written with the fewest decimal digits that read back as
the same number. Reading rounds to the nearest representable number, so the decimals that read back
form an interval around `m · 2 ^ q`; its ends belong to it exactly when `m` is even.

The search goes through the grids of multiples of `10 ^ g` from coarse to fine. On each grid only
the two neighbours of the number can lie in the interval, the nearer one wins, and on an exact tie
the even multiple does.
-/

namespace CardComputer.Decimal

/-- A positive number `significand · 2 ^ exponent`. -/
structure Binary where
  /-- The whole factor. -/
  significand : Nat
  /-- The power of two. -/
  exponent : Int
  /-- Whether the next smaller representable number is half as far away as the next greater. -/
  lowerGapIsHalf : Bool

/-- A number `digits · 10 ^ exponent`. -/
structure Scientific where
  /-- The whole factor. -/
  digits : Nat
  /-- The power of ten. -/
  exponent : Int
deriving DecidableEq

/-- The number in a finite float, its sign left out. -/
def Binary.ofFloat (x : Float) : Binary :=
  let bits := x.toBits.toNat
  let fraction := bits % Nat.pow 2 52
  let biased := bits / Nat.pow 2 52 % Nat.pow 2 11
  if biased = 0 then
    ⟨fraction, -1074, false⟩
  else
    ⟨Nat.pow 2 52 + fraction, Int.ofNat biased - 1075, fraction == 0 && biased != 1⟩

/-- The fraction `n · 2 ^ two / 10 ^ ten` as numerator and denominator. -/
def scaled (n : Nat) (two ten : Int) : Nat × Nat :=
  (n * Nat.pow 2 two.toNat * Nat.pow 10 (-ten).toNat,
    Nat.pow 2 (-two).toNat * Nat.pow 10 ten.toNat)

/-- Whether the multiple `c` of `10 ^ g` reads back as `b`. -/
def Binary.readsBack (b : Binary) (g : Int) (c : Nat) : Bool :=
  -- Quarters of the last place: the ends of the interval are one or two of them away.
  let (one, unit) := scaled 1 (b.exponent - 2) g
  let low := (4 * b.significand - (if b.lowerGapIsHalf then 1 else 2)) * one
  let high := (4 * b.significand + 2) * one
  if b.significand % 2 = 0 then low ≤ c * unit && c * unit ≤ high
  else low < c * unit && c * unit < high

/-- The best multiple of `10 ^ g` that reads back as `b`, if there is one. -/
def Binary.onGrid? (b : Binary) (g : Int) : Option Scientific :=
  -- The number lies between its two neighbours `below` and `below + 1` on the grid.
  let (num, den) := scaled b.significand b.exponent g
  let below := num / den
  let twiceRest := 2 * (num % den)
  let belowFits := below != 0 && b.readsBack g below
  let aboveFits := b.readsBack g (below + 1)
  if belowFits && aboveFits then
    let nearer := twiceRest < den || twiceRest == den && below % 2 == 0
    some ⟨if nearer then below else below + 1, g⟩
  else if belowFits then some ⟨below, g⟩
  else if aboveFits then some ⟨below + 1, g⟩
  else none

/-- The least `k` with `b < 10 ^ k`, searched upwards from a lower bound. -/
def Binary.magnitude (b : Binary) : Int :=
  let start : Int := -330
  let fits (k : Int) : Bool :=
    let (num, den) := scaled b.significand b.exponent k
    num < den
  match (List.range 650).find? fun (i : Nat) => fits (start + i) with
  | some i => start + i
  | none => start + 650

/-- The decimal without the zeros at the end of its digits. -/
def Scientific.strip (d : Scientific) : Scientific :=
  let zeros := ((Nat.toDigits 10 d.digits).reverse.takeWhile (· == '0')).length
  ⟨d.digits / Nat.pow 10 zeros, d.exponent + zeros⟩

/-- The shortest decimal that reads back as `b`; seventeen digits always suffice. -/
def Binary.shortest (b : Binary) : Scientific :=
  let top := b.magnitude
  match (List.range 18).findSome? fun (i : Nat) => b.onGrid? (top - i) with
  | some d => d.strip
  | none => ⟨0, 0⟩

end CardComputer.Decimal
