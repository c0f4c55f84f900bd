/-!
# Hexadecimal text

Digits are padded on the left with zeros to a least width and never cut: `upper 2 0xA = "0A"` and
`upper 1 0x1F = "1F"`.
-/

namespace CardComputer.Text.Hex

/-- The digits of `n` in base sixteen, at least `width` of them. -/
def digits (width n : Nat) : List Char :=
  let plain := Nat.toDigits 16 n
  List.replicate (width - plain.length) '0' ++ plain

/-- Lower case hexadecimal text of at least `width` digits. -/
def lower (width n : Nat) : String :=
  String.ofList (digits width n)

/-- Upper case hexadecimal text of at least `width` digits. -/
def upper (width n : Nat) : String :=
  String.ofList ((digits width n).map Char.toUpper)

end CardComputer.Text.Hex
