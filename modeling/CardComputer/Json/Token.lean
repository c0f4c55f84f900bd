import CardComputer.Json.Basic

/-!
# Tokens of a JSON text

A text is split into tokens before its structure is looked at. What is wrong with a token depends on
whether its value is wanted: a reader that only passes over a value accepts half of a surrogate pair
and takes an unfinished number for malformed rather than for cut off. A token that cannot be
completed therefore carries both verdicts and is the last of its text.

Every token takes at least its first character (`Token.lex_length_le`), so splitting a text ends.
-/

namespace CardComputer.Json

/-- What can be wrong with the form of a text. -/
inductive Trouble where
  | endOfText
  /-- A character stands where it cannot stand. -/
  | malformed
deriving DecidableEq

/-- The pieces a text consists of. -/
inductive Token where
  | openObject
  | closeObject
  | openList
  | closeList
  | colon
  | comma
  | null
  | bool (value : Bool)
  | number (value : Numeral)
  /-- A quoted text, without value if it holds half of a surrogate pair. -/
  | text (value : Option String)
  /-- A quoted text that cannot be completed: the trouble for a reader that wants it, and for one
  that passes over it. -/
  | brokenText (wanted passed : Trouble)
  /-- Any other token that cannot be completed. -/
  | brokenScalar (wanted passed : Trouble)
deriving DecidableEq

namespace Token

/-- White space between tokens. -/
def isBlank (c : Char) : Bool :=
  c = ' ' || c = '\n' || c = '\t' || c = '\r'

/-- The value of a hexadecimal digit. -/
def hexDigit? (c : Char) : Option Nat :=
  if '0' ≤ c ∧ c ≤ '9' then some (c.toNat - 48)
  else if 'a' ≤ c ∧ c ≤ 'f' then some (c.toNat - 87)
  else if 'A' ≤ c ∧ c ≤ 'F' then some (c.toNat - 55)
  else none

/-- The value of four hexadecimal digits. -/
def hexUnit? (a b c d : Char) : Option Nat := do
  return (((← hexDigit? a) * 16 + (← hexDigit? b)) * 16 + (← hexDigit? c)) * 16 + (← hexDigit? d)

/-- The character that a one-letter escape stands for. -/
def simpleEscape? : Char → Option Char
  | '"' => some '"'
  | '\\' => some '\\'
  | '/' => some '/'
  | 'b' => some '\x08'
  | 'f' => some '\x0c'
  | 'n' => some '\n'
  | 'r' => some '\r'
  | 't' => some '\t'
  | _ => none

/-- A quoted text while it is being read. -/
structure Quote where
  /-- The characters so far, newest first. -/
  read : List Char
  /-- The first half of a surrogate pair whose second half comes next. -/
  half : Option Nat
  /-- Whether every surrogate so far belongs to a pair. -/
  paired : Bool

namespace Quote

/-- Nothing read yet. -/
def empty : Quote := ⟨[], none, true⟩

/-- Reads a character; one that follows half of a pair leaves the half alone. -/
def push (q : Quote) (c : Char) : Quote :=
  ⟨c :: q.read, none, q.paired && q.half.isNone⟩

/-- Reads a UTF-16 unit. -/
def pushUnit (q : Quote) (unit : Nat) : Quote :=
  match q.half with
  | some high =>
    if 0xDC00 ≤ unit ∧ unit ≤ 0xDFFF then
      ⟨Char.ofNat (0x10000 + (high - 0xD800) * 0x400 + (unit - 0xDC00)) :: q.read, none, q.paired⟩
    else ⟨q.read, none, false⟩
  | none =>
    if 0xDC00 ≤ unit ∧ unit ≤ 0xDFFF then ⟨q.read, none, false⟩
    else if 0xD800 ≤ unit ∧ unit ≤ 0xDBFF then ⟨q.read, some unit, q.paired⟩
    else ⟨Char.ofNat unit :: q.read, none, q.paired⟩

/-- The token of a text that ends here. -/
def close (q : Quote) : Token :=
  .text (if q.paired && q.half.isNone then some (String.ofList q.read.reverse) else none)

/-- The token of a text that cannot go on. -/
def fail (q : Quote) (trouble : Trouble) : Token :=
  .brokenText (if q.paired then trouble else .malformed) trouble

/-- As `fail`, for a character that is no escape: half of a pair is then left alone. -/
def failPlain (q : Quote) (trouble : Trouble) : Token :=
  .brokenText (if q.paired && q.half.isNone then trouble else .malformed) trouble

end Quote

/-- Reads a quoted text up to its closing quote. Four bytes have to follow the letter of a numeric
escape before they are looked at. -/
def lexText (q : Quote) : List Char → Token × List Char
  | [] => (q.fail .endOfText, [])
  | '"' :: rest => (q.close, rest)
  | ['\\'] => (q.fail .endOfText, [])
  | '\\' :: 'u' :: a :: b :: c :: d :: rest =>
    match hexUnit? a b c d with
    | some unit => lexText (q.pushUnit unit) rest
    | none => (q.fail .malformed, [])
  | '\\' :: 'u' :: rest =>
    -- Fewer than four characters can still be four bytes, and then none of them was cut off.
    if 4 ≤ (String.ofList rest).utf8ByteSize then (q.fail .malformed, [])
    else (q.fail .endOfText, [])
  | '\\' :: e :: rest =>
    match simpleEscape? e with
    | some c => lexText (q.push c) rest
    | none => (q.failPlain .malformed, [])
  | c :: rest =>
    if c.toNat < 32 then (q.failPlain .malformed, []) else lexText (q.push c) rest

theorem lexText_length_le (q : Quote) (cs : List Char) :
    (lexText q cs).2.length ≤ cs.length := by
  fun_induction lexText q cs <;> simp_all <;> omega

/-- The digits at the front of a text, as numbers. -/
def leadingDigits (cs : List Char) : List Nat :=
  (cs.takeWhile Char.isDigit).map fun c => c.toNat - 48

/-- What follows the digits at the front of a text. -/
def afterDigits (cs : List Char) : List Char :=
  cs.dropWhile Char.isDigit

theorem afterDigits_length_le (cs : List Char) : (afterDigits cs).length ≤ cs.length :=
  (List.dropWhile_suffix _).length_le

/-- What follows at least one digit is shorter than the text. -/
theorem afterDigits_length_lt {cs : List Char} (h : leadingDigits cs ≠ []) :
    (afterDigits cs).length < cs.length := by
  cases cs with
  | nil => simp [leadingDigits] at h
  | cons c rest =>
    have hc : c.isDigit = true := by
      cases hd : c.isDigit
      · simp [leadingDigits, hd] at h
      · rfl
    have := afterDigits_length_le rest
    simp [afterDigits, hc] at this ⊢
    omega

/-- The token where a digit is missing. -/
def missingDigit : List Char → Token
  | [] => .brokenScalar .endOfText .malformed
  | _ :: _ => .brokenScalar .malformed .malformed

/-- Whether the exponent part that starts with these characters has a minus sign. -/
def hasMinus (cs : List Char) : Bool := cs.head? == some '-'

/-- The characters after the sign of an exponent, if it has one. -/
def afterSign : List Char → List Char
  | '+' :: rest => rest
  | '-' :: rest => rest
  | cs => cs

/-- Reads the exponent of a number, if one follows. -/
def lexExponent (numeral : Numeral) : List Char → Token × List Char
  | [] => (.number numeral, [])
  | c :: rest =>
    if c = 'e' ∨ c = 'E' then
      let digits := leadingDigits (afterSign rest)
      if digits = [] then (missingDigit (afterSign rest), [])
      else
        (.number { numeral with exponent := some (hasMinus rest, digits) },
          afterDigits (afterSign rest))
    else (.number numeral, c :: rest)

/-- Reads the fraction and the exponent of a number, if they follow. -/
def lexFraction (numeral : Numeral) : List Char → Token × List Char
  | '.' :: rest =>
    let digits := leadingDigits rest
    if digits = [] then (missingDigit rest, [])
    else lexExponent { numeral with fraction := some digits } (afterDigits rest)
  | cs => lexExponent numeral cs

/-- Reads a number after its sign. No digit follows a leading zero. -/
def lexNumber (negative : Bool) (cs : List Char) : Token × List Char :=
  let digits := leadingDigits cs
  if digits = [] then (missingDigit cs, [])
  else if digits.head? = some 0 ∧ digits.length ≠ 1 then (.brokenScalar .malformed .malformed, [])
  else lexFraction ⟨negative, digits, none, none⟩ (afterDigits cs)

theorem afterSign_length_le (cs : List Char) : (afterSign cs).length ≤ cs.length := by
  unfold afterSign
  split <;> simp

/-- Reading an exponent returns no more than it was given. -/
theorem lexExponent_length_le (n : Numeral) (cs : List Char) :
    (lexExponent n cs).2.length ≤ cs.length := by
  unfold lexExponent
  split
  · simp
  · rename_i c rest
    have h := afterDigits_length_le (afterSign rest)
    have h' := afterSign_length_le rest
    dsimp only
    split
    · split
      · simp
      · simp only [List.length_cons]
        omega
    · simp

/-- Reading a fraction returns no more than it was given. -/
theorem lexFraction_length_le (n : Numeral) (cs : List Char) :
    (lexFraction n cs).2.length ≤ cs.length := by
  unfold lexFraction
  split
  · rename_i rest
    dsimp only
    split
    · simp
    · refine Nat.le_trans (lexExponent_length_le ..) ?_
      exact Nat.le_trans (afterDigits_length_le _) (Nat.le_succ _)
  · exact lexExponent_length_le ..

/-- Reading a number takes at least one character if there is one. -/
theorem lexNumber_length_lt (negative : Bool) {cs : List Char} (h : cs ≠ []) :
    (lexNumber negative cs).2.length < cs.length := by
  have pos : 0 < cs.length := List.length_pos_iff.2 h
  unfold lexNumber
  dsimp only
  split
  · exact pos
  · split
    · exact pos
    · rename_i hd _
      exact Nat.lt_of_le_of_lt (lexFraction_length_le ..) (afterDigits_length_lt hd)

/-- Reads the rest of a word. -/
def lexWord (token : Token) : List Char → List Char → Token × List Char
  | [], rest => (token, rest)
  | _ :: _, [] => (.brokenScalar .endOfText .endOfText, [])
  | w :: word, c :: rest =>
    if w = c then lexWord token word rest else (.brokenScalar .malformed .malformed, [])

theorem lexWord_length_le (token : Token) (word cs : List Char) :
    (lexWord token word cs).2.length ≤ cs.length := by
  fun_induction lexWord token word cs with
  | case1 rest => exact Nat.le_refl _
  | case2 w word => exact Nat.le_refl _
  | case3 word c rest ih => exact Nat.le_succ_of_le ih
  | case4 w word c rest h => exact Nat.zero_le _

/-- Reads one token that starts with the character `c`, which is no white space. -/
def lex (c : Char) (rest : List Char) : Token × List Char :=
  match c with
  | '\x7b' => (.openObject, rest)
  | '\x7d' => (.closeObject, rest)
  | '[' => (.openList, rest)
  | ']' => (.closeList, rest)
  | ':' => (.colon, rest)
  | ',' => (.comma, rest)
  | '"' => lexText .empty rest
  | 'n' => lexWord .null ['u', 'l', 'l'] rest
  | 't' => lexWord (.bool true) ['r', 'u', 'e'] rest
  | 'f' => lexWord (.bool false) ['a', 'l', 's', 'e'] rest
  | '-' => lexNumber true rest
  | c =>
    if c.isDigit then lexNumber false (c :: rest)
    else (.brokenScalar .malformed .malformed, [])

/-- Reading a token takes at least its first character. -/
theorem lex_length_le (c : Char) (rest : List Char) : (lex c rest).2.length ≤ rest.length := by
  unfold lex
  split
  any_goals exact Nat.le_refl _
  · exact lexText_length_le ..
  · exact lexWord_length_le ..
  · exact lexWord_length_le ..
  · exact lexWord_length_le ..
  · cases rest with
    | nil => simp [lexNumber, leadingDigits]
    | cons d rest => exact Nat.le_of_lt (lexNumber_length_lt true (List.cons_ne_nil _ _))
  · split
    · exact Nat.lt_succ_iff.1 (lexNumber_length_lt false (List.cons_ne_nil _ _))
    · simp

/-- The tokens of a text. -/
def ofChars : List Char → List Token
  | [] => []
  | c :: rest =>
    if isBlank c then ofChars rest
    else
      let next := lex c rest
      next.1 :: ofChars next.2
termination_by cs => cs.length
decreasing_by
  · simp
  · exact Nat.lt_succ_iff.2 (lex_length_le c rest)

end Token

end CardComputer.Json
