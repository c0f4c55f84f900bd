import CardComputer.Json.Printer
import CardComputer.Proofs.Json.Lexing
import Mathlib.Data.List.TakeWhile

/-!
# Tokens of what is written

What `Json.write` writes between quotes is one token, and it holds the text that was written
(`Token.ofChars_quote`), whatever characters had to be escaped. The digits of a natural number are
one token too, and it denotes the number if that fits in 64 bits (`Token.ofChars_toDigits`,
`Numeral.value?_ofNat`).
-/

namespace CardComputer.Json

/-! ## Quoted texts -/

/-- A text between quotes. -/
def quote (s : String) : List Char := '"' :: (s.toList.flatMap escapeChar ++ ['"'])

theorem toList_foldl_push (out : String) (cs : List Char) :
    (cs.foldl String.push out).toList = out.toList ++ cs := by
  induction cs generalizing out with
  | nil => simp
  | cons c cs ih => simp [ih]

theorem toList_writeText (out s : String) : (writeText out s).toList = out.toList ++ quote s := by
  have hchars (cs : List Char) (out : String) :
      (cs.foldl (fun out c => (escapeChar c).foldl String.push out) out).toList =
        out.toList ++ cs.flatMap escapeChar := by
    induction cs generalizing out with
    | nil => simp
    | cons c cs ih => simp [ih, toList_foldl_push]
  rw [writeText, String.foldl_eq_foldl_toList, String.toList_push, hchars]
  simp [quote]

theorem toList_render_text (s : String) : (render (.text s)).toList = quote s := by
  show (writeText "" s).toList = _
  rw [toList_writeText]
  rfl

/-! ## Values -/

mutual

/-- Writing a value appends its text. -/
theorem toList_write : ∀ (out : String) (v : Json),
    (write out v).toList = out.toList ++ (render v).toList
  | out, .null => by simp [render, write]
  | out, .bool true => by simp [render, write]
  | out, .bool false => by simp [render, write]
  | out, .number n => by simp [render, write]
  | out, .text s => by simp [render, write, toList_writeText]
  | out, .list items => by
    rw [render, write, write, String.toList_push, String.toList_push, toList_writeItems _ items,
      toList_writeItems _ items]
    simp
  | out, .object members => by
    rw [render, write, write, String.toList_push, String.toList_push,
      toList_writeMembers _ members, toList_writeMembers _ members]
    simp

theorem toList_writeItems : ∀ (out : String) (items : List Json),
    (writeItems out items).toList =
      out.toList ++ [','].intercalate (items.map fun v => (render v).toList)
  | out, [] => by simp [writeItems]
  | out, [v] => by simpa [writeItems] using toList_write out v
  | out, v :: w :: rest => by
    rw [writeItems, toList_writeItems _ (w :: rest)]
    simp [toList_write out v]

theorem toList_writeMember : ∀ (out : String) (m : String × Json),
    (writeMember out m).toList = out.toList ++ (render (.text m.1) ++ ":" ++ render m.2).toList
  | out, (key, v) => by
    rw [writeMember, toList_write _ v]
    simp [toList_writeText, toList_render_text]

theorem toList_writeMembers : ∀ (out : String) (members : List (String × Json)),
    (writeMembers out members).toList = out.toList ++
      [','].intercalate (members.map fun m => (render (.text m.1) ++ ":" ++ render m.2).toList)
  | out, [] => by simp [writeMembers]
  | out, [m] => by simpa [writeMembers] using toList_writeMember out m
  | out, m :: n :: rest => by
    rw [writeMembers, toList_writeMembers _ (n :: rest)]
    simp [toList_writeMember out m]

end

namespace Token

/-- A short escape stands for the control character that it was written for. -/
theorem simpleEscape?_of_controlEscape? {n : Nat} {e : Char} (h : controlEscape? n = some e) :
    simpleEscape? e = some (Char.ofNat n) := by
  unfold controlEscape? at h
  split at h <;> cases h <;> rfl

/-- Four digits stand for the control character that they were written for. -/
theorem exists_hexUnit? {n : Nat} (h : n < 32) :
    ∃ a b, Text.Hex.digits 4 n = ['0', '0', a, b] ∧ hexUnit? '0' '0' a b = some n := by
  have hall : ∀ n : Fin 32,
      Text.Hex.digits 4 n = ['0', '0', Nat.digitChar (n / 16), Nat.digitChar (n % 16)] ∧
        hexUnit? '0' '0' (Nat.digitChar (n / 16)) (Nat.digitChar (n % 16)) = some n.val := by
    decide
  exact ⟨_, _, hall ⟨n, h⟩⟩

/-- A unit that is no surrogate is a character. -/
theorem pushUnit_of_lt {q : Quote} (hq : q.half = none) {n : Nat} (h : n < 32) :
    q.pushUnit n = q.push (Char.ofNat n) := by
  unfold Quote.pushUnit Quote.push
  rw [hq]
  -- Surrogates are far above.
  simp only
  rw [if_neg (by omega), if_neg (by omega)]
  simp

/-- A character is read as it was written. -/
theorem lexText_escapeChar {q : Quote} (hq : q.half = none) (c : Char) (rest : List Char) :
    lexText q (escapeChar c ++ rest) = lexText (q.push c) rest := by
  unfold escapeChar
  by_cases hquote : c = '"'
  · subst hquote
    exact lexText_escape q rest rfl
  by_cases hslash : c = '\\'
  · subst hslash
    exact lexText_escape q rest rfl
  rw [if_neg hquote, if_neg hslash]
  by_cases hcontrol : c.toNat < 32
  · rw [if_pos hcontrol]
    cases he : controlEscape? c.toNat with
    | some e =>
      have hc := simpleEscape?_of_controlEscape? he
      rw [Char.ofNat_toNat] at hc
      exact lexText_escape q rest hc
    | none =>
      obtain ⟨a, b, hdigits, hunit⟩ := exists_hexUnit? hcontrol
      have hpush := pushUnit_of_lt hq hcontrol
      rw [Char.ofNat_toNat] at hpush
      rw [hdigits, ← hpush]
      exact lexText_unit q rest hunit
  · rw [if_neg hcontrol]
    exact lexText_plain q rest hquote hslash (Nat.not_lt.1 hcontrol)

/-- A text is read as it was written, up to the closing quote. -/
theorem lexText_flatMap_escapeChar {q : Quote} (hq : q.half = none) (cs rest : List Char) :
    lexText q (cs.flatMap escapeChar ++ '"' :: rest) =
      (Quote.close { q with read := cs.reverse ++ q.read }, rest) := by
  induction cs generalizing q with
  | nil => exact lexText_quote q rest
  | cons c cs ih =>
    rw [List.flatMap_cons, List.append_assoc, lexText_escapeChar hq, ih rfl]
    simp [Quote.push, hq]

/-- A quoted text is one token, which holds the text. -/
theorem ofChars_quote (s : String) (rest : List Char) :
    ofChars (quote s ++ rest) = .text (some s) :: ofChars rest := by
  have hread : lexText .empty (s.toList.flatMap escapeChar ++ '"' :: rest) =
      (.text (some s), rest) := by
    rw [lexText_flatMap_escapeChar rfl]
    simp [Quote.empty, Quote.close]
  have hlex : lex '"' (s.toList.flatMap escapeChar ++ '"' :: rest) = (.text (some s), rest) := hread
  have hchars : quote s ++ rest = '"' :: (s.toList.flatMap escapeChar ++ '"' :: rest) := by
    simp [quote]
  rw [hchars, ofChars_cons rfl hlex]

end Token

/-! ## Natural numbers -/

namespace Numeral

/-- The digits of a natural number. -/
def ofNat (n : Nat) : Numeral where
  negative := false
  whole := (Nat.toDigits 10 n).map fun c => c.toNat - 48
  fraction := none
  exponent := none

theorem le_foldl (digits : List Nat) (n : Nat) :
    n ≤ digits.foldl (fun n d => n * 10 + d) n := by
  induction digits generalizing n with
  | nil => exact Nat.le_refl n
  | cons d digits ih =>
    have := ih (n * 10 + d)
    rw [List.foldl_cons]
    omega

/-- Digits are all absorbed if the number that they denote fits. -/
theorem absorb_eq {digits : List Nat} {n : Nat}
    (h : digits.foldl (fun n d => n * 10 + d) n < UInt64.size) :
    absorb n digits = (digits.foldl (fun n d => n * 10 + d) n, []) := by
  induction digits generalizing n with
  | nil => rfl
  | cons d digits ih =>
    rw [List.foldl_cons] at h ⊢
    rw [absorb, if_pos (Nat.lt_of_le_of_lt (le_foldl digits _) h), ih h]

theorem foldl_toDigits (n : Nat) :
    ((Nat.toDigits 10 n).map fun c => c.toNat - 48).foldl (fun n d => n * 10 + d) 0 = n := by
  have h : Nat.ofDigitChars 10 (Nat.toDigits 10 n) 0 = n := Nat.ofDigitChars_ten_toDigits
  simp only [Nat.ofDigitChars, Nat.mul_comm 10] at h
  rw [List.foldl_map]
  exact h

/-- The digits of a number that fits in 64 bits denote it. -/
theorem value?_ofNat {n : Nat} (h : n < UInt64.size) :
    (ofNat n).value? = some (.whole n) := by
  have habsorb : absorb 0 (ofNat n).whole = (n, []) := by
    have hfold : (ofNat n).whole.foldl (fun n d => n * 10 + d) 0 = n := foldl_toDigits n
    rw [absorb_eq (by rwa [hfold]), hfold]
  unfold value?
  rw [habsorb]
  rfl

theorem whole_ofNat_of_lt {n : Nat} (h : n < 10) : (ofNat n).whole = [n] := by
  have hall : ∀ n : Fin 10, [(Nat.digitChar n).toNat - 48] = [n.val] := by decide
  rw [ofNat, Nat.toDigits_of_lt_base h]
  exact hall ⟨n, h⟩

/-- The last digit follows those of a tenth of the number. -/
theorem whole_ofNat_of_le {n : Nat} (h : 10 ≤ n) :
    (ofNat n).whole = (ofNat (n / 10)).whole ++ [n % 10] := by
  have hlast := whole_ofNat_of_lt (Nat.mod_lt n (by decide : 0 < 10))
  rw [ofNat, Nat.toDigits_of_lt_base (Nat.mod_lt n (by decide))] at hlast
  rw [ofNat, Nat.toDigits_of_base_le (by decide) h, List.map_append, ← hlast]
  rfl

/-- No digit follows a leading zero. -/
theorem exists_whole_ofNat {n : Nat} (h : n ≠ 0) :
    ∃ d rest, (ofNat n).whole = d :: rest ∧ d ≠ 0 := by
  induction n using Nat.strongRecOn with
  | ind n ih =>
    rcases Nat.lt_or_ge n 10 with hn | hn
    · exact ⟨n, [], whole_ofNat_of_lt hn, h⟩
    · obtain ⟨d, rest, hwhole, hd⟩ := ih (n / 10) (by omega) (by omega)
      exact ⟨d, rest ++ [n % 10], by rw [whole_ofNat_of_le hn, hwhole, List.cons_append], hd⟩

end Numeral

namespace Token

theorem isBlank_of_isDigit {c : Char} (h : c.isDigit = true) : isBlank c = false := by
  rw [Bool.eq_false_iff]
  intro hblank
  simp only [isBlank, Bool.or_eq_true, decide_eq_true_eq] at hblank
  obtain ((rfl | rfl) | rfl) | rfl := hblank <;> exact absurd h (by decide)

theorem lexNumber_toDigits (n : Nat) :
    lexNumber false (Nat.toDigits 10 n) = (.number (.ofNat n), []) := by
  have hdigits : ∀ c ∈ Nat.toDigits 10 n, c.isDigit = true := fun c hc =>
    Nat.isDigit_of_mem_toDigits (by decide) (by decide) hc
  have hlead : leadingDigits (Nat.toDigits 10 n) = (Numeral.ofNat n).whole := by
    rw [leadingDigits, List.takeWhile_eq_self_iff.2 hdigits]
    rfl
  have hafter : afterDigits (Nat.toDigits 10 n) = [] := List.dropWhile_eq_nil_iff.2 hdigits
  have hne : (Numeral.ofNat n).whole ≠ [] := by simp [Numeral.ofNat, Nat.toDigits_ne_nil]
  -- The only number that is written with a leading zero is zero itself.
  have hzero : ¬ ((Numeral.ofNat n).whole.head? = some 0 ∧
      (Numeral.ofNat n).whole.length ≠ 1) := by
    rintro ⟨hhead, hlength⟩
    by_cases hn : n = 0
    · subst hn
      exact hlength rfl
    · obtain ⟨d, rest, hwhole, hd⟩ := Numeral.exists_whole_ofNat hn
      rw [hwhole] at hhead
      exact hd (Option.some.inj hhead)
  unfold lexNumber
  simp only [hlead, hafter, if_neg hne, if_neg hzero]
  rfl

/-- The digits of a natural number are one token. -/
theorem ofChars_toDigits (n : Nat) : ofChars (Nat.toDigits 10 n) = [.number (.ofNat n)] := by
  have hnumber := lexNumber_toDigits n
  cases hchars : Nat.toDigits 10 n with
  | nil => exact absurd hchars Nat.toDigits_ne_nil
  | cons c rest =>
    have hc : c.isDigit = true := Nat.isDigit_of_mem_toDigits (b := 10) (n := n) (by decide)
      (by decide) (hchars ▸ List.mem_cons_self)
    rw [hchars] at hnumber
    rw [ofChars_cons (isBlank_of_isDigit hc) ((lex_digit hc rest).trans hnumber), ofChars_nil]

end Token

end CardComputer.Json
