import CardComputer.Json.Printer
import CardComputer.Json.Token

/-!
# Tokens of texts side by side

Every token is read from its own text, whatever comes after it; only a number may go on with the
next character. So where no number goes on, two texts side by side have the tokens of the one and
then those of the other (`Token.ofChars_append`). It is shown for one reader after another, from
the parts of a number up to whole texts (`Token.Settles`).
-/

namespace CardComputer.Json.Token

/-- Whether a token could not be completed. -/
def isBroken : Token → Bool
  | brokenText _ _ => true
  | brokenScalar _ _ => true
  | _ => false

/-- Whether no number goes on with a character. -/
def endsNumber (c : Char) : Bool := !c.isDigit && c != '.' && c != 'e' && c != 'E'

/-! ## Quoted texts -/

section Text

variable (q : Quote) (rest : List Char)

theorem lexText_quote : lexText q ('"' :: rest) = (q.close, rest) := by
  rw [lexText]

theorem lexText_unit {a b c d : Char} {unit : Nat} (h : hexUnit? a b c d = some unit) :
    lexText q ('\\' :: 'u' :: a :: b :: c :: d :: rest) = lexText (q.pushUnit unit) rest := by
  rw [lexText, h]

theorem lexText_escape {e c : Char} (h : simpleEscape? e = some c) :
    lexText q ('\\' :: e :: rest) = lexText (q.push c) rest := by
  have he : e ≠ 'u' := by
    rintro rfl
    simp [simpleEscape?] at h
  rw [lexText]
  · rw [h]
  all_goals simp [he]

theorem lexText_plain {c : Char} (hquote : c ≠ '"') (hslash : c ≠ '\\') (h : 32 ≤ c.toNat) :
    lexText q (c :: rest) = lexText (q.push c) rest := by
  rw [lexText]
  · rw [if_neg (Nat.not_lt.2 h)]
  all_goals simp [hquote, hslash]

/-- What follows a quoted text does not matter to it. -/
theorem lexText_append (q : Quote) (cs : List Char) (h : (lexText q cs).1.isBroken = false)
    (more : List Char) : lexText q (cs ++ more) = ((lexText q cs).1, (lexText q cs).2 ++ more) := by
  -- The reader goes through the text unit by unit, and takes each unit as it did without the rest.
  fun_induction lexText q cs with
  | case2 q rest => exact lexText_quote q (rest ++ more)
  | case4 q a b c d rest unit hunit ih => exact (lexText_unit q (rest ++ more) hunit).trans (ih h)
  | case8 q e rest _ _ c hc ih => exact (lexText_escape q (rest ++ more) hc).trans (ih h)
  | case11 q c rest hquote hlast _ _ hnext hc ih =>
    have hslash : c ≠ '\\' := by
      rintro rfl
      cases rest with
      | nil => exact hlast rfl rfl
      | cons e rest => exact hnext e rest rfl rfl
    exact (lexText_plain q (rest ++ more) hquote hslash (Nat.not_lt.1 hc)).trans (ih h)
  -- In all other cases the text is broken.
  | _ => cases h

end Text

/-! ## Numbers -/

section Number

variable {d : Char}

theorem leadingDigits_append (hd : d.isDigit = false) (cs more : List Char) :
    leadingDigits (cs ++ d :: more) = leadingDigits cs := by
  unfold leadingDigits
  induction cs with
  | nil => simp [hd]
  | cons c cs ih =>
    cases hc : c.isDigit with
    | false => simp [hc]
    | true => simpa [hc] using ih

theorem afterDigits_append (hd : d.isDigit = false) (cs more : List Char) :
    afterDigits (cs ++ d :: more) = afterDigits cs ++ d :: more := by
  unfold afterDigits
  induction cs with
  | nil => simp [hd]
  | cons c cs ih =>
    cases hc : c.isDigit with
    | false => simp [hc]
    | true => simpa [hc] using ih

theorem isBroken_missingDigit (cs : List Char) : (missingDigit cs).isBroken = true := by
  cases cs with
  | nil => rfl
  | cons c cs => rfl

/-- A reader of tokens that makes the same of a text whatever follows it, if the token is complete
and no number goes on with what follows. -/
def Settles (read : List Char → Token × List Char) : Prop :=
  ∀ cs, (read cs).1.isBroken = false → ∀ d more, endsNumber d = true →
    read (cs ++ d :: more) = ((read cs).1, (read cs).2 ++ d :: more)

theorem isDigit_of_endsNumber (h : endsNumber d = true) : d.isDigit = false := by
  simp only [endsNumber, Bool.and_eq_true, Bool.not_eq_true'] at h
  exact h.1.1.1

theorem ne_point_of_endsNumber (h : endsNumber d = true) : d ≠ '.' := by
  simp only [endsNumber, Bool.and_eq_true, bne_iff_ne] at h
  exact h.1.1.2

theorem not_exponent_of_endsNumber (h : endsNumber d = true) : ¬ (d = 'e' ∨ d = 'E') := by
  simp only [endsNumber, Bool.and_eq_true, bne_iff_ne] at h
  exact not_or.2 ⟨h.1.2, h.2⟩

theorem afterSign_append {cs : List Char} (h : cs ≠ []) (more : List Char) :
    afterSign (cs ++ more) = afterSign cs ++ more := by
  cases cs with
  | nil => exact absurd rfl h
  | cons c cs =>
    rw [List.cons_append]
    unfold afterSign
    split <;> simp_all

theorem hasMinus_append {cs : List Char} (h : cs ≠ []) (more : List Char) :
    hasMinus (cs ++ more) = hasMinus cs := by
  cases cs with
  | nil => exact absurd rfl h
  | cons c cs => rfl

theorem settles_lexExponent (n : Numeral) : Settles (lexExponent n) := by
  intro cs h d more hd
  have hdigit := isDigit_of_endsNumber hd
  cases cs with
  | nil => exact if_neg (not_exponent_of_endsNumber hd)
  | cons c rest =>
    rw [List.cons_append]
    unfold lexExponent at h ⊢
    by_cases hc : c = 'e' ∨ c = 'E'
    · simp only [if_pos hc] at h ⊢
      by_cases hnone : leadingDigits (afterSign rest) = []
      · rw [if_pos hnone] at h
        rw [isBroken_missingDigit] at h
        cases h
      · -- The sign, if there is one, and a digit stand before what follows.
        have hrest : rest ≠ [] := by
          rintro rfl
          exact hnone rfl
        rw [afterSign_append hrest, leadingDigits_append hdigit, afterDigits_append hdigit,
          hasMinus_append hrest, if_neg hnone, if_neg hnone]
    · simp only [if_neg hc]
      rfl

theorem lexFraction_of_head?_ne (n : Numeral) {cs : List Char} (h : cs.head? ≠ some '.') :
    lexFraction n cs = lexExponent n cs := by
  unfold lexFraction
  split
  · exact absurd rfl h
  · rfl

theorem settles_lexFraction (n : Numeral) : Settles (lexFraction n) := by
  intro cs h d more hd
  have hdigit := isDigit_of_endsNumber hd
  by_cases hpoint : cs.head? = some '.'
  · obtain ⟨rest, rfl⟩ := List.head?_eq_some_iff.1 hpoint
    rw [List.cons_append]
    unfold lexFraction at h ⊢
    by_cases hnone : leadingDigits rest = []
    · simp only [if_pos hnone, isBroken_missingDigit] at h
      cases h
    · simp only [leadingDigits_append hdigit, if_neg hnone, afterDigits_append hdigit] at h ⊢
      exact settles_lexExponent _ _ h d more hd
  · have hhead : (cs ++ d :: more).head? ≠ some '.' := by
      cases cs with
      | nil => exact fun hsome => ne_point_of_endsNumber hd (Option.some.inj hsome)
      | cons c cs => exact hpoint
    rw [lexFraction_of_head?_ne n hpoint] at h ⊢
    rw [lexFraction_of_head?_ne n hhead]
    exact settles_lexExponent n cs h d more hd

theorem settles_lexNumber (negative : Bool) : Settles (lexNumber negative) := by
  intro cs h d more hd
  have hdigit := isDigit_of_endsNumber hd
  unfold lexNumber at h ⊢
  simp only [leadingDigits_append hdigit, afterDigits_append hdigit]
  by_cases hnone : leadingDigits cs = []
  · simp only [if_pos hnone, isBroken_missingDigit] at h
    cases h
  · simp only [if_neg hnone] at h ⊢
    by_cases hzero : (leadingDigits cs).head? = some 0 ∧ (leadingDigits cs).length ≠ 1
    · simp only [if_pos hzero] at h
      cases h
    · simp only [if_neg hzero] at h ⊢
      exact settles_lexFraction _ _ h d more hd

end Number

/-! ## Whole texts -/

theorem lexWord_append (token : Token) (word cs : List Char)
    (h : (lexWord token word cs).1.isBroken = false) (more : List Char) :
    lexWord token word (cs ++ more) =
      ((lexWord token word cs).1, (lexWord token word cs).2 ++ more) := by
  fun_induction lexWord token word cs with
  | case1 rest => rfl
  | case3 word c rest ih =>
    rw [List.cons_append, lexWord, if_pos rfl]
    exact ih h
  -- In all other cases the word is broken.
  | _ => cases h

theorem lex_digit {c : Char} (h : c.isDigit = true) (rest : List Char) :
    lex c rest = lexNumber false (c :: rest) := by
  unfold lex
  split
  case h_12 => rw [if_pos h]
  -- No other token starts with a digit.
  all_goals exact absurd h (by decide)

/-- A complete token is the same whatever follows its text, unless it is a number that goes on. -/
theorem settles_lex (c : Char) : Settles (lex c) := by
  intro cs h d more hd
  cases hdigit : c.isDigit with
  | true =>
    rw [lex_digit hdigit] at h ⊢
    rw [lex_digit hdigit]
    exact settles_lexNumber false (c :: cs) h d more hd
  | false =>
    unfold lex at h ⊢
    split at h
    case h_7 => exact lexText_append _ _ h _
    case h_8 => exact lexWord_append _ _ _ h _
    case h_9 => exact lexWord_append _ _ _ h _
    case h_10 => exact lexWord_append _ _ _ h _
    case h_11 => exact settles_lexNumber true cs h d more hd
    case h_12 =>
      rw [hdigit] at h
      cases h
    -- The other tokens are single characters.
    all_goals rfl

theorem ofChars_nil : ofChars [] = [] := by rw [ofChars]

/-- The first token of a text, and those of the rest. -/
theorem ofChars_cons {c : Char} {cs rest : List Char} {t : Token} (hblank : isBlank c = false)
    (h : lex c cs = (t, rest)) : ofChars (c :: cs) = t :: ofChars rest := by
  rw [ofChars, if_neg (Bool.eq_false_iff.1 hblank), h]

/-- Two texts side by side have the tokens of both, if those of the first are complete and no number
goes on with the second. -/
theorem ofChars_append {cs : List Char} (h : ∀ t ∈ ofChars cs, t.isBroken = false) {d : Char}
    (hd : endsNumber d = true) (more : List Char) :
    ofChars (cs ++ d :: more) = ofChars cs ++ ofChars (d :: more) := by
  induction cs using ofChars.induct with
  | case1 => rw [ofChars_nil, List.nil_append, List.nil_append]
  | case2 c rest hblank ih =>
    rw [ofChars, if_pos hblank] at h ⊢
    rw [List.cons_append, ofChars, if_pos hblank]
    exact ih h
  | case3 c rest hblank next ih =>
    rw [ofChars, if_neg hblank] at h ⊢
    rw [List.cons_append, ofChars, if_neg hblank]
    dsimp only at h ⊢
    rw [settles_lex c rest (h _ List.mem_cons_self) d more hd]
    exact congrArg _ (ih fun t ht => h t (List.mem_cons_of_mem _ ht))

end CardComputer.Json.Token
