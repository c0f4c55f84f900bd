import CardComputer.Proofs.Json.Written

/-!
# Values and objects in texts

`Token.IsValue` is the grammar of values, over tokens. It says nothing of how a reader goes about
them. `objectText` puts an object together from its keys and the texts of its values, which may be
any; its tokens are those of its members between braces (`Token.ofChars_objectText`).
-/

namespace CardComputer.Json

namespace Token

/-! ## Values -/

/-- The tokens of a member with a key. -/
def member (key : Option String) (value : List Token) : List Token := .text key :: .colon :: value

/-- The tokens of a value: a scalar, a list of values, or an object of members with values. -/
inductive IsValue : List Token → Prop where
  | null : IsValue [.null]
  | bool (b : Bool) : IsValue [.bool b]
  | number (n : Numeral) : IsValue [.number n]
  | text (s : Option String) : IsValue [.text s]
  | list (items : List (List Token)) (values : ∀ item ∈ items, IsValue item) :
    IsValue (.openList :: ([.comma].intercalate items ++ [.closeList]))
  | object (members : List (Option String × List Token)) (values : ∀ m ∈ members, IsValue m.2) :
    IsValue (.openObject ::
      ([.comma].intercalate (members.map fun m => member m.1 m.2) ++ [.closeObject]))

theorem mem_intercalate {α : Type} {a x : α} {ls : List (List α)}
    (h : x ∈ [a].intercalate ls) : x = a ∨ ∃ l ∈ ls, x ∈ l := by
  induction ls with
  | nil => cases h
  | cons l ls ih =>
    cases ls with
    | nil => exact .inr ⟨l, List.mem_singleton_self l, by simpa using h⟩
    | cons l' ls =>
      rw [List.intercalate_cons_cons, List.mem_append, List.mem_append] at h
      rcases h with (h | h) | h
      · exact .inr ⟨l, List.mem_cons_self, h⟩
      · exact .inl (List.mem_singleton.1 h)
      · exact (ih h).imp_right fun ⟨l, hl, hx⟩ => ⟨l, List.mem_cons_of_mem _ hl, hx⟩

/-- The tokens of a value are all complete. -/
theorem IsValue.isBroken_eq_false {tokens : List Token} (h : IsValue tokens) :
    ∀ t ∈ tokens, t.isBroken = false := by
  induction h with
  | null | bool | number | text =>
    intro t ht
    rw [List.mem_singleton.1 ht]
    rfl
  | list items values ih =>
    intro t ht
    rw [List.mem_cons, List.mem_append, List.mem_singleton] at ht
    rcases ht with rfl | ht | rfl
    · rfl
    · rcases mem_intercalate ht with rfl | ⟨item, hitem, ht⟩
      · rfl
      · exact ih item hitem t ht
    · rfl
  | object members values ih =>
    intro t ht
    rw [List.mem_cons, List.mem_append, List.mem_singleton] at ht
    rcases ht with rfl | ht | rfl
    · rfl
    · rcases mem_intercalate ht with rfl | ⟨_, hmember, ht⟩
      · rfl
      · obtain ⟨m, hm, rfl⟩ := List.mem_map.1 hmember
        rw [member, List.mem_cons, List.mem_cons] at ht
        rcases ht with rfl | rfl | ht
        · rfl
        · rfl
        · exact ih m hm t ht
    · rfl

/-- A value does not begin like the end of a list. -/
theorem IsValue.exists_cons {tokens : List Token} (h : IsValue tokens) :
    ∃ t rest, tokens = t :: rest ∧ t ≠ .closeList := by
  cases h <;> exact ⟨_, _, rfl, Token.noConfusion⟩

end Token

/-! ## Texts of objects -/

/-- The text of an object with given keys, whose values are given as texts. -/
def objectText (members : List (String × String)) : String :=
  "\x7b" ++ ",".intercalate (members.map fun m => render (.text m.1) ++ ":" ++ m.2) ++ "\x7d"

/-- The text of an object is put together from those of its values. -/
theorem render_object (members : List (String × Json)) :
    render (.object members) = objectText (members.map fun m => (m.1, render m.2)) := by
  apply String.toList_injective
  rw [render, write, String.toList_push, toList_writeMembers]
  simp [objectText, Function.comp_def]

namespace Token

/-- The tokens of a member, up to a character with which no number goes on. -/
theorem ofChars_member {key value : String}
    (h : ∀ t ∈ ofChars value.toList, t.isBroken = false) {d : Char} (hd : endsNumber d = true)
    (more : List Char) : ofChars ((render (.text key) ++ ":" ++ value).toList ++ d :: more) =
      member (some key) (ofChars value.toList) ++ ofChars (d :: more) := by
  have hchars : (render (.text key) ++ ":" ++ value).toList ++ d :: more =
      quote key ++ ':' :: (value.toList ++ d :: more) := by
    simp [toList_render_text]
  rw [hchars, ofChars_quote, ofChars_cons (t := .colon) rfl rfl, ofChars_append h hd]
  rfl

/-- The tokens of members with commas between them, up to the closing brace. -/
theorem ofChars_members {members : List (String × String)}
    (h : ∀ m ∈ members, ∀ t ∈ ofChars m.2.toList, t.isBroken = false) :
    ofChars ([','].intercalate
        (members.map fun m => (render (.text m.1) ++ ":" ++ m.2).toList) ++ ['\x7d']) =
      [.comma].intercalate (members.map fun m => member (some m.1) (ofChars m.2.toList)) ++
        [.closeObject] := by
  have hbrace : ofChars ['\x7d'] = [.closeObject] := by
    rw [ofChars_cons (t := .closeObject) rfl rfl, ofChars_nil]
  induction members with
  | nil => exact hbrace
  | cons m members ih =>
    have hfirst := h m List.mem_cons_self
    cases members with
    | nil =>
      simp only [List.map_cons, List.map_nil, List.intercalate_singleton]
      rw [ofChars_member hfirst (by decide), hbrace]
    | cons m' members =>
      have hrest := ih fun m hm => h m (List.mem_cons_of_mem _ hm)
      simp only [List.map_cons, List.intercalate_cons_cons, List.append_assoc,
        List.cons_append, List.nil_append] at hrest ⊢
      rw [ofChars_member hfirst (by decide), ofChars_cons (t := .comma) rfl rfl, hrest]

/-- The tokens of an object. -/
theorem ofChars_objectText {members : List (String × String)}
    (h : ∀ m ∈ members, ∀ t ∈ ofChars m.2.toList, t.isBroken = false) :
    ofChars (objectText members).toList = .openObject ::
      ([.comma].intercalate (members.map fun m => member (some m.1) (ofChars m.2.toList)) ++
        [.closeObject]) := by
  have hchars : (objectText members).toList = '\x7b' :: ([','].intercalate
      (members.map fun m => (render (.text m.1) ++ ":" ++ m.2).toList) ++ ['\x7d']) := by
    simp [objectText, Function.comp_def]
  rw [hchars, ofChars_cons (t := .openObject) rfl rfl, ofChars_members h]

end Token

end CardComputer.Json
