import CardComputer.Proofs.Config.Passing

/-!
# Configurations and their texts

A text spells a configuration if its object holds the value of every field that differs from the
standard one. The fields may stand in any order, and between them there may be any other keys with
any values: the reader fills in one field after another (`Reading.reads_entries`), and what is not
filled in keeps its standard value. So a configuration is read back from each of its texts, and
refused for the problem that it has, if it has one (`text_round_trip`).
-/

namespace CardComputer.Config

open Json (Token)
open Json.Token (IsValue)

/-! ## Fields -/

namespace Field

/-- The number that a field holds, if it holds one. -/
def word (c : Config) : Field → UInt32
  | model => 0
  | masterClockHz => c.masterClockHz
  | mainDivider => c.mainDivider
  | mcuDivider => c.mcuDivider
  | barcodeShiftUs => c.barcodeShiftUs
  | displayTickUs => c.displayTickUs
  | decayWindowTicks => c.decayWindowTicks

/-- The stored form of a field. -/
def value (c : Config) : Field → Json
  | model => Json.encode c.model
  | f => Json.encode (f.word c)

/-- Sets a field to what it is in another configuration. -/
def copy (c : Config) (f : Field) (c' : Config) : Config :=
  match f with
  | model => { c' with model := c.model }
  | f => f.setWord (f.word c) c'

theorem mem_all (f : Field) : f ∈ all := by
  cases f <;> decide

theorem ofKey?_key (f : Field) : ofKey? f.key = some f := by
  cases f <;> rfl

theorem value_copy_self (c c' : Config) (f : Field) : f.value (f.copy c c') = f.value c := by
  cases f <;> rfl

theorem value_copy_of_ne (c c' : Config) {f g : Field} (h : g ≠ f) :
    g.value (f.copy c c') = g.value c' := by
  cases f <;> cases g <;> first | rfl | exact absurd rfl h

/-- A configuration is stored as the values of its fields. -/
theorem encode_eq (c : Config) : Json.encode c = .object (all.map fun f => (f.key, f.value c)) :=
  rfl

/-- A configuration is determined by the values of its fields. -/
theorem ext_value {c c' : Config} (h : ∀ f : Field, f.value c = f.value c') : c = c' := by
  have hencode : Json.encode c = Json.encode c' := by
    rw [encode_eq, encode_eq]
    simp only [h]
  have hdecode := Json.decode_encode c
  rw [hencode, Json.decode_encode] at hdecode
  exact (Except.ok.inj hdecode).symm

/-- The token of the value of a field. -/
def token (c : Config) : Field → Token
  | model => .text (some (Json.Named.name c.model))
  | f => .number (.ofNat (f.word c).toNat)

/-- The text of a field is one token. -/
theorem ofChars_value (c : Config) (f : Field) :
    Token.ofChars (Json.render (f.value c)).toList = [f.token c] := by
  have hword (w : UInt32) : Token.ofChars (Json.render (Json.encode w)).toList =
      [.number (.ofNat w.toNat)] := by
    have hchars : (Json.render (Json.encode w)).toList = Nat.toDigits 10 w.toNat := by
      show ("" ++ toString (w.toNat : Int)).toList = _
      rw [String.empty_append, Int.toString_eq_repr]
      exact Nat.toList_repr
    rw [hchars, Token.ofChars_toDigits]
  cases f with
  | model =>
    have hname : Json.render (value c model) = Json.render (.text (Json.Named.name c.model)) := rfl
    rw [hname, Json.toList_render_text, ← List.append_nil (Json.quote _), Token.ofChars_quote,
      Token.ofChars_nil]
    rfl
  | _ => exact hword _

end Field

/-! ## Entries -/

/-- A member of a text that spells a configuration. -/
inductive Entry where
  /-- A field, with its value. -/
  | field (f : Field)
  /-- Another key, with the text of any value. -/
  | other (key value : String)
deriving DecidableEq

namespace Entry

/-- The key of an entry and the text of its value. -/
def member (c : Config) : Entry → String × String
  | field f => (f.key, Json.render (f.value c))
  | other key value => (key, value)

/-- The tokens of an entry. -/
def tokens (c : Config) (e : Entry) : List Token :=
  Token.member (some (e.member c).1) (Token.ofChars (e.member c).2.toList)

/-- The fields that were seen after an entry. -/
def see : Entry → List Field → List Field
  | field f, seen => f :: seen
  | other _ _, seen => seen

/-- What is filled in by an entry. -/
def fill (c : Config) : Entry → Config → Config
  | field f, c' => f.copy c c'
  | other _ _, c' => c'

/-- The entry is a field, or an unknown key with a value. -/
def Spelled : Entry → Prop
  | field _ => True
  | other key value => Field.ofKey? key = none ∧ IsValue (Token.ofChars value.toList)

/-- The tokens of an entry are all complete. -/
theorem Spelled.isBroken_eq_false {e : Entry} (h : e.Spelled) (c : Config) :
    ∀ t ∈ Token.ofChars (e.member c).2.toList, t.isBroken = false := by
  cases e with
  | field f =>
    intro t ht
    rw [member, Field.ofChars_value, List.mem_singleton] at ht
    rw [ht]
    cases f <;> rfl
  | other key value => exact h.2.isBroken_eq_false

theorem tokens_field (c : Config) (f : Field) :
    (field f).tokens c = Token.member (some f.key) [f.token c] := by
  rw [tokens, member, Field.ofChars_value]

end Entry

/-- The tokens of an object of entries. -/
theorem ofChars_entries {entries : List Entry} (h : ∀ e ∈ entries, e.Spelled) (c : Config) :
    Token.ofChars (Json.objectText (entries.map (Entry.member c))).toList = .openObject ::
      ([.comma].intercalate (entries.map (Entry.tokens c)) ++ [.closeObject]) := by
  rw [Token.ofChars_objectText, List.map_map]
  · rfl
  · intro m hm
    obtain ⟨e, he, rfl⟩ := List.mem_map.1 hm
    exact (h e he).isBroken_eq_false c

/-- What is filled in by entries, one after another. -/
def fillAll (c : Config) (entries : List Entry) (c' : Config) : Config :=
  entries.foldl (fun c' e => e.fill c c') c'

/-- A field that is among the entries, or that was right before, is right after them. -/
theorem value_fillAll {c c' : Config} {f : Field} {entries : List Entry}
    (h : .field f ∈ entries ∨ f.value c' = f.value c) :
    f.value (fillAll c entries c') = f.value c := by
  induction entries generalizing c' with
  | nil => exact h.resolve_left List.not_mem_nil
  | cons e entries ih =>
    -- After the first entry the field is right, or it is still to come.
    refine ih ?_
    cases e with
    | other key value =>
      exact h.imp_left fun h => (List.mem_cons.1 h).resolve_left Entry.noConfusion
    | field g =>
      by_cases hf : f = g
      · subst hf
        exact .inr (Field.value_copy_self c c' f)
      · refine h.imp (fun h => (List.mem_cons.1 h).resolve_left ?_) fun h => ?_
        · exact fun heq => hf (Entry.field.inj heq)
        · exact (Field.value_copy_of_ne c c' hf).trans h

/-- A configuration is filled in completely if what is left out has its value already. -/
theorem fillAll_eq {c c' : Config} {entries : List Entry}
    (h : ∀ f : Field, .field f ∉ entries → f.value c = f.value c') : fillAll c entries c' = c := by
  refine Field.ext_value fun f => value_fillAll ?_
  by_cases hf : .field f ∈ entries
  · exact .inl hf
  · exact .inr (h f hf).symm

/-! ## Reading entries -/

namespace Reading

section Entry

variable {seen : List Field} {c c' : Config}

/-- The value of a field is taken as it is. -/
theorem takeValue_token (place : Place) (c c' : Config) (f : Field) :
    takeValue place c' f (f.token c) = .ok (.after place (f.copy c c')) := by
  have hword (w : UInt32) : Token.wordOf "u32" (.number (.ofNat w.toNat)) = .ok w := by
    have hlt : w.toNat < UInt64.size := Nat.lt_trans w.toNat_lt_size (by decide)
    have hdecode : Json.decode (.number (.whole w.toNat)) = .ok w := Json.decode_encode w
    rw [Token.wordOf, Json.Numeral.value?_ofNat hlt]
    dsimp only
    rw [hdecode]
    rfl
  cases f with
  | model =>
    have hname : takeModelName (Json.Named.name c.model) = .ok c.model := by
      rw [takeModelName, Json.ofName, Json.ofName?, Json.LawfulNamed.find?_name]
      rfl
    show (takeModelName _).map _ = _
    rw [hname]
    rfl
  | _ =>
    show (Token.wordOf "u32" (.number (.ofNat (Field.word c _).toNat))).map _ = _
    rw [hword]
    rfl

/-- A field that was not seen yet is filled in. -/
theorem reads_field {f : Field} (hf : f ∉ seen) :
    Reads (.key seen c') (Token.member (some f.key) [f.token c])
      (.after (.member (f :: seen)) (f.copy c c')) := by
  have hkey : step (.key seen c') (.text (some f.key)) = .ok (.colon seen c' (some f)) := by
    simp only [step, takeKey, Field.ofKey?_key, if_neg hf]
  exact .cons hkey (.cons rfl (.single (takeValue_token _ c c' f)))

theorem reads_entry {e : Entry} (h : e.Spelled) (hseen : ∀ f, e = .field f → f ∉ seen) :
    Reads (.key seen c') (e.tokens c) (.after (.member (e.see seen)) (e.fill c c')) := by
  cases e with
  | field f =>
    rw [Entry.tokens_field]
    exact reads_field (hseen f rfl)
  | other key value => exact reads_other h.1 h.2

/-- Entries are filled in one after another, up to the end of the object. -/
theorem reads_entries {entries : List Entry} (h : ∀ e ∈ entries, e.Spelled)
    (hne : entries ≠ []) (hseen : ∀ f, .field f ∈ entries → f ∉ seen)
    (honce : ∀ f, entries.count (.field f) ≤ 1) :
    Reads (.key seen c') ([.comma].intercalate (entries.map (Entry.tokens c)) ++ [.closeObject])
      (.done (fillAll c entries c')) := by
  induction entries generalizing seen c' with
  | nil => exact absurd rfl hne
  | cons e entries ih =>
    have hentry : Reads (.key seen c') (e.tokens c)
        (.after (.member (e.see seen)) (e.fill c c')) := by
      refine reads_entry (h e List.mem_cons_self) fun f hf => hseen f ?_
      rw [hf]
      exact List.mem_cons_self
    cases entries with
    | nil =>
      rw [List.map_singleton, List.intercalate_singleton]
      exact hentry.append (.single rfl)
    | cons e' entries =>
      rw [List.map_cons, List.map_cons, List.intercalate_cons_cons, List.append_assoc,
        List.append_assoc]
      refine hentry.append (.cons rfl (ih ?_ (List.cons_ne_nil _ _) ?_ ?_))
      · exact fun e he => h e (List.mem_cons_of_mem _ he)
      · -- A field that has just been seen does not come again.
        intro f hf
        have hbefore := hseen f (List.mem_cons_of_mem _ hf)
        cases e with
        | other key value => exact hbefore
        | field g =>
          refine fun hmem => hbefore ((List.mem_cons.1 hmem).resolve_left ?_)
          rintro rfl
          have htwice := honce f
          have hagain := List.count_pos_iff.2 hf
          rw [List.count_cons_self] at htwice
          omega
      · exact fun f => Nat.le_trans List.count_le_count_cons (honce f)

end Entry

end Reading

/-- The entries of an object spell a configuration if what they leave out is standard. -/
theorem ofTokens_entries {c : Config} {entries : List Entry} (h : ∀ e ∈ entries, e.Spelled)
    (honce : ∀ f, entries.count (.field f) ≤ 1)
    (hleft : ∀ f : Field, .field f ∉ entries → f.value c = f.value standard) :
    ofTokens (.openObject ::
      ([.comma].intercalate (entries.map (Entry.tokens c)) ++ [.closeObject])) = .ok c := by
  have hreads : Reading.Reads .start (.openObject ::
      ([.comma].intercalate (entries.map (Entry.tokens c)) ++ [.closeObject]))
      (.done (fillAll c entries standard)) := by
    refine .cons rfl ?_
    cases entries with
    | nil => exact .single rfl
    | cons e entries =>
      have hentries : Reading.Reads (.key [] standard) _ (.done (fillAll c _ _)) :=
        Reading.reads_entries h (List.cons_ne_nil _ _) (fun _ _ => List.not_mem_nil) honce
      -- The first key is taken as any other one.
      rw [List.map_cons, Entry.tokens, Token.member, List.intercalate_cons_cons_left,
        List.cons_append] at hentries ⊢
      exact hentries.of_step_eq rfl
  rw [fillAll_eq hleft] at hreads
  rw [ofTokens, show _ = Except.ok _ from hreads]
  rfl

/-- A configuration that was read from a text is valid. -/
theorem valid_of_ofText {c : Config} {text : String} (h : ofText text = .ok c) : c.Valid := by
  unfold ofText at h
  split at h
  · cases h
  · split at h
    · cases h
    · cases h
      assumption

/-- A configuration is read back from its texts. Take an object that holds the value of every field
of a configuration that differs from the standard one, no field twice, in any order, and between
them any unknown keys with any values. Every text with the tokens of this object is read as the
configuration if that has no problem, and refused for the first problem otherwise. The text that a
configuration is written to is of this kind. And whatever text a configuration was read from, the
configuration is valid, and it is read back from the text that it is written to. -/
theorem text_round_trip (c : Config) :
    (∀ (entries : List Entry) (text : String),
      (∀ e ∈ entries, e.Spelled) →
      (∀ f, entries.count (.field f) ≤ 1) →
      (∀ f : Field, .field f ∉ entries → f.value c = f.value standard) →
      Token.ofChars text.toList =
        Token.ofChars (Json.objectText (entries.map (Entry.member c))).toList →
      (c.Valid → ofText text = .ok c) ∧
        ∀ p, c.problem? = some p → ofText text = .error (.invalid p)) ∧
    Json.render (Json.encode c) =
      Json.objectText ((Field.all.map Entry.field).map (Entry.member c)) ∧
    ∀ text, ofText text = .ok c → c.Valid ∧ ofText (Json.render (Json.encode c)) = .ok c := by
  have hread (entries : List Entry) (text : String) (h : ∀ e ∈ entries, e.Spelled)
      (honce : ∀ f, entries.count (.field f) ≤ 1)
      (hleft : ∀ f : Field, .field f ∉ entries → f.value c = f.value standard)
      (htokens : Token.ofChars text.toList =
        Token.ofChars (Json.objectText (entries.map (Entry.member c))).toList) :
      (c.Valid → ofText text = .ok c) ∧
        ∀ p, c.problem? = some p → ofText text = .error (.invalid p) := by
    -- The reader fills in the whole configuration before it is checked.
    have hok : ofTokens (Token.ofChars text.toList) = .ok c := by
      rw [htokens, ofChars_entries h, ofTokens_entries h honce hleft]
    constructor
    · intro hvalid
      simp only [ofText, hok, show c.problem? = none from hvalid]
    · intro p hp
      simp only [ofText, hok, hp]
  -- The text that the configuration is written to holds all fields, in their order.
  have hown : Json.render (Json.encode c) =
      Json.objectText ((Field.all.map Entry.field).map (Entry.member c)) := by
    rw [Field.encode_eq, Json.render_object]
    rfl
  refine ⟨hread, hown, fun text htext => ⟨valid_of_ofText htext, ?_⟩⟩
  have hall (f : Field) : .field f ∈ Field.all.map Entry.field :=
    List.mem_map_of_mem (Field.mem_all f)
  refine (hread (Field.all.map Entry.field) _ ?_ ?_ (fun f hf => absurd (hall f) hf)
    (by rw [hown])).1 (valid_of_ofText htext)
  · intro e he
    obtain ⟨f, -, rfl⟩ := List.mem_map.1 he
    trivial
  · intro f
    cases f <;> decide

/-- A configuration with two unusual fields. -/
def fadingGin : Config := { forModel .gin with decayWindowTicks := 5 }

/-- Its two fields, after an unknown key. -/
def ginEntries : List Entry :=
  [.other "note" "[1, \x7b\"a\": null\x7d]", .field .decayWindowTicks, .field .model]

/-- The entries as a text, with white space between the tokens. -/
def ginText : String :=
  "\x7b \"note\": [1, \x7b\"a\": null\x7d], \"decay_window_ticks\": 5, \"model\": \"gin\" \x7d"

/-- The value of the unknown key is a list that holds an object. -/
theorem ginEntries_spelled : ∀ e ∈ ginEntries, e.Spelled := by
  have htokens : Token.ofChars "[1, \x7b\"a\": null\x7d]".toList =
      .openList :: ([.comma].intercalate [[.number (.ofNat 1)],
        .openObject :: ([.comma].intercalate [Token.member (some "a") [.null]] ++
          [.closeObject])] ++ [.closeList]) := by
    decide +kernel
  have hnote : IsValue (Token.ofChars "[1, \x7b\"a\": null\x7d]".toList) := by
    rw [htokens]
    refine .list _ fun item hitem => ?_
    rcases List.mem_cons.1 hitem with rfl | hitem
    · exact .number _
    · rw [List.mem_singleton.1 hitem]
      refine .object [(some "a", [.null])] fun m hm => ?_
      rw [List.mem_singleton.1 hm]
      exact .null
  simp only [ginEntries, List.forall_mem_cons]
  exact ⟨⟨by decide, hnote⟩, trivial, trivial, List.forall_mem_nil _⟩

/-- The configuration is read back from its two fields, in the other order and after an unknown
key. -/
theorem gin_read_back :
    (∀ e ∈ ginEntries, e.Spelled) ∧
    (∀ f, ginEntries.count (.field f) ≤ 1) ∧
    (∀ f : Field, .field f ∉ ginEntries → f.value fadingGin = f.value standard) ∧
    Token.ofChars ginText.toList =
      Token.ofChars (Json.objectText (ginEntries.map (Entry.member fadingGin))).toList ∧
    ofText ginText = .ok fadingGin ∧
    ofText (Json.render (Json.encode fadingGin)) = .ok fadingGin := by
  have honce : ∀ f, ginEntries.count (.field f) ≤ 1 := by
    intro f
    cases f <;> decide
  have hleft : ∀ f : Field, .field f ∉ ginEntries → f.value fadingGin = f.value standard := by
    intro f hf
    cases f with
    | model | decayWindowTicks => exact absurd (by decide) hf
    | _ => rfl
  have htokens : Token.ofChars ginText.toList =
      Token.ofChars (Json.objectText (ginEntries.map (Entry.member fadingGin))).toList := by
    rw [ofChars_entries ginEntries_spelled]
    simp only [ginEntries, List.map_cons, List.map_nil, Entry.tokens_field]
    decide +kernel
  obtain ⟨hread, -, hagain⟩ := text_round_trip fadingGin
  have hgin : ofText ginText = .ok fadingGin :=
    (hread ginEntries ginText ginEntries_spelled honce hleft htokens).1 (by decide)
  exact ⟨ginEntries_spelled, honce, hleft, htokens, hgin, (hagain ginText hgin).2⟩

end CardComputer.Config
