import CardComputer.Config.Text
import CardComputer.Proofs.Json.Grammar

/-!
# Values that are passed over

A reader of configurations passes over the value of a key that it does not know. Whatever value
follows the key, and however deeply it is nested, the reader is through with it exactly when the
value ends (`Reading.reads_other`).
-/

namespace CardComputer.Config.Reading

open Json (Token)
open Json.Token (IsValue member)

/-! ## Reading tokens -/

/-- The reader takes all of the tokens and ends in a state. -/
def Reads (r : Reading) (tokens : List Token) (r' : Reading) : Prop :=
  tokens.foldlM step r = .ok r'

section Reads

variable {r r' r'' : Reading} {t : Token} {tokens tokens' : List Token}

theorem Reads.nil (r : Reading) : Reads r [] r := rfl

theorem Reads.cons (h : step r t = .ok r') (h' : Reads r' tokens r'') :
    Reads r (t :: tokens) r'' := by
  rw [Reads, List.foldlM_cons, h]
  exact h'

theorem Reads.single (h : step r t = .ok r') : Reads r [t] r' := .cons h (.nil r')

theorem Reads.append (h : Reads r tokens r') (h' : Reads r' tokens' r'') :
    Reads r (tokens ++ tokens') r'' := by
  rw [Reads, List.foldlM_append, show tokens.foldlM step r = .ok r' from h]
  exact h'

/-- Two states that take the first token alike read alike. -/
theorem Reads.of_step_eq (h : Reads r (t :: tokens) r'') (heq : step r' t = step r t) :
    Reads r' (t :: tokens) r'' := by
  rw [Reads, List.foldlM_cons] at h ⊢
  rwa [heq]

end Reads

/-! ## Passing over -/

section Passing

variable {seen : List Field} {c : Config}

/-- The state in which a value that is passed over is left: the value ends with the token that
completes it. -/
def passed (seen : List Field) (c : Config) (inner : Json.Reading) : Reading :=
  if inner.value?.isSome then .after (.member seen) c else .passing seen c inner

/-- The reader passes over a value wherever it stands. -/
def Passes (seen : List Field) (c : Config) (tokens : List Token) : Prop :=
  ∀ frames, ∃ v, Reads (.passing seen c (.value frames)) tokens (passed seen c (.after frames v))

/-- Items of a list, up to its end. -/
theorem reads_items {items : List (List Token)} (h : ∀ item ∈ items, Passes seen c item)
    (hne : items ≠ []) (frames : List Json.Frame) (before : List Json) :
    ∃ v, Reads (.passing seen c (.value (.list before :: frames)))
      ([.comma].intercalate items ++ [.closeList]) (passed seen c (.after frames v)) := by
  induction items generalizing before with
  | nil => exact absurd rfl hne
  | cons item items ih =>
    obtain ⟨v, hitem⟩ := h item List.mem_cons_self (.list before :: frames)
    cases items with
    | nil =>
      rw [List.intercalate_singleton]
      exact ⟨_, hitem.append (.single rfl)⟩
    | cons item' items =>
      have hrest := ih (fun item hi => h item (List.mem_cons_of_mem _ hi)) (List.cons_ne_nil _ _)
      obtain ⟨v', hrest⟩ := hrest (v :: before)
      rw [List.intercalate_cons_cons, List.append_assoc, List.append_assoc]
      exact ⟨v', hitem.append (.cons rfl hrest)⟩

/-- A key and its value. -/
theorem reads_member {value : List Token} (h : Passes seen c value) (frames : List Json.Frame)
    (before : List (String × Json)) (key : Option String) : ∃ k v,
      Reads (.passing seen c (.key frames before)) (member key value)
        (.passing seen c (.after (.object before k :: frames) v)) := by
  cases key with
  | none =>
    obtain ⟨v, hvalue⟩ := h (.object before "" :: frames)
    exact ⟨_, v, .cons rfl (.cons rfl hvalue)⟩
  | some key =>
    obtain ⟨v, hvalue⟩ := h (.object before key :: frames)
    exact ⟨_, v, .cons rfl (.cons rfl hvalue)⟩

/-- Members of an object, up to its end. -/
theorem reads_members {members : List (Option String × List Token)}
    (h : ∀ m ∈ members, Passes seen c m.2) (hne : members ≠ []) (frames : List Json.Frame)
    (before : List (String × Json)) : ∃ v, Reads (.passing seen c (.key frames before))
      ([.comma].intercalate (members.map fun m => member m.1 m.2) ++ [.closeObject])
      (passed seen c (.after frames v)) := by
  induction members generalizing before with
  | nil => exact absurd rfl hne
  | cons m members ih =>
    obtain ⟨k, v, hmember⟩ := reads_member (h m List.mem_cons_self) frames before m.1
    cases members with
    | nil =>
      rw [List.map_singleton, List.intercalate_singleton]
      exact ⟨_, hmember.append (.single rfl)⟩
    | cons m' members =>
      have hrest := ih (fun m hm => h m (List.mem_cons_of_mem _ hm)) (List.cons_ne_nil _ _)
      obtain ⟨v', hrest⟩ := hrest (Json.setMember k v before)
      rw [List.map_cons, List.map_cons, List.intercalate_cons_cons, List.append_assoc,
        List.append_assoc]
      exact ⟨v', hmember.append (.cons rfl hrest)⟩

/-- Every value is passed over. -/
theorem passes_of_isValue {tokens : List Token} (h : IsValue tokens) : Passes seen c tokens := by
  induction h with
  | null | bool | number => exact fun frames => ⟨_, .single rfl⟩
  | text s =>
    cases s with
    | none => exact fun frames => ⟨_, .single rfl⟩
    | some s => exact fun frames => ⟨_, .single rfl⟩
  | list items values ih =>
    intro frames
    cases items with
    | nil => exact ⟨_, .cons rfl (.single rfl)⟩
    | cons item items =>
      obtain ⟨v, hitems⟩ := reads_items ih (List.cons_ne_nil _ _) frames []
      obtain ⟨t, rest, hitem, ht⟩ := (values item List.mem_cons_self).exists_cons
      refine ⟨v, .cons rfl ?_⟩
      -- The first item is no end of the list.
      subst hitem
      rw [List.intercalate_cons_cons_left, List.cons_append] at hitems ⊢
      refine hitems.of_step_eq ?_
      cases t with
      | closeList => exact absurd rfl ht
      | _ => rfl
  | object members values ih =>
    intro frames
    cases members with
    | nil => exact ⟨_, .cons rfl (.single rfl)⟩
    | cons m members =>
      obtain ⟨v, hmembers⟩ := reads_members ih (List.cons_ne_nil _ _) frames []
      refine ⟨v, .cons rfl ?_⟩
      -- The first key is taken as one after a comma.
      rw [List.map_cons, member, List.intercalate_cons_cons_left, List.cons_append] at hmembers ⊢
      exact hmembers.of_step_eq rfl

/-- A member with an unknown key changes nothing. -/
theorem reads_other {key : String} (hkey : Field.ofKey? key = none) {value : List Token}
    (h : IsValue value) :
    Reads (.key seen c) (member (some key) value) (.after (.member seen) c) := by
  have htake : step (.key seen c) (.text (some key)) = .ok (.colon seen c none) := by
    simp only [step, takeKey, hkey]
  have hpasses : Passes seen c value := passes_of_isValue h
  obtain ⟨v, hvalue⟩ := hpasses []
  exact .cons htake (.cons rfl hvalue)

end Passing

end CardComputer.Config.Reading
