import Mathlib.Logic.Function.Basic
import MessageCatalog.Proofs.ReaderSteps

/-!
# What start tags say

The keys of a tag that can be read are distinct, so an attribute is simply
looked up, whatever the order in which attributes are written. The places that
start tags lead to are told by the attributes looked up in this way.
-/

namespace MessageCatalog

namespace Tag

/-- The attributes that are read are behind those read before, with keys that
are new and distinct. -/
theorem readAttributes_keys {position : Nat} {seen : List (List Char × Nat)}
    {before : Array (String × String)} {text : List Char} {list : List (String × String)}
    (h : readAttributes position seen before text = .ok list) :
    ∃ new, list = before.toList ++ new ∧ (new.map Prod.fst).Nodup ∧
      ∀ entry ∈ seen, String.ofList entry.1 ∉ new.map Prod.fst := by
  fun_induction readAttributes position seen before text with
  | case1 => simp at h
  | case2 => exact ⟨[], by simpa using h.symm, List.nodup_nil, by simp⟩
  | case3 => simp at h
  | case4 => simp at h
  | case5 => simp at h
  | case6 position seen before text key read unseen value taken plain resolved ih =>
    obtain ⟨new, hl, hd, hs⟩ := ih h
    have fresh := hs (key.key, key.position) List.mem_cons_self
    refine ⟨(String.ofList key.key, plain) :: new, by simpa using hl, ?_, ?_⟩
    · rw [List.map_cons, List.nodup_cons]
      exact ⟨fresh, hd⟩
    · intro entry member
      have later := hs entry (List.mem_cons_of_mem _ member)
      have differs : String.ofList entry.1 ≠ String.ofList key.key := by
        intro same
        have := List.find?_eq_none.mp unseen entry member
        simp [String.ofList_inj.mp same] at this
      rw [List.map_cons, List.mem_cons, not_or]
      exact ⟨differs, later⟩

/-- No key stands twice in a tag that can be read. -/
theorem attributeList_nodup {tag : Tag} {list : List (String × String)}
    (h : tag.attributeList = .ok list) : (list.map Prod.fst).Nodup := by
  obtain ⟨new, hl, hd, _⟩ := readAttributes_keys h
  rw [hl]
  simpa using hd

end Tag

namespace Reader

/-- What is looked up in some attributes, after others that were read before. -/
def lookupAfter (before : String → Option String) (attributes : List (String × String))
    (key : String) : Option String :=
  (attributes.lookup key).or (before key)

/-- Reading an attribute does not change what another key stands for. -/
theorem update_other {before : String → Option String} {key other : String}
    {value : Option String} (differs : ¬key = other) :
    Function.update before key value other = before other :=
  Function.update_of_ne (Ne.symm differs) value before

/-- An attribute is read before those behind it. -/
theorem lookupAfter_cons {before : String → Option String} {key value : String}
    {rest : List (String × String)} (absent : key ∉ rest.map Prod.fst) :
    lookupAfter (Function.update before key (some value)) rest =
      lookupAfter before ((key, value) :: rest) := by
  funext k
  unfold lookupAfter
  by_cases hk : k = key
  · subst hk
    have none : rest.lookup k = none := by
      rw [List.lookup_eq_none_iff]
      intro entry member
      have differs : k ≠ entry.1 := fun same => absent (same ▸ List.mem_map_of_mem member)
      simpa using differs
    rw [none, List.lookup_cons_self, Function.update_self]
    rfl
  · have skip : (k == key) = false := by simpa using hk
    rw [Function.update_of_ne hk, List.lookup_cons, skip]

/-- Where keys are distinct and each attribute has its own effect, what holds of
the state in the end is told by looking the attributes up. -/
theorem holds_of_foldlM {σ : Type} {step : σ → String × String → Step σ}
    (Holds : (String → Option String) → σ → Prop)
    (tell : ∀ before state key value next, before key = none → Holds before state →
      (step state (key, value)).outcome = .ok next →
      Holds (Function.update before key (some value)) next)
    {attributes : List (String × String)} (distinct : (attributes.map Prod.fst).Nodup)
    {before : String → Option String} (fresh : ∀ key ∈ attributes.map Prod.fst, before key = none)
    {state final : σ} (start : Holds before state)
    (h : (attributes.foldlM step state).outcome = .ok final) :
    Holds (lookupAfter before attributes) final := by
  induction attributes generalizing before state with
  | nil =>
    rw [List.foldlM_nil, Step.pure_outcome, Except.ok.injEq] at h
    rw [← h]
    exact start
  | cons entry rest ih =>
    obtain ⟨key, value⟩ := entry
    rw [List.map_cons, List.nodup_cons] at distinct
    rw [List.foldlM_cons, Step.bind_outcome_eq_ok] at h
    obtain ⟨next, taken, h⟩ := h
    have now := tell before state key value next (fresh key List.mem_cons_self) start taken
    rw [← lookupAfter_cons distinct.1]
    refine ih distinct.2 ?_ now h
    intro k member
    have differs : k ≠ key := fun same => distinct.1 (same ▸ member)
    rw [Function.update_of_ne differs]
    exact fresh k (List.mem_cons_of_mem _ member)

/-- What holds of a state that is filled from the attributes of a tag. -/
theorem holds_of_attributes {σ : Type} {step : σ → String × String → Step σ}
    (Holds : (String → Option String) → σ → Prop)
    (tell : ∀ before state key value next, before key = none → Holds before state →
      (step state (key, value)).outcome = .ok next →
      Holds (Function.update before key (some value)) next)
    {tag : Tag} {initial : σ} (start : Holds (fun _ => none) initial) {next : σ → Step Place}
    {place : Place}
    (h : (Step.attributes tag >>= fun attributes =>
      attributes.foldlM step initial >>= next).outcome = .ok place) :
    ∃ attributes final, tag.attributeList = .ok attributes ∧
      Holds (attributes.lookup ·) final ∧ (next final).outcome = .ok place := by
  simp only [Step.bind_outcome_eq_ok, Step.attributes_outcome_eq_ok] at h
  obtain ⟨attributes, read, final, folded, h⟩ := h
  have held := holds_of_foldlM Holds tell (Tag.attributeList_nodup read) (fun _ _ => rfl)
    start folded
  have same : lookupAfter (fun _ => none) attributes = (attributes.lookup ·) := by
    funext key
    exact Option.or_none
  rw [same] at held
  exact ⟨attributes, final, read, held, h⟩

/-- The root element holds what its attributes say, and no contexts yet. -/
theorem OpenCatalog.start_eq_ok {tag : Tag} {place : Place}
    (h : (OpenCatalog.start tag).outcome = .ok place) :
    ∃ attributes, tag.attributeList = .ok attributes ∧
      place = .root ⟨(attributes.lookup "version").getD defaultVersion,
        attributes.lookup "language", attributes.lookup "sourcelanguage", #[]⟩ := by
  let Holds (lookup : String → Option String) (catalog : OpenCatalog) : Prop :=
    catalog = ⟨(lookup "version").getD defaultVersion, lookup "language",
      lookup "sourcelanguage", #[]⟩
  obtain ⟨attributes, catalog, read, held, h⟩ := holds_of_attributes Holds (by
    rintro before _ key value next fresh rfl taken
    unfold takeAttribute at taken
    dsimp only at taken
    split at taken <;> simp_all [Holds, update_other]) rfl h
  rw [Step.pure_outcome, Except.ok.injEq, held] at h
  exact ⟨attributes, read, h.symm⟩

/-- A message holds what its attributes say, and nothing of its content yet. -/
theorem OpenMessage.start_eq_ok {outer : OpenContext} {tag : Tag} {place : Place}
    (h : (OpenMessage.start outer tag).outcome = .ok place) :
    ∃ attributes, tag.attributeList = .ok attributes ∧
      place = .message ⟨outer, attributes.lookup "numerus" == some "yes",
        attributes.lookup "utf8", #[], none, none, none, none, none⟩ := by
  let Holds (lookup : String → Option String) (message : OpenMessage) : Prop :=
    message = ⟨outer, lookup "numerus" == some "yes", lookup "utf8", #[], none, none, none,
      none, none⟩
  obtain ⟨attributes, message, read, held, h⟩ := holds_of_attributes Holds (by
    rintro before _ key value next fresh rfl taken
    unfold takeAttribute at taken
    dsimp only at taken
    split at taken <;> simp_all [Holds, update_other]) rfl h
  rw [Step.pure_outcome, Except.ok.injEq, held] at h
  exact ⟨attributes, read, h.symm⟩

/-- A location is what its attributes say. A line that is no number is none. -/
theorem startLocation_eq_ok {outer : OpenMessage} {tag : Tag} {place : Place}
    (h : (startLocation outer tag).outcome = .ok place) :
    ∃ attributes, tag.attributeList = .ok attributes ∧
      place = .location ⟨attributes.lookup "filename",
        (attributes.lookup "line").bind LineNumber.parse?⟩ outer := by
  let Holds (lookup : String → Option String) (location : Location) : Prop :=
    location = ⟨lookup "filename", (lookup "line").bind LineNumber.parse?⟩
  obtain ⟨attributes, location, read, held, h⟩ := holds_of_attributes Holds (by
    rintro before _ key value next fresh rfl taken
    unfold takeLocationAttribute at taken
    dsimp only at taken
    split at taken
    · simp_all [Holds]
    · split at taken <;> simp_all [Holds]
    · simp_all [Holds, update_other]) rfl h
  rw [Step.pure_outcome, Except.ok.injEq, held] at h
  exact ⟨attributes, read, h.symm⟩

/-- A translation has the status that its type stands for, and its message tells
whether it has forms. -/
theorem startTranslation_eq_ok {outer : OpenMessage} {tag : Tag} {place : Place}
    (h : (startTranslation outer tag).outcome = .ok place) :
    ∃ attributes status, tag.attributeList = .ok attributes ∧
      Status.ofMark? (attributes.lookup "type") = some status ∧
      place = if outer.plural then .forms ⟨outer, status, #[]⟩
        else .text (.part (.translation status) outer) "" := by
  let Holds (lookup : String → Option String) (status : Status) : Prop :=
    Status.ofMark? (lookup "type") = some status
  obtain ⟨attributes, status, read, held, h⟩ := holds_of_attributes Holds (by
    intro before state key value next fresh held taken
    unfold takeStatusAttribute at taken
    dsimp only at taken
    split at taken
    · split at taken <;> simp_all [Holds]
    · simp_all [Holds, update_other]) rfl h
  refine ⟨attributes, status, read, held, ?_⟩
  split at h <;> simp_all

/-- The first attribute of a key is the one that is looked up. -/
theorem find?_key_eq_lookup (key : String) (attributes : List (String × String)) :
    (attributes.find? (·.1 == key)).map Prod.snd = attributes.lookup key := by
  induction attributes with
  | nil => rfl
  | cons entry rest ih =>
    obtain ⟨k, v⟩ := entry
    rw [List.lookup_cons, List.find?_cons]
    by_cases hk : k = key
    · simp [hk]
    · have own : (k == key) = false := by simpa using hk
      have other : (key == k) = false := by simpa using Ne.symm hk
      rw [own, other]
      exact ih

/-- An element for a control character holds its value. -/
theorem startByte_eq_ok {host : TextHost} {content : String} {tag : Tag} {place : Place}
    (h : (startByte host content tag).outcome = .ok place) :
    ∃ attributes, tag.attributeList = .ok attributes ∧
      place = .byte (attributes.lookup "value") host content := by
  unfold startByte at h
  simp only [Step.bind_outcome_eq_ok, Step.attributes_outcome_eq_ok, Step.pure_outcome,
    Except.ok.injEq] at h
  obtain ⟨attributes, read, rfl⟩ := h
  exact ⟨attributes, read, by rw [find?_key_eq_lookup]⟩

end Reader

end MessageCatalog
