import MessageCatalog.Proofs.ElementRoles

/-!
# What spoils an element

The attributes of an element are read in full if its role has a use for them,
and the entities of a text are resolved if the text counts. These are the only
places where an element can be fatal. Elsewhere the reader takes whatever it meets.
-/

namespace MessageCatalog

namespace Node

/-- An element with a role spoils the catalog around it. -/
inductive Spoils : Role → Tag → List Node → Prop
  /-- Its attributes count and cannot be read: there is a malformed or a repeated
  one, or an entity in a value that cannot be resolved. -/
  | attributes {role : Role} {tag : Tag} {children : List Node} {fault : Tag.Fault}
    (counts : role.readsAttributes = true) (unreadable : tag.attributeList = .error fault) :
    Spoils role tag children
  /-- It is a translation with an unknown type. -/
  | status {plural : Bool} {tag : Tag} {children : List Node}
    {attributes : List (String × String)} {mark : String}
    (read : tag.attributeList = .ok attributes) (typed : attributes.lookup "type" = some mark)
    (unknown : mark ∉ ["unfinished", "obsolete", "vanished"]) :
    Spoils (.translation plural) tag children
  /-- It holds a text with an entity that cannot be resolved. -/
  | entity {role : Role} {tag : Tag} {children : List Node} {run : List Char} {fault : EntityFault}
    (counts : role.isText = true) (part : text run ∈ children)
    (unresolved : Entity.unescape run = .error fault) : Spoils role tag children

/-- Where more parts stand, more elements stand inside. -/
theorem Holds.mono {role inner : Role} {nodes more children : List Node} {tag : Tag}
    (h : Holds role nodes inner tag children) (le : nodes ⊆ more) :
    Holds role more inner tag children := by
  cases h with
  | here part => exact .here (le part)
  | deeper part holds => exact .deeper (le part) holds

end Node

/-- A start tag is admitted in a role: its attributes can be read if they count,
and the type of a translation is known. -/
def Role.Admits (role : Role) (tag : Tag) : Prop :=
  (role.readsAttributes = true → ∃ attributes, tag.attributeList = .ok attributes) ∧
    ∀ plural attributes, role = .translation plural → tag.attributeList = .ok attributes →
      ∃ status, Status.ofMark? (attributes.lookup "type") = some status

namespace Role

/-- In most roles the attributes alone decide. -/
theorem admits_iff_readable {role : Role} {tag : Tag} (counts : role.readsAttributes = true)
    (other : ∀ plural, role ≠ .translation plural) :
    role.Admits tag ↔ ∃ attributes, tag.attributeList = .ok attributes :=
  ⟨fun h => h.1 counts, fun h => ⟨fun _ => h, fun plural _ same => absurd same (other plural)⟩⟩

/-- A translation needs a known type too. -/
theorem admits_translation_iff {plural : Bool} {tag : Tag} :
    (translation plural).Admits tag ↔
      ∃ attributes, tag.attributeList = .ok attributes ∧
        ∃ status, Status.ofMark? (attributes.lookup "type") = some status := by
  constructor
  · rintro ⟨readable, known⟩
    obtain ⟨attributes, read⟩ := readable rfl
    exact ⟨attributes, read, known plural attributes rfl read⟩
  · rintro ⟨attributes, read, known⟩
    refine ⟨fun _ => ⟨attributes, read⟩, fun _ other _ again => ?_⟩
    rw [read] at again
    injection again with same
    exact same ▸ known

/-- Where attributes do not count, every tag is admitted. -/
theorem admits_of_not_reads {role : Role} {tag : Tag} (h : role.readsAttributes = false) :
    role.Admits tag := by
  refine ⟨fun counts => absurd counts (by simp [h]), ?_⟩
  rintro plural _ rfl
  exact absurd h (by simp [readsAttributes])

end Role

/-- The types that a translation may have. -/
theorem Status.ofMark?_eq_some_iff {mark : String} :
    (∃ status, ofMark? (some mark) = some status) ↔
      mark ∈ ["unfinished", "obsolete", "vanished"] := by
  simp only [ofMark?, List.mem_cons, List.not_mem_nil, or_false]
  split <;> simp_all

namespace Node

/-- An element that spoils nothing is admitted. -/
theorem admits_of_not_spoils {role : Role} {tag : Tag} {children : List Node}
    (h : ¬Spoils role tag children) : role.Admits tag := by
  constructor
  · intro counts
    cases read : tag.attributeList with
    | ok attributes => exact ⟨attributes, rfl⟩
    | error fault => exact absurd (.attributes counts read) h
  · rintro plural attributes rfl read
    cases typed : attributes.lookup "type" with
    | none => exact ⟨.finished, rfl⟩
    | some mark =>
      refine Status.ofMark?_eq_some_iff.mpr ?_
      by_contra unknown
      exact h (.status read typed unknown)

/-- An element spoils nothing if its tag is admitted and its text can be had. -/
theorem not_spoils_of_admits {role : Role} {tag : Tag} {children : List Node}
    (admitted : role.Admits tag)
    (resolved : role.isText = true → ∀ run, text run ∈ children →
      ∃ plain, Entity.unescape run = .ok plain) : ¬Spoils role tag children := by
  rintro (⟨counts, unreadable⟩ | ⟨read, typed, unknown⟩ | ⟨counts, part, unresolved⟩)
  · obtain ⟨attributes, read⟩ := admitted.1 counts
    rw [unreadable] at read
    exact absurd read (by simp)
  · have known := admitted.2 _ _ rfl read
    rw [typed] at known
    exact unknown (Status.ofMark?_eq_some_iff.mp known)
  · obtain ⟨plain, same⟩ := resolved counts _ part
    rw [unresolved] at same
    exact absurd same (by simp)

end Node

namespace Reader

/-! ## Start tags -/

/-- Where keys are distinct, every attribute is the one that is looked up. -/
theorem lookup_of_mem {attributes : List (String × String)}
    (distinct : (attributes.map Prod.fst).Nodup) {key value : String}
    (member : (key, value) ∈ attributes) : attributes.lookup key = some value := by
  rw [List.lookup_eq_some_iff]
  obtain ⟨before, behind, rfl⟩ := List.append_of_mem member
  refine ⟨before, behind, rfl, fun entry earlier => ?_⟩
  rw [List.map_append, List.map_cons, List.nodup_append] at distinct
  have differs := distinct.2.2 entry.1 (List.mem_map_of_mem earlier) key List.mem_cons_self
  simpa using Ne.symm differs

/-- Attributes that can each be taken can be taken one behind the other. -/
theorem foldlM_outcome_ok {σ : Type} {step : σ → String × String → Step σ}
    {attributes : List (String × String)}
    (each : ∀ state, ∀ entry ∈ attributes, ∃ next, (step state entry).outcome = .ok next)
    (state : σ) : ∃ final, (attributes.foldlM step state).outcome = .ok final := by
  induction attributes generalizing state with
  | nil => exact ⟨state, rfl⟩
  | cons entry rest ih =>
    obtain ⟨next, taken⟩ := each state entry List.mem_cons_self
    obtain ⟨final, folded⟩ := ih (fun state entry member =>
      each state entry (List.mem_cons_of_mem _ member)) next
    refine ⟨final, ?_⟩
    rw [List.foldlM_cons, Step.bind_outcome_eq_ok]
    exact ⟨next, taken, folded⟩

/-- A start tag whose attributes can each be taken leads somewhere. -/
theorem start_outcome_ok {σ : Type} {step : σ → String × String → Step σ} {tag : Tag}
    {attributes : List (String × String)} (read : tag.attributeList = .ok attributes)
    (each : ∀ state, ∀ entry ∈ attributes, ∃ next, (step state entry).outcome = .ok next)
    (initial : σ) {place : σ → Step Place} (leads : ∀ state, ∃ next, (place state).outcome = .ok next) :
    ∃ next, (Step.attributes tag >>= fun attributes =>
      attributes.foldlM step initial >>= place).outcome = .ok next := by
  obtain ⟨final, folded⟩ := foldlM_outcome_ok each initial
  obtain ⟨next, led⟩ := leads final
  simp only [Step.bind_outcome_eq_ok, Step.attributes_outcome_eq_ok]
  exact ⟨next, attributes, read, final, folded, led⟩

/-- The root element starts wherever its attributes can be read. -/
theorem OpenCatalog.start_ok_iff {tag : Tag} :
    (∃ place, (OpenCatalog.start tag).outcome = .ok place) ↔ Role.root.Admits tag := by
  rw [Role.admits_iff_readable rfl (by simp)]
  constructor
  · rintro ⟨place, h⟩
    obtain ⟨attributes, read, _⟩ := OpenCatalog.start_eq_ok h
    exact ⟨attributes, read⟩
  · rintro ⟨attributes, read⟩
    refine start_outcome_ok read (fun state entry _ => ?_) _ (fun state => ⟨_, rfl⟩)
    unfold takeAttribute
    split <;> exact ⟨_, rfl⟩

/-- A message starts wherever its attributes can be read. -/
theorem OpenMessage.start_ok_iff {outer : OpenContext} {tag : Tag} (plural : Bool) :
    (∃ place, (OpenMessage.start outer tag).outcome = .ok place) ↔
      (Role.message plural).Admits tag := by
  rw [Role.admits_iff_readable rfl (by simp)]
  constructor
  · rintro ⟨place, h⟩
    obtain ⟨attributes, read, _⟩ := OpenMessage.start_eq_ok h
    exact ⟨attributes, read⟩
  · rintro ⟨attributes, read⟩
    refine start_outcome_ok read (fun state entry _ => ?_) _ (fun state => ⟨_, rfl⟩)
    unfold takeAttribute
    split <;> exact ⟨_, rfl⟩

/-- A location starts wherever its attributes can be read. -/
theorem startLocation_ok_iff {outer : OpenMessage} {tag : Tag} :
    (∃ place, (startLocation outer tag).outcome = .ok place) ↔ Role.location.Admits tag := by
  rw [Role.admits_iff_readable rfl (by simp)]
  constructor
  · rintro ⟨place, h⟩
    obtain ⟨attributes, read, _⟩ := startLocation_eq_ok h
    exact ⟨attributes, read⟩
  · rintro ⟨attributes, read⟩
    refine start_outcome_ok read (fun state entry _ => ?_) _ (fun state => ⟨_, rfl⟩)
    unfold takeLocationAttribute
    split
    · exact ⟨_, rfl⟩
    · split <;> exact ⟨_, rfl⟩
    · exact ⟨_, rfl⟩

/-- A translation starts wherever its attributes can be read and its type is known. -/
theorem startTranslation_ok_iff {outer : OpenMessage} {tag : Tag} :
    (∃ place, (startTranslation outer tag).outcome = .ok place) ↔
      (Role.translation outer.plural).Admits tag := by
  rw [Role.admits_translation_iff]
  constructor
  · rintro ⟨place, h⟩
    obtain ⟨attributes, status, read, known, _⟩ := startTranslation_eq_ok h
    exact ⟨attributes, read, status, known⟩
  · rintro ⟨attributes, read, status, known⟩
    refine start_outcome_ok read (fun state entry member => ?_) _ (fun state => ?_)
    · obtain ⟨key, value⟩ := entry
      unfold takeStatusAttribute
      split
      next type =>
        have typed := lookup_of_mem (Tag.attributeList_nodup read) member
        rw [show key = "type" from type] at typed
        rw [typed] at known
        simp only [known]
        exact ⟨_, rfl⟩
      next => exact ⟨_, rfl⟩
    · cases outer.plural <;> exact ⟨_, rfl⟩

/-- The element for a control character starts wherever its attributes can be read. -/
theorem startByte_ok_iff {host : TextHost} {content : String} {tag : Tag} :
    (∃ place, (startByte host content tag).outcome = .ok place) ↔ Role.byte.Admits tag := by
  rw [Role.admits_iff_readable rfl (by simp)]
  constructor
  · rintro ⟨place, h⟩
    obtain ⟨attributes, read, _⟩ := startByte_eq_ok h
    exact ⟨attributes, read⟩
  · rintro ⟨attributes, read⟩
    unfold startByte
    simp only [Step.bind_outcome_eq_ok, Step.attributes_outcome_eq_ok]
    exact ⟨_, attributes, read, rfl⟩

namespace Place

/-- A start tag can be taken wherever it is admitted in the role of its element. -/
theorem enter_ok_iff {place : Place} {top : Role} (head : place.roles.head? = some top) {tag : Tag} :
    (∃ inner, (place.enter tag).outcome = .ok inner) ↔ (top.inside tag).Admits tag := by
  have free {found : Place} {role : Role} (counts : role.readsAttributes = false) :
      (∃ inner, (pure found : Step Place).outcome = .ok inner) ↔ role.Admits tag :=
    iff_of_true ⟨found, rfl⟩ (Role.admits_of_not_reads counts)
  have passed (place : Place) :
      (∃ inner, (place.skipUnexpected tag).outcome = .ok inner) ↔ Role.passed.Admits tag :=
    iff_of_true ⟨_, rfl⟩ (Role.admits_of_not_reads rfl)
  cases place with
  | document => exact absurd head (by simp [roles])
  | root catalog =>
    obtain rfl : Role.root = top := by simpa [roles] using head
    simp only [enter, Role.inside]
    split <;> try simp only [*]
    · exact free rfl
  | context outer =>
    obtain rfl : Role.context = top := by simpa [roles] using head
    simp only [enter, Role.inside]
    split <;> try simp only [*]
    · exact free rfl
    · exact OpenMessage.start_ok_iff _
  | message outer =>
    obtain rfl : Role.message outer.plural = top := by simpa [roles] using head
    simp only [enter, Role.inside]
    split <;> try simp only [*]
    · exact startLocation_ok_iff
    · exact free rfl
    · exact free rfl
    · exact free rfl
    · exact free rfl
    · exact startTranslation_ok_iff
  | forms outer =>
    obtain rfl : Role.translation true = top := by simpa [roles] using head
    simp only [enter, Role.inside]
    split <;> try simp only [*]
    · exact free rfl
  | text host content =>
    rw [Role.inside_of_isText (TextHost.isText_of_head head)]
    simp only [enter]
    split
    next name =>
      rw [if_pos name]
      exact startByte_ok_iff
    next other =>
      rw [if_neg other]
      exact passed _
  | location complete outer =>
    obtain rfl : Role.location = top := by simpa [roles] using head
    exact free rfl
  | byte value host content =>
    obtain rfl : Role.byte = top := by simpa [roles] using head
    exact free rfl
  | skipped outer =>
    obtain rfl : Role.passed = top := by simpa [roles] using head
    exact free rfl

/-- An element that is gone into outside of every other is the root element or
passed over, so it is admitted. -/
theorem admits_of_enter_document {catalog : Option Catalog} {inner : Place} {tag : Tag} {role : Role}
    (entered : ((document catalog).enter tag).outcome = .ok inner)
    (top : inner.roles.head? = some role) : role.Admits tag := by
  have passed (h : ((document catalog).skipUnexpected tag).outcome = .ok inner) :
      role.Admits tag := by
    injection h with h
    obtain rfl : Role.passed = role := by simpa [← h, roles] using top
    exact Role.admits_of_not_reads rfl
  cases catalog with
  | some catalog => exact passed entered
  | none =>
    simp only [enter] at entered
    split at entered
    · have started := OpenCatalog.start_ok_iff.mp ⟨inner, entered⟩
      obtain ⟨_, _, rfl⟩ := OpenCatalog.start_eq_ok entered
      obtain rfl : Role.root = role := by simpa [roles] using top
      exact started
    · exact passed entered

/-- An element that is gone into is admitted in its role. -/
theorem admits_of_enter {place inner : Place} {tag : Tag} {role : Role}
    (entered : (place.enter tag).outcome = .ok inner) (top : inner.roles.head? = some role) :
    role.Admits tag := by
  cases head : place.roles.head? with
  | some outer =>
    rw [head_of_enter head entered] at top
    injection top with same
    exact same ▸ (enter_ok_iff head).mp ⟨inner, entered⟩
  | none =>
    obtain ⟨catalog, rfl⟩ := eq_document_of_roles (List.head?_eq_none_iff.mp head)
    exact admits_of_enter_document entered top

/-- A run of text can be taken unless it counts and cannot be resolved. -/
theorem takeText_ok_iff {place : Place} {top : Role} (head : place.roles.head? = some top)
    {run : List Char} :
    (∃ next, (place.takeText run).outcome = .ok next) ↔
      (top.isText = true → ∃ plain, Entity.unescape run = .ok plain) := by
  have layout (place : Place) : ∃ next, (place.expectLayout run).outcome = .ok next := by
    unfold expectLayout
    split <;> exact ⟨_, rfl⟩
  cases place with
  | text host content =>
    have counts : top.isText = true := TextHost.isText_of_head head
    simp only [takeText, counts, true_implies]
    cases Entity.unescape run <;> simp
  | document => exact absurd head (by simp [roles])
  | root | context | message | forms =>
    obtain rfl : _ = top := by simpa [roles] using head
    exact iff_of_true (layout _) (fun counts => absurd counts (by simp [Role.isText]))
  | location | byte | skipped =>
    obtain rfl : _ = top := by simpa [roles] using head
    exact iff_of_true ⟨_, rfl⟩ (fun counts => absurd counts (by simp [Role.isText]))

end Place

end Reader

end MessageCatalog
