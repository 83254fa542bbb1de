import Mathlib.Data.List.Nodup
import MessageCatalog.CatalogStore

/-!
# Runs of a translator set

A set of translators is made empty or from the files of a directory, and then
gets translators and changes the active one, in any order and any number of
times. At every moment of such a run each translator has a language, no two have
the same, and the active one is among them. What a request does is said by what
can be seen of the set before and after.
-/

namespace MessageCatalog

namespace TranslatorSet

/-- What changes a set. -/
inductive Request where
  /-- Add a translator. -/
  | insert (translator : Translator)
  /-- Make a language the active one. -/
  | activate (code : String)
  /-- Make no language the active one. -/
  | deactivate

/-- The set behind a request. One that cannot be met leaves the set as it is. -/
def after (set : TranslatorSet) : Request → TranslatorSet
  | .insert translator =>
    match set.insert translator with
    | .ok next => next
    | .error _ => set
  | .activate code => (set.activate? code).getD set
  | .deactivate => set.deactivate

/-- The set behind some requests, one after the other. -/
def run (set : TranslatorSet) (requests : List Request) : TranslatorSet :=
  requests.foldl after set

/-- The sets that a run starts from: the empty one, and whatever is read from a
directory, however the disk answers and changes meanwhile. -/
inductive Initial : TranslatorSet → Prop
  /-- No translators. -/
  | empty : Initial .empty
  /-- The catalogs of a directory. -/
  | loaded {σ : Type} {disk : Disk (StateM σ)} {policy : Policy} {includeUnfinished : Bool}
      {directory : String} {before behind : σ} {set : TranslatorSet}
      (read : loadDirectory disk policy includeUnfinished directory before = (.ok set, behind)) :
      Initial set

/-- The sets that some requests lead to. -/
def Reachable (set : TranslatorSet) : Prop :=
  ∃ start requests, Initial start ∧ run start requests = set

/-- A set has a language if a code for it is one of its languages', but for letter
case and hyphens. -/
def Has (set : TranslatorSet) (code : String) : Prop :=
  ∃ language ∈ set.languages, normalizeCode language = normalizeCode code

/-- What holds of a set at every moment. -/
structure WellFormed (set : TranslatorSet) : Prop where
  /-- Every translator has a language. -/
  tagged : ∀ translator ∈ set.translators, ∃ language, translator.language = some language
  /-- No two languages are the same. -/
  distinct : (set.languages.map normalizeCode).Nodup
  /-- The active translator is one of the set. -/
  active_lt : ∀ position, set.active = some position → position < set.translators.length

variable {set next : TranslatorSet} {translator : Translator} {code : String}

/-! ## Positions -/

/-- The languages of a set are those of its translators. -/
theorem has_iff (well : set.WellFormed) :
    set.Has code ↔ ∃ translator ∈ set.translators, ∃ language,
      translator.language = some language ∧ normalizeCode language = normalizeCode code := by
  constructor
  · rintro ⟨_, listed, same⟩
    obtain ⟨translator, member, rfl⟩ := List.mem_map.mp listed
    obtain ⟨language, tagged⟩ := well.tagged translator member
    rw [tagged] at same
    exact ⟨translator, member, language, tagged, same⟩
  · rintro ⟨translator, member, language, tagged, same⟩
    refine ⟨language, List.mem_map.mpr ⟨translator, member, ?_⟩, same⟩
    rw [tagged]
    rfl

/-- No translator is found exactly if the set does not have the language. -/
theorem position?_eq_none_iff (well : set.WellFormed) :
    set.position? code = none ↔ ¬ set.Has code := by
  rw [position?, List.findIdx?_eq_none_iff, has_iff well]
  constructor
  · rintro missed ⟨translator, member, language, tagged, same⟩
    have refused := missed translator member
    simp [tagged, same] at refused
  · intro absent translator member
    obtain ⟨language, tagged⟩ := well.tagged translator member
    have differs : normalizeCode language ≠ normalizeCode code :=
      fun same => absent ⟨translator, member, language, tagged, same⟩
    simp [tagged, differs]

/-- A position that is found is that of a translator. -/
theorem position?_lt {position : Nat} (found : set.position? code = some position) :
    position < set.translators.length :=
  (List.findIdx?_eq_some_iff_findIdx_eq.mp found).1

/-- The translator for a code stands at the position that is found for it. -/
theorem translator?_of_position? {position : Nat} (found : set.position? code = some position) :
    ∃ translator, set.translator? code = some translator ∧
      set.translators[position]? = some translator := by
  have there := List.getElem?_eq_getElem (position?_lt found)
  refine ⟨_, ?_, there⟩
  rw [translator?, found, Option.bind_some, there]

/-! ## Adding a translator -/

/-- What is seen of a set to which a translator could not be added: it has no
language, or one that the set has. -/
def InsertRefused (set : TranslatorSet) (translator : Translator) (fault : CatalogError) : Prop :=
  (translator.language = none ∧ fault = .untagged) ∨
    ∃ language, translator.language = some language ∧ set.Has language ∧
      fault = .duplicateLanguage language

/-- What is seen of a set to which a translator was added. -/
structure Inserted (set : TranslatorSet) (translator : Translator) (next : TranslatorSet) :
    Prop where
  /-- One language, which the set did not have, stands behind the others. -/
  languages : ∃ language, translator.language = some language ∧ ¬ set.Has language ∧
    next.languages = set.languages ++ [language]
  /-- The same language is active. -/
  active : next.activeLanguage? = set.activeLanguage?
  /-- The same is shown for every text. -/
  translate : next.translate = set.translate
  /-- The same is shown for every text and count. -/
  translatePlural : next.translatePlural = set.translatePlural
  /-- Every language that was there has the same translator. -/
  translator? : ∀ code, set.Has code → next.translator? code = set.translator? code

/-- Adding a translator fails for want of a new language only. -/
theorem insertRefused_of_error (well : set.WellFormed) {fault : CatalogError}
    (refused : set.insert translator = .error fault) : set.InsertRefused translator fault := by
  unfold insert at refused
  cases tagged : translator.language with
  | none =>
    rw [tagged] at refused
    exact .inl ⟨tagged, (Except.error.inj refused).symm⟩
  | some language =>
    rw [tagged] at refused
    cases found : set.position? language with
    | none => simp [found] at refused
    | some position =>
      simp only [found] at refused
      have present : set.Has language := by
        by_contra absent
        rw [(position?_eq_none_iff well).mpr absent] at found
        contradiction
      exact .inr ⟨language, tagged, present, (Except.error.inj refused).symm⟩

/-- A translator that is added has a new language and stands behind the others. -/
theorem insert_eq_ok (added : set.insert translator = .ok next) :
    ∃ language, translator.language = some language ∧ set.position? language = none ∧
      next = { set with translators := set.translators ++ [translator] } := by
  unfold insert at added
  cases tagged : translator.language with
  | none => simp [tagged] at added
  | some language =>
    cases found : set.position? language with
    | some position => simp [tagged, found] at added
    | none =>
      simp only [tagged, found] at added
      exact ⟨language, rfl, found, (Except.ok.inj added).symm⟩

/-- Sets with the same active translator show the same. -/
theorem translate_congr (same : next.activeTranslator? = set.activeTranslator?) :
    next.translate = set.translate ∧ next.translatePlural = set.translatePlural := by
  constructor
  · funext context source comment
    rw [translate, translate, same]
  · funext context source count
    rw [translatePlural, translatePlural, same]

/-- The language of a translator that is added stands behind the others. -/
theorem languages_append {language : String} (tagged : translator.language = some language) :
    languages { set with translators := set.translators ++ [translator] } =
      set.languages ++ [language] := by
  rw [languages, languages, List.map_append, List.map_singleton, tagged]
  rfl

/-- The active translator stays active when another is added. -/
theorem activeTranslator?_append (well : set.WellFormed) (translator : Translator) :
    activeTranslator? { set with translators := set.translators ++ [translator] } =
      set.activeTranslator? := by
  unfold activeTranslator?
  cases active : set.active with
  | none => rfl
  | some position => exact List.getElem?_append_left (well.active_lt position active)

/-- A language that is there keeps its translator when another is added. -/
theorem translator?_append {position : Nat} (found : set.position? code = some position) :
    TranslatorSet.translator? { set with translators := set.translators ++ [translator] } code =
      set.translator? code := by
  have same :
      TranslatorSet.position? { set with translators := set.translators ++ [translator] } code =
        some position := by
    rw [position?] at found ⊢
    rw [List.findIdx?_append, found]
    rfl
  rw [TranslatorSet.translator?, TranslatorSet.translator?, same, found]
  exact List.getElem?_append_left (position?_lt found)

/-- Adding a translator adds a language and changes nothing else that is seen. -/
theorem inserted_of_ok (well : set.WellFormed) (added : set.insert translator = .ok next) :
    set.Inserted translator next := by
  obtain ⟨language, tagged, new, rfl⟩ := insert_eq_ok added
  have active := activeTranslator?_append well translator
  refine
    { languages :=
        ⟨language, tagged, (position?_eq_none_iff well).mp new, languages_append tagged⟩
      active := by rw [activeLanguage?, activeLanguage?, active]
      translate := (translate_congr active).1
      translatePlural := (translate_congr active).2
      translator? := fun code present => ?_ }
  cases found : set.position? code with
  | none => exact absurd present ((position?_eq_none_iff well).mp found)
  | some position => exact translator?_append found

/-! ## Choosing the active translator -/

/-- What is seen of a set of which a language was made active. -/
structure Activated (set : TranslatorSet) (code : String) (next : TranslatorSet) : Prop where
  /-- The set has the language, and from now on shows what its translator shows. -/
  serves : ∃ translator, set.translator? code = some translator ∧
    next.translate = translator.lookup ∧ next.translatePlural = translator.translatePlural
  /-- The languages are the same. -/
  languages : next.languages = set.languages
  /-- Every language has the same translator. -/
  translator? : next.translator? = set.translator?

/-- A set shows what its active translator shows. -/
theorem translate_of_active (active : set.activeTranslator? = some translator) :
    set.translate = translator.lookup ∧ set.translatePlural = translator.translatePlural := by
  constructor
  · funext context source comment
    rw [translate, active]
  · funext context source count
    rw [translatePlural, active]

/-- Making a language active shows its translations. -/
theorem activated_of_some (switched : set.activate? code = some next) :
    set.Activated code next := by
  obtain ⟨position, found, rfl⟩ := Option.map_eq_some_iff.mp switched
  obtain ⟨translator, named, there⟩ := translator?_of_position? found
  have active : activeTranslator? { set with active := some position } = some translator := there
  exact ⟨⟨translator, named, translate_of_active active⟩, rfl, rfl⟩

/-- A language can be made active exactly if the set has it. -/
theorem isSome_activate?_iff (well : set.WellFormed) :
    (set.activate? code).isSome ↔ set.Has code := by
  rw [activate?, Option.isSome_map, ← not_iff_not, ← position?_eq_none_iff well]
  simp

/-! ## What is shown -/

/-- What a set shows: source texts if no language is active, and otherwise what the
translator of the active language shows. -/
def ShowsActive (set : TranslatorSet) : Prop :=
  match set.activeLanguage? with
  | none =>
    (∀ context source comment, set.translate context source comment = source) ∧
      ∀ context source count,
        set.translatePlural context source count = substituteCount source count
  | some language => ∃ translator, set.translator? language = some translator ∧
      set.translate = translator.lookup ∧ set.translatePlural = translator.translatePlural

/-- The languages stand in the order of the translators. -/
theorem getElem?_codes {position : Nat} {language : String}
    (there : set.translators[position]? = some translator)
    (tagged : translator.language = some language) :
    (set.languages.map normalizeCode)[position]? = some (normalizeCode language) := by
  simp [languages, there, tagged]

/-- A translator is found by its own language: no other has the same. -/
theorem position?_of_getElem? (well : set.WellFormed) {position : Nat} {language : String}
    (there : set.translators[position]? = some translator)
    (tagged : translator.language = some language) : set.position? language = some position := by
  have own : set.Has language :=
    (has_iff well).mpr ⟨translator, List.mem_of_getElem? there, language, tagged, rfl⟩
  cases found : set.position? language with
  | none => exact absurd own ((position?_eq_none_iff well).mp found)
  | some other =>
    obtain ⟨bound, matching, _⟩ := List.findIdx?_eq_some_iff_getElem.mp found
    obtain ⟨same, named⟩ := well.tagged set.translators[other] (List.getElem_mem bound)
    have equal : normalizeCode same = normalizeCode language := by
      simpa [named] using matching
    have atOther := getElem?_codes (List.getElem?_eq_getElem bound) named
    have atPosition := getElem?_codes there tagged
    have inside : other < (set.languages.map normalizeCode).length := by
      simpa [languages] using bound
    have both : (set.languages.map normalizeCode)[other]? =
        (set.languages.map normalizeCode)[position]? := by
      rw [atOther, atPosition, equal]
    rw [(List.getElem?_inj inside well.distinct).mp both]

/-- A set shows what its active language says. -/
theorem showsActive_of_wellFormed (well : set.WellFormed) : set.ShowsActive := by
  unfold ShowsActive
  cases active : set.activeTranslator? with
  | none =>
    rw [activeLanguage?, active]
    refine ⟨fun context source comment => ?_, fun context source count => ?_⟩
    · rw [translate, active]
    · rw [translatePlural, active]
  | some translator =>
    obtain ⟨position, _, there⟩ := Option.bind_eq_some_iff.mp active
    obtain ⟨language, tagged⟩ := well.tagged translator (List.mem_of_getElem? there)
    have found := position?_of_getElem? well there tagged
    have shown : set.activeLanguage? = some language := by
      rw [activeLanguage?, active, Option.bind_some, tagged]
    rw [shown]
    have named : set.translator? language = some translator := by
      rw [translator?, found, Option.bind_some, there]
    exact ⟨translator, named, translate_of_active active⟩

/-! ## Steps and runs -/

/-- No translators are a set like any other. -/
theorem wellFormed_empty : empty.WellFormed :=
  ⟨fun _ member => absurd member List.not_mem_nil, List.nodup_nil, fun _ active => by cases active⟩

/-- Adding a translator keeps a set in order. -/
theorem wellFormed_insert (well : set.WellFormed) (added : set.insert translator = .ok next) :
    next.WellFormed := by
  obtain ⟨language, tagged, new, rfl⟩ := insert_eq_ok added
  have absent : normalizeCode language ∉ set.languages.map normalizeCode := by
    intro listed
    obtain ⟨other, member, same⟩ := List.mem_map.mp listed
    exact (position?_eq_none_iff well).mp new ⟨other, member, same⟩
  refine ⟨fun other member => ?_, ?_, fun position active => ?_⟩
  · rcases List.mem_append.mp member with there | last
    · exact well.tagged other there
    · rw [List.mem_singleton.mp last]
      exact ⟨language, tagged⟩
  · rw [languages_append tagged, List.map_append, List.map_singleton]
    exact List.nodup_append_comm.mp (List.nodup_cons.mpr ⟨absent, well.distinct⟩)
  · have bound := well.active_lt position active
    rw [List.length_append]
    exact Nat.lt_add_right _ bound

/-- Making a language active keeps a set in order. -/
theorem wellFormed_activate? (well : set.WellFormed) (switched : set.activate? code = some next) :
    next.WellFormed := by
  obtain ⟨position, found, rfl⟩ := Option.map_eq_some_iff.mp switched
  refine ⟨well.tagged, well.distinct, fun other active => ?_⟩
  rw [← Option.some.inj active]
  exact position?_lt found

/-- A translator that can be added is. -/
theorem after_insert_of_ok (added : set.insert translator = .ok next) :
    set.after (.insert translator) = next := by
  simp only [after, added]

/-- One that cannot leaves the set as it is. -/
theorem after_insert_of_error {fault : CatalogError}
    (refused : set.insert translator = .error fault) : set.after (.insert translator) = set := by
  simp only [after, refused]

/-- A language that the set has becomes active. -/
theorem after_activate_of_some (switched : set.activate? code = some next) :
    set.after (.activate code) = next := by
  simp only [after, switched, Option.getD_some]

/-- One that it does not have leaves the set as it is. -/
theorem after_activate_of_none (missing : set.activate? code = none) :
    set.after (.activate code) = set := by
  simp only [after, missing, Option.getD_none]

/-- What holds of a set and is kept by the one change that a request can make holds behind
the request. -/
theorem after_induction {motive : TranslatorSet → Prop} {request : Request} (start : motive set)
    (add : ∀ {translator next}, request = .insert translator →
      set.insert translator = .ok next → motive next)
    (switch : ∀ {code next}, set.activate? code = some next → motive next)
    (none : motive set.deactivate) : motive (set.after request) := by
  cases request with
  | insert translator =>
    cases result : set.insert translator with
    | error fault =>
      rw [after_insert_of_error result]
      exact start
    | ok next =>
      rw [after_insert_of_ok result]
      exact add rfl result
  | activate code =>
    cases result : set.activate? code with
    | none =>
      rw [after_activate_of_none result]
      exact start
    | some next =>
      rw [after_activate_of_some result]
      exact switch result
  | deactivate => exact none

/-- What holds of a set and is kept by every change holds at the end of a run. Of the
translators that are added only those that the run asks for matter. -/
theorem run_induction {motive : TranslatorSet → Prop} {requests : List Request}
    (start : motive set)
    (add : ∀ {set next translator}, .insert translator ∈ requests → motive set →
      set.insert translator = .ok next → motive next)
    (switch : ∀ {set next code}, motive set → set.activate? code = some next → motive next)
    (none : ∀ {set}, motive set → motive set.deactivate) : motive (set.run requests) := by
  induction requests generalizing set with
  | nil => exact start
  | cons request rest ih =>
    have first : motive (set.after request) :=
      after_induction start (fun same => add (same ▸ List.mem_cons_self) start) (switch start)
        (none start)
    exact ih first fun member => add (List.mem_cons_of_mem _ member)

/-- Any number of requests keep a set in order. -/
theorem wellFormed_run (well : set.WellFormed) (requests : List Request) :
    (set.run requests).WellFormed := by
  refine run_induction well (fun _ => wellFormed_insert) wellFormed_activate? fun well => ?_
  exact ⟨well.tagged, well.distinct, fun position active => by cases active⟩

/-- A file that is added holds a catalog, whose translator is added. -/
theorem insertFile_eq_ok {policy : Policy} {includeUnfinished : Bool} {path : String}
    {bytes : ByteArray} (added : set.insertFile policy includeUnfinished path bytes = .ok next) :
    ∃ catalog translator, Translator.ofCatalog catalog includeUnfinished = .ok translator ∧
      set.insert translator = .ok next := by
  unfold insertFile at added
  split at added
  next => contradiction
  next report _ =>
    split at added
    next => contradiction
    next =>
      split at added
      next => contradiction
      next translator made => exact ⟨report.catalog, translator, made, added⟩

/-- A file that is read adds a translator. -/
theorem wellFormed_insertFile {policy : Policy} {includeUnfinished : Bool} {path : String}
    {bytes : ByteArray} (well : set.WellFormed)
    (added : set.insertFile policy includeUnfinished path bytes = .ok next) : next.WellFormed := by
  obtain ⟨_, _, _, inserted⟩ := insertFile_eq_ok added
  exact wellFormed_insert well inserted

variable {σ : Type} {disk : Disk (StateM σ)} {policy : Policy} {includeUnfinished : Bool}

/-- Reading files stops at the first that cannot be read or added. -/
theorem insertFiles_cons (path : String) (rest : List String) (before : σ) :
    insertFiles disk policy includeUnfinished set (path :: rest) before =
      match disk.read path before with
      | (.error cause, later) => (.error (.unreadable path cause), later)
      | (.ok bytes, later) =>
        match set.insertFile policy includeUnfinished path bytes with
        | .error fault => (.error fault, later)
        | .ok longer => insertFiles disk policy includeUnfinished longer rest later := by
  rw [insertFiles, Disk.run_bind]
  obtain ⟨answer, later⟩ := disk.read path before
  cases answer with
  | error cause => rfl
  | ok bytes =>
    dsimp only
    cases set.insertFile policy includeUnfinished path bytes <;> rfl

/-- What every file that is added keeps is kept when files are read. -/
theorem insertFiles_induction {motive : TranslatorSet → Prop}
    (file : ∀ {set next : TranslatorSet} {path bytes}, motive set →
      set.insertFile policy includeUnfinished path bytes = .ok next → motive next)
    {paths : List String} {before behind : σ} (start : motive set)
    (read : insertFiles disk policy includeUnfinished set paths before = (.ok next, behind)) :
    motive next := by
  induction paths generalizing set before with
  | nil =>
    cases read
    exact start
  | cons path rest ih =>
    rw [insertFiles_cons] at read
    split at read
    next => cases read
    next bytes later _ =>
      split at read
      next => cases read
      next longer added => exact ih (file start added) read

/-- What holds of no translators and is kept by every file that is added holds of what is
read from a directory. -/
theorem loadDirectory_induction {motive : TranslatorSet → Prop} (start : motive empty)
    (file : ∀ {set next : TranslatorSet} {path bytes}, motive set →
      set.insertFile policy includeUnfinished path bytes = .ok next → motive next)
    {directory : String} {before behind : σ}
    (read : loadDirectory disk policy includeUnfinished directory before = (.ok set, behind)) :
    motive set := by
  rw [loadDirectory, Disk.run_bind] at read
  generalize disk.list directory before = listed at read
  obtain ⟨answer, later⟩ := listed
  cases answer with
  | ok names => exact insertFiles_induction file start read
  | error cause =>
    cases cause with
    | notFound =>
      cases read
      exact start
    | alreadyExists | notDirectory | isDirectory | other => cases read

/-- What is read from a directory is in order. -/
theorem wellFormed_loadDirectory {directory : String} {before behind : σ}
    (read : loadDirectory disk policy includeUnfinished directory before = (.ok set, behind)) :
    set.WellFormed :=
  loadDirectory_induction wellFormed_empty wellFormed_insertFile read

/-- A set is in order at every moment. -/
theorem wellFormed_of_reachable (reached : set.Reachable) : set.WellFormed := by
  obtain ⟨start, requests, initial, rfl⟩ := reached
  cases initial with
  | empty => exact wellFormed_run wellFormed_empty requests
  | loaded read => exact wellFormed_run (wellFormed_loadDirectory read) requests

/-- Sets are consistent along every run. At every moment each translator has a
language, no two have the same, and the active one is among them; what is shown are
its translations, or source texts if no language is active. A translator is added
unless it has no language or one that the set has; it adds a language and changes
nothing else that is seen. A language is made active exactly if the set has it, and
then its translations are shown. Requests that cannot be met leave the set as it
is. -/
theorem reachable_consistent (reached : set.Reachable) :
    set.WellFormed ∧ set.ShowsActive ∧
      (∀ translator,
        match set.insert translator with
        | .ok next => set.Inserted translator next ∧ set.after (.insert translator) = next
        | .error fault =>
          set.InsertRefused translator fault ∧ set.after (.insert translator) = set) ∧
      (∀ code, ((set.activate? code).isSome ↔ set.Has code) ∧
        match set.activate? code with
        | some next => set.Activated code next ∧ set.after (.activate code) = next
        | none => set.after (.activate code) = set) ∧
      (set.after .deactivate).activeLanguage? = none ∧
      (set.after .deactivate).languages = set.languages ∧
      (set.after .deactivate).translator? = set.translator? := by
  have well := wellFormed_of_reachable reached
  refine ⟨well, showsActive_of_wellFormed well, fun translator => ?_,
    fun code => ⟨isSome_activate?_iff well, ?_⟩, rfl, rfl, rfl⟩
  · cases result : set.insert translator with
    | error fault =>
      exact ⟨insertRefused_of_error well result, after_insert_of_error result⟩
    | ok next => exact ⟨inserted_of_ok well result, after_insert_of_ok result⟩
  · cases result : set.activate? code with
    | none => exact after_activate_of_none result
    | some next => exact ⟨activated_of_some result, after_activate_of_some result⟩

/-- German is made active by another spelling of its code and stays active when
French comes. German under that other spelling is refused. -/
theorem german_then_french_consistent :
    ∃ set, run .empty [.insert ⟨⟨"2.0", some "de_DE", none, []⟩, .oneOther, ∅, true⟩,
        .activate "DE-de", .insert ⟨⟨"2.0", some "fr", none, []⟩, .zeroOneOther, ∅, true⟩] = set ∧
      set.languages = ["de_DE", "fr"] ∧ set.activeLanguage? = some "de_DE" ∧ set.WellFormed ∧
      set.InsertRefused ⟨⟨"2.0", some "DE-de", none, []⟩, .oneOther, ∅, true⟩
        (.duplicateLanguage "DE-de") ∧
      ((set.activate? "Fr").isSome ↔ set.Has "Fr") := by
  refine ⟨_, rfl, rfl, rfl, ?_⟩
  have reached : (run .empty [.insert ⟨⟨"2.0", some "de_DE", none, []⟩, .oneOther, ∅, true⟩,
      .activate "DE-de",
      .insert ⟨⟨"2.0", some "fr", none, []⟩, .zeroOneOther, ∅, true⟩]).Reachable :=
    ⟨_, _, .empty, rfl⟩
  obtain ⟨well, _, inserts, activates, _⟩ := reachable_consistent reached
  have refused := inserts ⟨⟨"2.0", some "DE-de", none, []⟩, .oneOther, ∅, true⟩
  exact ⟨well, refused.1, (activates "Fr").1⟩

end TranslatorSet

end MessageCatalog
