import Mathlib.Data.List.Forall2
import MessageCatalog.Proofs.TranslatorSetRuns

/-!
# Files that are loaded

Files of a directory are loaded one behind the other. The set that comes of it has one
translator for each file, in their order. The first file that cannot be added
decides the fault; what is looked at first of a file is its document, then whether
it names a language, then whether the language is one, and last whether an earlier
file has the language.
-/

namespace MessageCatalog

/-- A file of a directory. -/
structure NamedFile where
  /-- Its name in the directory. -/
  name : String
  /-- Its bytes. -/
  bytes : ByteArray

namespace TranslatorSet

/-! ## What files make -/

section

variable (policy : Policy) (includeUnfinished : Bool)

/-- A translator answers for the catalog in a file: it is the one of the catalog that
is read from the bytes, and the catalog names a language. -/
def Holds (file : NamedFile) (translator : Translator) : Prop :=
  ∃ report fresh, Report.ofBytes policy file.bytes = .ok report ∧
    (∃ language, report.catalog.language = some language) ∧
    Translator.ofCatalog report.catalog true = .ok fresh ∧
    translator = fresh.withUnfinished includeUnfinished

/-- A file names a language: that of the catalog that is read from the bytes. -/
def Names (file : NamedFile) (language : String) : Prop :=
  ∃ report, Report.ofBytes policy file.bytes = .ok report ∧
    report.catalog.language = some language

/-- What is seen of a set into which some files were loaded. -/
structure Loaded (files : List NamedFile) (set : TranslatorSet) : Prop where
  /-- There is one translator for each file, in the order of the files. -/
  translators : List.Forall₂ (Holds policy includeUnfinished) files set.translators
  /-- So are their languages. -/
  languages : List.Forall₂ (Names policy) files set.languages
  /-- No two languages are the same. -/
  distinct : (set.languages.map normalizeCode).Nodup
  /-- No language is active. -/
  inactive : set.active = none

/-- Why a file of a directory cannot be added behind files with some languages. -/
inductive Rejected (directory : String) (before : List String) (file : NamedFile) :
    CatalogError → Prop
  /-- Its document cannot be read. -/
  | unparsable {fault : CatalogError} (read : Report.ofBytes policy file.bytes = .error fault) :
    Rejected directory before file fault
  /-- Its catalog names no language. -/
  | untagged {report : Report} (read : Report.ofBytes policy file.bytes = .ok report)
    (tagged : report.catalog.language = none) :
    Rejected directory before file (.missingLanguage (Path.join directory file.name))
  /-- The language that it names is none. -/
  | invalid {report : Report} {tag : String} {fault : LanguageTag.Fault}
    (read : Report.ofBytes policy file.bytes = .ok report)
    (tagged : report.catalog.language = some tag)
    (ruled : PluralRule.ofLanguage tag = .error fault) :
    Rejected directory before file (.invalidLanguage tag fault)
  /-- An earlier file has the language that it names. -/
  | repeated {report : Report} {tag : String} {rule : PluralRule}
    (read : Report.ofBytes policy file.bytes = .ok report)
    (tagged : report.catalog.language = some tag)
    (ruled : PluralRule.ofLanguage tag = .ok rule)
    (present : ∃ language ∈ before, normalizeCode language = normalizeCode tag) :
    Rejected directory before file (.duplicateLanguage tag)

end

variable {policy : Policy} {includeUnfinished : Bool} {directory : String} {file : NamedFile}
  {set next : TranslatorSet} {translator : Translator}

/-! ## One file -/

/-- Add the catalog in a file of a directory. -/
def insertNamed (policy : Policy) (includeUnfinished : Bool) (directory : String)
    (set : TranslatorSet) (file : NamedFile) : Except CatalogError TranslatorSet :=
  set.insertFile policy includeUnfinished (Path.join directory file.name) file.bytes

/-- The translator of a catalog with a language has the plural rule of the language. -/
theorem ofCatalog_of_tagged {catalog : Catalog} {tag : String}
    (tagged : catalog.language = some tag) (includeUnfinished : Bool) :
    Translator.ofCatalog catalog includeUnfinished =
      match PluralRule.ofLanguage tag with
      | .ok rule => .ok ⟨catalog, rule, catalog.index, includeUnfinished⟩
      | .error fault => .error (.invalidLanguage tag fault) := by
  rw [Translator.ofCatalog, Catalog.pluralRule, tagged]
  dsimp only [pluralRuleOf]
  cases PluralRule.ofLanguage tag <;> rfl

/-- A file holds a translator exactly if its bytes are read as a catalog with a
language that has a plural rule, and the translator is made of both. -/
theorem holds_iff : Holds policy includeUnfinished file translator ↔
    ∃ report tag rule, Report.ofBytes policy file.bytes = .ok report ∧
      report.catalog.language = some tag ∧ PluralRule.ofLanguage tag = .ok rule ∧
      translator = ⟨report.catalog, rule, report.catalog.index, includeUnfinished⟩ := by
  constructor
  · rintro ⟨report, fresh, read, ⟨tag, tagged⟩, made, rfl⟩
    rw [ofCatalog_of_tagged tagged] at made
    cases ruled : PluralRule.ofLanguage tag with
    | error fault => simp [ruled] at made
    | ok rule =>
      rw [ruled] at made
      exact ⟨report, tag, rule, read, tagged, ruled, by rw [← Except.ok.inj made]; rfl⟩
  · rintro ⟨report, tag, rule, read, tagged, ruled, rfl⟩
    refine ⟨report, ⟨report.catalog, rule, report.catalog.index, true⟩, read, ⟨tag, tagged⟩, ?_, rfl⟩
    rw [ofCatalog_of_tagged tagged, ruled]

/-- A translator whose language is new is added. -/
theorem insert_of_new (well : set.WellFormed) {language : String}
    (tagged : translator.language = some language) (new : ¬ set.Has language) :
    set.insert translator = .ok { set with translators := set.translators ++ [translator] } := by
  rw [insert, tagged]
  dsimp only
  rw [(position?_eq_none_iff well).mpr new]

/-- One whose language is there is not. -/
theorem insert_of_has (well : set.WellFormed) {language : String}
    (tagged : translator.language = some language) (present : set.Has language) :
    set.insert translator = .error (.duplicateLanguage language) := by
  rw [insert, tagged]
  dsimp only
  cases found : set.position? language with
  | none => exact absurd present ((position?_eq_none_iff well).mp found)
  | some position => rfl

/-- A file that is rejected is not added. -/
theorem insertNamed_of_rejected (well : set.WellFormed) {fault : CatalogError}
    (rejected : Rejected policy directory set.languages file fault) :
    set.insertNamed policy includeUnfinished directory file = .error fault := by
  cases rejected with
  | unparsable read => rw [insertNamed, insertFile, read]
  | untagged read tagged => simp only [insertNamed, insertFile, read, tagged]
  | invalid read tagged ruled =>
    simp only [insertNamed, insertFile, read, tagged, ofCatalog_of_tagged tagged, ruled]
  | @repeated report tag rule read tagged ruled present =>
    let own : Translator := ⟨report.catalog, rule, report.catalog.index, includeUnfinished⟩
    have named : own.language = some tag := tagged
    simp only [insertNamed, insertFile, read, tagged, ofCatalog_of_tagged tagged, ruled]
    exact insert_of_has well named present

/-- A file with a new language is added. -/
theorem insertNamed_of_new (well : set.WellFormed)
    (holds : Holds policy includeUnfinished file translator) {tag : String}
    (named : translator.language = some tag) (new : ¬ set.Has tag) :
    set.insertNamed policy includeUnfinished directory file =
      .ok { set with translators := set.translators ++ [translator] } := by
  obtain ⟨report, tag', rule, read, tagged, ruled, rfl⟩ := holds_iff.mp holds
  simp only [insertNamed, insertFile, read, tagged, ofCatalog_of_tagged tagged, ruled]
  exact insert_of_new well named new

/-- Every file is rejected or has a new language. -/
theorem rejected_or_new (set : TranslatorSet) (policy : Policy) (includeUnfinished : Bool)
    (directory : String) (file : NamedFile) :
    (∃ fault, Rejected policy directory set.languages file fault) ∨
      ∃ translator tag, Holds policy includeUnfinished file translator ∧
        translator.language = some tag ∧ ¬ set.Has tag := by
  cases read : Report.ofBytes policy file.bytes with
  | error fault => exact .inl ⟨fault, .unparsable read⟩
  | ok report =>
    cases tagged : report.catalog.language with
    | none => exact .inl ⟨_, .untagged read tagged⟩
    | some tag =>
      cases ruled : PluralRule.ofLanguage tag with
      | error fault => exact .inl ⟨_, .invalid read tagged ruled⟩
      | ok rule =>
        by_cases present : set.Has tag
        · exact .inl ⟨_, .repeated read tagged ruled present⟩
        · exact .inr ⟨_, tag, holds_iff.mpr ⟨report, tag, rule, read, tagged, ruled, rfl⟩, tagged,
            present⟩

/-- A file is not added exactly if it is rejected. -/
theorem insertNamed_eq_error_iff (well : set.WellFormed) {fault : CatalogError} :
    set.insertNamed policy includeUnfinished directory file = .error fault ↔
      Rejected policy directory set.languages file fault := by
  refine ⟨fun refused => ?_, insertNamed_of_rejected well⟩
  rcases rejected_or_new set policy includeUnfinished directory file with
    ⟨other, rejected⟩ | ⟨translator, tag, holds, named, new⟩
  · rw [insertNamed_of_rejected well rejected] at refused
    rw [← Except.error.inj refused]
    exact rejected
  · rw [insertNamed_of_new well holds named new] at refused
    contradiction

/-- It is added exactly if it has a new language. -/
theorem insertNamed_eq_ok_iff (well : set.WellFormed) :
    set.insertNamed policy includeUnfinished directory file = .ok next ↔
      ∃ translator tag, Holds policy includeUnfinished file translator ∧
        translator.language = some tag ∧ ¬ set.Has tag ∧
        next = { set with translators := set.translators ++ [translator] } := by
  constructor
  · intro added
    rcases rejected_or_new set policy includeUnfinished directory file with
      ⟨fault, rejected⟩ | ⟨translator, tag, holds, named, new⟩
    · rw [insertNamed_of_rejected well rejected] at added
      contradiction
    · rw [insertNamed_of_new well holds named new] at added
      exact ⟨translator, tag, holds, named, new, (Except.ok.inj added).symm⟩
  · rintro ⟨translator, tag, holds, named, new, rfl⟩
    exact insertNamed_of_new well holds named new

/-! ## Some files -/

/-- Add the catalogs in some files of a directory, in their order. -/
def insertAll (policy : Policy) (includeUnfinished : Bool) (directory : String)
    (set : TranslatorSet) (files : List NamedFile) : Except CatalogError TranslatorSet :=
  files.foldlM (insertNamed policy includeUnfinished directory) set

/-- Files are added one behind the other. -/
theorem insertAll_cons (file : NamedFile) (rest : List NamedFile) :
    set.insertAll policy includeUnfinished directory (file :: rest) =
      match set.insertNamed policy includeUnfinished directory file with
      | .error fault => .error fault
      | .ok longer => longer.insertAll policy includeUnfinished directory rest := by
  rw [insertAll, List.foldlM_cons]
  cases set.insertNamed policy includeUnfinished directory file <;> rfl

/-- Adding some files fails exactly if adding one of them does behind those before it,
and with its fault. -/
theorem insertAll_eq_error_iff {files : List NamedFile} {fault : CatalogError} :
    set.insertAll policy includeUnfinished directory files = .error fault ↔
      ∃ before file after between, files = before ++ file :: after ∧
        set.insertAll policy includeUnfinished directory before = .ok between ∧
        between.insertNamed policy includeUnfinished directory file = .error fault := by
  induction files generalizing set with
  | nil => simp [insertAll, pure, Except.pure]
  | cons first rest ih =>
    rw [insertAll_cons]
    constructor
    · intro failed
      split at failed
      next cause refused =>
        exact ⟨[], first, rest, set, rfl, rfl, refused.trans failed⟩
      next longer added =>
        obtain ⟨before, file, after, between, rfl, through, refused⟩ := ih.mp failed
        refine ⟨first :: before, file, after, between, rfl, ?_, refused⟩
        rw [insertAll_cons, added]
        exact through
    · rintro ⟨before, file, after, between, split, through, refused⟩
      cases before with
      | nil =>
        obtain ⟨rfl, rfl⟩ := List.cons.inj split
        rw [← Except.ok.inj through] at refused
        rw [refused]
      | cons same before =>
        obtain ⟨rfl, rfl⟩ := List.cons.inj split
        rw [insertAll_cons] at through
        split at through
        next => contradiction
        next longer added =>
          exact ih.mpr ⟨before, file, after, between, rfl, through, refused⟩

/-- A language that is added without being there twice was not there before. -/
theorem not_has_of_distinct {tag : String} {more : List Translator}
    (named : translator.language = some tag)
    (distinct : ((TranslatorSet.languages
      { set with translators := set.translators ++ translator :: more }).map normalizeCode).Nodup) :
    ¬ set.Has tag := by
  rintro ⟨language, present, same⟩
  rw [languages, List.map_append, List.map_append, List.map_cons, named] at distinct
  have apart := (List.nodup_append.mp distinct).2.2
  exact apart _ (List.mem_map_of_mem present) _ List.mem_cons_self same

/-- Adding some files succeeds exactly if each holds a translator and no two languages
are the same, and puts the translators behind those that are there. -/
theorem insertAll_eq_ok_iff {files : List NamedFile} (well : set.WellFormed) :
    set.insertAll policy includeUnfinished directory files = .ok next ↔
      ∃ added, List.Forall₂ (Holds policy includeUnfinished) files added ∧
        next = { set with translators := set.translators ++ added } ∧
        (next.languages.map normalizeCode).Nodup := by
  induction files generalizing set with
  | nil =>
    rw [insertAll, List.foldlM_nil]
    constructor
    · intro same
      obtain rfl := Except.ok.inj same
      exact ⟨[], .nil, by rw [List.append_nil], well.distinct⟩
    · rintro ⟨added, held, rfl, _⟩
      cases held
      rw [List.append_nil]
      rfl
  | cons first rest ih =>
    rw [insertAll_cons]
    constructor
    · intro through
      split at through
      next => contradiction
      next longer added =>
        obtain ⟨translator, tag, holds, named, new, rfl⟩ := (insertNamed_eq_ok_iff well).mp added
        have longerWell := wellFormed_insertFile well added
        obtain ⟨more, held, rfl, distinct⟩ := (ih longerWell).mp through
        refine ⟨translator :: more, .cons holds held, ?_, distinct⟩
        rw [List.append_assoc, List.singleton_append]
    · rintro ⟨added, held, rfl, distinct⟩
      cases held with
      | @cons _ translator _ more holds held =>
        obtain ⟨report, tag, rule, read, tagged, ruled, rfl⟩ := holds_iff.mp holds
        let own : Translator := ⟨report.catalog, rule, report.catalog.index, includeUnfinished⟩
        have named : own.language = some tag := tagged
        have first_added : set.insertNamed policy includeUnfinished directory first =
            .ok { set with translators := set.translators ++ [own] } :=
          insertNamed_of_new well holds named (not_has_of_distinct named distinct)
        rw [first_added]
        refine (ih (wellFormed_insertFile well first_added)).mpr ⟨more, held, ?_, distinct⟩
        rw [List.append_assoc, List.singleton_append]

/-- What some files make of no translators is what is seen of a set into which they were
loaded. -/
theorem insertAll_empty_eq_ok_iff {files : List NamedFile} :
    empty.insertAll policy includeUnfinished directory files = .ok set ↔
      Loaded policy includeUnfinished files set := by
  rw [insertAll_eq_ok_iff wellFormed_empty]
  constructor
  · rintro ⟨added, held, rfl, distinct⟩
    refine ⟨held, ?_, distinct, rfl⟩
    refine List.forall₂_map_right_iff.mpr (held.imp fun file translator holds => ?_)
    obtain ⟨report, tag, rule, read, tagged, _, rfl⟩ := holds_iff.mp holds
    refine ⟨report, read, ?_⟩
    rw [tagged, Translator.language, tagged]
    rfl
  · intro loaded
    refine ⟨set.translators, loaded.translators, ?_, loaded.distinct⟩
    rw [empty, List.nil_append, ← loaded.inactive]

/-- A set into which files were loaded is in order. -/
theorem wellFormed_of_loaded {files : List NamedFile}
    (loaded : Loaded policy includeUnfinished files set) : set.WellFormed := by
  have tagged {files : List NamedFile} {translators : List Translator}
      (held : List.Forall₂ (Holds policy includeUnfinished) files translators) :
      ∀ translator ∈ translators, ∃ language, translator.language = some language := by
    induction held with
    | nil => simp
    | cons holds _ ih =>
      obtain ⟨report, tag, rule, read, tagged, _, rfl⟩ := holds_iff.mp holds
      exact List.forall_mem_cons.mpr ⟨⟨tag, tagged⟩, ih⟩
  refine ⟨tagged loaded.translators, loaded.distinct, fun position active => ?_⟩
  rw [loaded.inactive] at active
  contradiction

end TranslatorSet

end MessageCatalog
