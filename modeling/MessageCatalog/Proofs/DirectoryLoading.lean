import MessageCatalog.Proofs.EntryOrder
import MessageCatalog.Proofs.FileTreeRuns
import MessageCatalog.Proofs.LoadedFiles
import MessageCatalog.Proofs.Utf8Text

/-!
# Loading a directory

The catalogs of a directory are loaded in ascending order of the bytes of their
names, whatever order the disk lists them in. A file counts if its name ends in
`.ts` and is longer than that.
-/

namespace MessageCatalog

/-- A name is that of a catalog file if it ends in `.ts` and is longer than that. -/
theorem TranslatorSet.isCatalogName_iff {name : String} :
    isCatalogName name = true ↔ ∃ stem, stem ≠ "" ∧ name = stem ++ ".ts" := by
  rw [isCatalogName, beq_iff_eq, Path.extension?]
  constructor
  · intro named
    have parts := List.takeWhile_append_dropWhile (p := (· != '.')) (l := name.toList.reverse)
    cases rest : name.toList.reverse.dropWhile (· != '.') with
    | nil => simp [rest] at named
    | cons dot stem =>
      have isDot : dot = '.' := by
        have head := List.head?_dropWhile_not (· != '.') name.toList.reverse
        simpa [rest] using head
      simp only [rest, List.isEmpty_iff, Option.ite_none_left_eq_some, Option.some.injEq] at named
      obtain ⟨filled, suffix⟩ := named
      have letters : (name.toList.reverse.takeWhile (· != '.')).reverse = ['t', 's'] := by
        rw [← String.toList_ofList (l := List.reverse _), suffix]
        rfl
      have backwards : name.toList = stem.reverse ++ ['.', 't', 's'] := by
        rw [← List.reverse_reverse name.toList, ← parts, rest, isDot, List.reverse_append, letters]
        simp
      refine ⟨String.ofList stem.reverse, by simpa using filled, ?_⟩
      rw [← String.toList_inj, backwards]
      simp
  · rintro ⟨stem, filled, rfl⟩
    simp [filled]

/-- Sorted texts ascend. -/
theorem ascending_mergeSort (texts : List String) :
    (texts.mergeSort (· ≤ ·)).Pairwise (· ≤ ·) := by
  have transitive (a b c : String) (first : decide (a ≤ b) = true) (second : decide (b ≤ c) = true) :
      decide (a ≤ c) = true :=
    decide_eq_true (le_trans (of_decide_eq_true first) (of_decide_eq_true second))
  have total (a b : String) : (decide (a ≤ b) || decide (b ≤ a)) = true := by
    simpa using le_total a b
  exact (List.pairwise_mergeSort transitive total texts).imp of_decide_eq_true

/-- Texts are sorted alike whatever order they come in. -/
theorem mergeSort_eq_of_perm {texts others : List String} (same : texts.Perm others) :
    texts.mergeSort (· ≤ ·) = others.mergeSort (· ≤ ·) := by
  have sorted : (texts.mergeSort (· ≤ ·)).Perm (others.mergeSort (· ≤ ·)) :=
    (List.mergeSort_perm _ _).trans (same.trans (List.mergeSort_perm _ _).symm)
  exact sorted.eq_of_pairwise (fun a b _ _ => le_antisymm) (ascending_mergeSort texts)
    (ascending_mergeSort others)

namespace FileTree

variable {tree other : FileTree} {directory : String}

/-- The file of a name in a directory, if it is one. -/
def fileNamed? (tree : FileTree) (directory name : String) : Option NamedFile :=
  match tree.read (Path.join directory name) with
  | .ok bytes => some ⟨name, bytes⟩
  | .error _ => none

/-- The catalog files among some names of a directory, in the order in which they are
loaded. -/
def catalogFiles (tree : FileTree) (directory : String) (names : List String) :
    List NamedFile :=
  ((names.filter TranslatorSet.isCatalogName).mergeSort (· ≤ ·)).filterMap
    (tree.fileNamed? directory)

/-- A path names a file exactly if it can be read. -/
theorem kind_eq_file_iff {path : String} :
    tree.kind path = .ok .file ↔ ∃ bytes, tree.read path = .ok bytes := by
  unfold kind read
  cases tree.locate path with
  | error fault => simp [Except.map]
  | ok found =>
    obtain ⟨place, entry⟩ := found
    cases entry <;> simp [Except.map, FileEntry.kind]

/-- Looking for a file changes nothing. -/
theorem run_isFile (tree : FileTree) (directory name : String) :
    disk.isFile (Path.join directory name) tree = ((tree.fileNamed? directory name).isSome, tree) := by
  have looks : disk.kind (Path.join directory name) tree =
      (tree.kind (Path.join directory name), tree) := rfl
  rw [Disk.isFile, Disk.run_bind, looks, fileNamed?]
  dsimp only
  cases read : tree.read (Path.join directory name) with
  | ok bytes =>
    rw [kind_eq_file_iff.mpr ⟨bytes, read⟩]
    rfl
  | error fault =>
    have none : tree.kind (Path.join directory name) ≠ .ok .file := fun file => by
      obtain ⟨bytes, found⟩ := kind_eq_file_iff.mp file
      rw [read] at found
      contradiction
    cases found : tree.kind (Path.join directory name) with
    | error cause => rfl
    | ok kind =>
      cases kind with
      | file => exact absurd found none
      | directory => rfl

/-- The file of a name has the name, and the bytes that are read. -/
theorem fileNamed?_eq_some_iff {name : String} {file : NamedFile} :
    tree.fileNamed? directory name = some file ↔
      file.name = name ∧ tree.read (Path.join directory name) = .ok file.bytes := by
  obtain ⟨own, bytes⟩ := file
  unfold fileNamed?
  cases tree.read (Path.join directory name) with
  | error fault => simp
  | ok found => simp [eq_comm]

/-- The paths of the catalog files are found without a change. -/
theorem run_catalogFiles (tree : FileTree) (directory : String) (names : List String) :
    TranslatorSet.catalogFiles disk directory names tree =
      ((tree.catalogFiles directory names).map fun file => Path.join directory file.name, tree) := by
  have looks (name : String) :
      (do if ← disk.isFile (Path.join directory name) then
            pure (some (Path.join directory name)) else pure none : StateM FileTree _) tree =
        ((tree.fileNamed? directory name).map fun file => Path.join directory file.name, tree) := by
    rw [Disk.run_bind, run_isFile]
    cases found : tree.fileNamed? directory name with
    | none => rfl
    | some file =>
      rw [Option.map_some, (fileNamed?_eq_some_iff.mp found).1]
      rfl
  rw [TranslatorSet.catalogFiles, catalogFiles]
  induction (names.filter TranslatorSet.isCatalogName).mergeSort (· ≤ ·) with
  | nil => rfl
  | cons name rest ih =>
    rw [List.filterMapM_cons, Disk.run_bind, looks]
    cases found : tree.fileNamed? directory name with
    | none =>
      rw [List.filterMap_cons_none found]
      exact ih
    | some file =>
      rw [List.filterMap_cons_some found, List.map_cons]
      dsimp only [Option.map_some]
      rw [Disk.run_bind, ih]
      rfl

/-- Files that can be read are added without a change of the disk. -/
theorem run_insertFiles {policy : Policy} {includeUnfinished : Bool} {set : TranslatorSet}
    {files : List NamedFile}
    (readable : ∀ file ∈ files, tree.read (Path.join directory file.name) = .ok file.bytes) :
    TranslatorSet.insertFiles disk policy includeUnfinished set
        (files.map fun file => Path.join directory file.name) tree =
      (set.insertAll policy includeUnfinished directory files, tree) := by
  induction files generalizing set with
  | nil => rfl
  | cons file rest ih =>
    obtain ⟨here, behind⟩ := List.forall_mem_cons.mp readable
    have reads : disk.read (Path.join directory file.name) tree = (.ok file.bytes, tree) := by
      rw [← here]
      rfl
    rw [List.map_cons, TranslatorSet.insertFiles_cons, reads, TranslatorSet.insertAll_cons,
      TranslatorSet.insertNamed]
    dsimp only
    cases set.insertFile policy includeUnfinished (Path.join directory file.name) file.bytes with
    | error fault => rfl
    | ok longer => exact ih behind

/-- The catalog files among some names are those with the name of a catalog file that
can be read. -/
theorem mem_catalogFiles_iff {names : List String} {file : NamedFile} :
    file ∈ tree.catalogFiles directory names ↔
      file.name ∈ names ∧ (∃ stem, stem ≠ "" ∧ file.name = stem ++ ".ts") ∧
        tree.read (Path.join directory file.name) = .ok file.bytes := by
  simp only [catalogFiles, List.mem_filterMap, List.mem_mergeSort, List.mem_filter,
    fileNamed?_eq_some_iff, ← TranslatorSet.isCatalogName_iff]
  constructor
  · rintro ⟨name, ⟨listed, own⟩, rfl, read⟩
    exact ⟨listed, own, read⟩
  · rintro ⟨listed, own, read⟩
    exact ⟨file.name, ⟨listed, own⟩, rfl, read⟩

/-- The catalog files of a directory are the first that are loaded into no translators. -/
theorem run_loadDirectory {names : List String} (listed : tree.list directory = .ok names)
    (policy : Policy) (includeUnfinished : Bool) :
    TranslatorSet.loadDirectory disk policy includeUnfinished directory tree =
      (TranslatorSet.empty.insertAll policy includeUnfinished directory
        (tree.catalogFiles directory names), tree) := by
  have lists : disk.list directory tree = (.ok names, tree) := by
    rw [← listed]
    rfl
  rw [TranslatorSet.loadDirectory, Disk.run_bind, lists]
  dsimp only
  rw [Disk.run_bind, run_catalogFiles]
  exact run_insertFiles fun file member => (mem_catalogFiles_iff.mp member).2.2

/-- Catalog files of different names stand in ascending order of the bytes of their
names. -/
theorem ascending_catalogFiles {names : List String} (distinct : names.Nodup) :
    (tree.catalogFiles directory names).Pairwise fun first second =>
      Utf8.bytes first.name < Utf8.bytes second.name := by
  have sorted := ascending_mergeSort (names.filter TranslatorSet.isCatalogName)
  have once : ((names.filter TranslatorSet.isCatalogName).mergeSort (· ≤ ·)).Nodup :=
    (List.mergeSort_perm _ _).nodup_iff.mpr (distinct.filter _)
  have strict := sorted.and once
  refine strict.filterMap _ fun first second ⟨least, differ⟩ file found other also => ?_
  rw [(fileNamed?_eq_some_iff.mp found).1, (fileNamed?_eq_some_iff.mp also).1,
    ← Utf8.lt_iff_bytes_lt]
  exact lt_of_le_of_ne least differ

/-! ## The order of listing -/

/-- A tree holds no two entries at one place. -/
def Distinct (tree : FileTree) : Prop := (tree.entries.map Prod.fst).Nodup

instance (tree : FileTree) : Decidable tree.Distinct := inferInstanceAs (Decidable (List.Nodup _))

/-- A tree with the same entries has the same at every place. -/
theorem entry?_eq_of_perm (distinct : tree.Distinct) (same : tree.entries.Perm other.entries)
    (place : FilePlace) : tree.entry? place = other.entry? place := by
  have met : tree.entries.find? (·.1 == place) = other.entries.find? (·.1 == place) :=
    find?_eq_of_perm same fun first member second also here there =>
      List.inj_on_of_nodup_map distinct member also
        ((eq_of_beq here).trans (eq_of_beq there).symm)
  unfold entry?
  rw [met]

/-- A way leads to the same place. -/
theorem walk_eq_of_perm (distinct : tree.Distinct) (same : tree.entries.Perm other.entries)
    (place : FilePlace) (steps : List String) : tree.walk place steps = other.walk place steps := by
  induction steps generalizing place with
  | nil => rfl
  | cons step rest ih =>
    rw [walk, walk, entry?_eq_of_perm distinct same place]
    split
    · rfl
    · rfl
    · exact ih _

/-- A path names the same. -/
theorem locate_eq_of_perm (distinct : tree.Distinct) (same : tree.entries.Perm other.entries)
    (path : String) : tree.locate path = other.locate path := by
  have found : tree.find path = other.find path := by
    rw [find, find, walk_eq_of_perm distinct same]
  rw [locate, locate, found]
  simp only [entry?_eq_of_perm distinct same]

/-- The same is read. -/
theorem read_eq_of_perm (distinct : tree.Distinct) (same : tree.entries.Perm other.entries)
    (path : String) : tree.read path = other.read path := by
  rw [read, read, locate_eq_of_perm distinct same]

/-- A place is told by the one around it and its last name. -/
theorem eq_of_outer_eq {place found : FilePlace} {name : String}
    (outer : place.outer = found.outer) (last : place.names.getLast? = some name)
    (lastToo : found.names.getLast? = some name) : place = found := by
  have rebuilt (place : FilePlace) (last : place.names.getLast? = some name) :
      place = ⟨place.outer.levels, place.outer.names ++ [name]⟩ := by
    have filled : place.names.isEmpty = false := by
      cases names : place.names with
      | nil => simp [names] at last
      | cons => rfl
    rw [FilePlace.outer, filled, if_neg Bool.false_ne_true, List.dropLast_append_getLast? name last]
  rw [rebuilt place last, rebuilt found lastToo, outer]

/-- The names in a directory are listed once each. -/
theorem nodup_namesIn (distinct : tree.Distinct) (place : FilePlace) :
    (tree.namesIn place).Nodup := by
  have listed : tree.namesIn place = (tree.entries.map Prod.fst).filterMap fun found =>
      if found.outer == place then found.names.getLast? else none := by
    rw [List.filterMap_map]
    rfl
  rw [listed]
  refine distinct.filterMap fun first second name here there => ?_
  rw [Option.mem_def, Option.ite_none_right_eq_some, beq_iff_eq] at here there
  exact eq_of_outer_eq (here.1.trans there.1.symm) here.2 there.2

/-- The names in a directory are listed once each. -/
theorem nodup_of_list (distinct : tree.Distinct) {names : List String}
    (listed : tree.list directory = .ok names) : names.Nodup := by
  unfold list at listed
  split at listed
  · contradiction
  next place _ =>
    rw [← Except.ok.inj listed]
    exact nodup_namesIn distinct place
  · contradiction

/-- A directory with the same entries is listed in another order at most. -/
theorem list_of_perm (distinct : tree.Distinct) (same : tree.entries.Perm other.entries)
    (directory : String) :
    (∃ fault, tree.list directory = .error fault ∧ other.list directory = .error fault) ∨
      ∃ names others, tree.list directory = .ok names ∧ other.list directory = .ok others ∧
        names.Perm others := by
  unfold list
  rw [← locate_eq_of_perm distinct same]
  split
  next fault _ => exact .inl ⟨fault, rfl, rfl⟩
  next place _ => exact .inr ⟨_, _, rfl, rfl, same.filterMap _⟩
  next => exact .inl ⟨_, rfl, rfl⟩

/-- The catalog files of a directory are the same in whatever order they are listed. -/
theorem catalogFiles_eq_of_perm (distinct : tree.Distinct)
    (same : tree.entries.Perm other.entries) {names others : List String}
    (listing : names.Perm others) :
    tree.catalogFiles directory names = other.catalogFiles directory others := by
  have found : tree.fileNamed? directory = other.fileNamed? directory := by
    funext name
    rw [fileNamed?, fileNamed?, read_eq_of_perm distinct same]
  rw [catalogFiles, catalogFiles, found, mergeSort_eq_of_perm (listing.filter _)]

/-- What is loaded of a directory. -/
def loaded (tree : FileTree) (policy : Policy) (includeUnfinished : Bool) (directory : String) :
    Except CatalogError TranslatorSet :=
  (TranslatorSet.loadDirectory disk policy includeUnfinished directory tree).1

/-- The same is loaded in whatever order a directory is listed. -/
theorem loaded_eq_of_perm (distinct : tree.Distinct) (same : tree.entries.Perm other.entries)
    (policy : Policy) (includeUnfinished : Bool) (directory : String) :
    tree.loaded policy includeUnfinished directory =
      other.loaded policy includeUnfinished directory := by
  rw [loaded, loaded]
  rcases list_of_perm distinct same directory with
    ⟨fault, failed, failedToo⟩ | ⟨names, others, listed, listedToo, listing⟩
  · have fails {tree : FileTree} (failed : tree.list directory = .error fault) :
        disk.list directory tree = (.error fault, tree) := by
      rw [← failed]
      rfl
    rw [TranslatorSet.loadDirectory, Disk.run_bind, Disk.run_bind, fails failed, fails failedToo]
    cases fault <;> rfl
  · rw [run_loadDirectory listed, run_loadDirectory listedToo,
      catalogFiles_eq_of_perm distinct same listing]

end FileTree

open TranslatorSet in
/-- Loading a directory does not depend on the order in which it is listed. The files
that count are those with a name that ends in `.ts`, and is longer, that can be read,
in ascending order of the bytes of their names. If each of them holds a catalog with
a language and no two languages are the same, their translators are what is loaded,
in that order and with none active, and otherwise the fault is that of the first file
for which this fails. -/
theorem FileTree.loaded_independent_of_listing {tree : FileTree} (distinct : tree.Distinct)
    (policy : Policy) (includeUnfinished : Bool) (directory : String) :
    (∀ other : FileTree, tree.entries.Perm other.entries →
      other.loaded policy includeUnfinished directory =
        tree.loaded policy includeUnfinished directory) ∧
    ∀ names, tree.list directory = .ok names →
      ∃ files : List NamedFile,
        (∀ file, file ∈ files ↔ file.name ∈ names ∧
          (∃ stem, stem ≠ "" ∧ file.name = stem ++ ".ts") ∧
          tree.read (Path.join directory file.name) = .ok file.bytes) ∧
        files.Pairwise (fun first second => Utf8.bytes first.name < Utf8.bytes second.name) ∧
        (∀ set, tree.loaded policy includeUnfinished directory = .ok set ↔
          Loaded policy includeUnfinished files set) ∧
        ∀ fault, tree.loaded policy includeUnfinished directory = .error fault ↔
          ∃ before file after between, files = before ++ file :: after ∧
            Loaded policy includeUnfinished before between ∧
            Rejected policy directory between.languages file fault := by
  refine ⟨fun other same => (loaded_eq_of_perm distinct same _ _ _).symm, fun names listed =>
    ⟨tree.catalogFiles directory names, fun file => mem_catalogFiles_iff,
      ascending_catalogFiles (nodup_of_list distinct listed), fun set => ?_, fun fault => ?_⟩⟩
  · rw [FileTree.loaded, run_loadDirectory listed]
    exact insertAll_empty_eq_ok_iff
  · rw [FileTree.loaded, run_loadDirectory listed]
    rw [insertAll_eq_error_iff]
    refine exists_congr fun before => exists_congr fun file => exists_congr fun after =>
      exists_congr fun between => and_congr_right fun _ => ?_
    rw [insertAll_empty_eq_ok_iff]
    exact and_congr_right fun loaded => insertNamed_eq_error_iff (wellFormed_of_loaded loaded)

namespace FileTree

/-- A German catalog, a French one and a note. -/
def germanBeforeFrench : FileTree :=
  ⟨[(⟨0, ["b.ts"]⟩, .file "<TS language='de'></TS>".toUTF8),
    (⟨0, ["a.ts"]⟩, .file "<TS language='fr'></TS>".toUTF8),
    (⟨0, ["note.txt"]⟩, .file "<TS>".toUTF8)]⟩

/-- The same files in another order. -/
def frenchBeforeGerman : FileTree :=
  ⟨[(⟨0, ["a.ts"]⟩, .file "<TS language='fr'></TS>".toUTF8),
    (⟨0, ["b.ts"]⟩, .file "<TS language='de'></TS>".toUTF8),
    (⟨0, ["note.txt"]⟩, .file "<TS>".toUTF8)]⟩

/-- French comes first from either of them: its file has the lower name. -/
theorem french_loaded_first :
    germanBeforeFrench.Distinct ∧ ∃ set files,
      germanBeforeFrench.loaded .strict true "." = .ok set ∧
      frenchBeforeGerman.loaded .strict true "." = .ok set ∧
      set.languages = ["fr", "de"] ∧ TranslatorSet.Loaded .strict true files set := by
  have distinct : germanBeforeFrench.Distinct := by decide
  have swapped : germanBeforeFrench.entries.Perm frenchBeforeGerman.entries := .swap _ _ _
  have listed : germanBeforeFrench.list "." = .ok ["b.ts", "a.ts", "note.txt"] := rfl
  obtain ⟨alike, directory⟩ := loaded_independent_of_listing distinct .strict true "."
  obtain ⟨files, _, _, succeeds, _⟩ := directory _ listed
  have counted : ["b.ts", "a.ts", "note.txt"].filter TranslatorSet.isCatalogName =
      ["b.ts", "a.ts"] := by
    decide +kernel
  have sorted : (["b.ts", "a.ts"].mergeSort (· ≤ ·)) = ["a.ts", "b.ts"] :=
    (mergeSort_eq_of_perm (.swap _ _ _)).trans (List.mergeSort_of_pairwise (by decide +kernel))
  have languages : ((germanBeforeFrench.loaded .strict true ".").map
      TranslatorSet.languages).toOption = some ["fr", "de"] := by
    rw [loaded, run_loadDirectory listed, catalogFiles, counted, sorted]
    decide +kernel
  cases result : germanBeforeFrench.loaded .strict true "." with
  | error fault =>
    rw [result] at languages
    contradiction
  | ok set =>
    rw [result] at languages
    exact ⟨distinct, set, files, rfl, (alike _ swapped).trans result, Option.some.inj languages,
      (succeeds set).mp result⟩

end FileTree

end MessageCatalog
