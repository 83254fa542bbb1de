import MessageCatalog.FileTree

/-!
# What file operations leave behind

Operations on a file tree only add to it. A path that leads somewhere leads to
the same place afterwards, directories stay directories, and every file but the
one that is written keeps its bytes. What was written is what is read.
-/

namespace MessageCatalog

namespace FilePlace

/-- A dot leads nowhere. -/
@[simp]
theorem step_dot (place : FilePlace) : place.step "." = place := if_pos rfl

end FilePlace

namespace FileTree

variable {tree after : FileTree}

/-! ## Entries -/

/-- Entries that are replaced stay where they are. -/
theorem key_comp_replace (place other : FilePlace) (entry : FileEntry) :
    ((fun found : FilePlace × FileEntry => found.1 == other) ∘
      fun old => if old.1 == place then (place, entry) else old) = fun old => old.1 == other := by
  funext old
  by_cases at_place : old.1 = place <;> simp [at_place]

/-- What was put at a place below a directory is found there. -/
theorem entry?_put_self {place : FilePlace} (below : place.names ≠ []) (entry : FileEntry) :
    FileTree.entry? (tree.put place entry) place = some entry := by
  have inside : place.names.isEmpty = false := by simpa using below
  unfold FileTree.entry?
  rw [if_neg (by simp [inside]), put]
  split
  next present =>
    rw [List.find?_map, key_comp_replace]
    obtain ⟨old, member, there⟩ := List.any_eq_true.mp present
    cases found : tree.entries.find? fun old => old.1 == place with
    | none => exact absurd there (List.find?_eq_none.mp found old member)
    | some first =>
      have first_there := List.find?_some found
      simp only [Option.map_some, first_there, if_true]
  next absent =>
    have none : tree.entries.find? (fun old => old.1 == place) = none :=
      List.find?_eq_none.mpr fun old member there => absent (List.any_eq_true.mpr ⟨old, member, there⟩)
    rw [List.find?_append, none, Option.none_or]
    simp

/-- What was put somewhere is found nowhere else. -/
theorem entry?_put_other {place other : FilePlace} (differs : other ≠ place) (entry : FileEntry) :
    FileTree.entry? (tree.put place entry) other = tree.entry? other := by
  unfold entry?
  split
  · rfl
  · congr 1
    unfold put
    split
    · rw [List.find?_map, key_comp_replace]
      cases found : tree.entries.find? fun old => old.1 == other with
      | none => rfl
      | some first =>
        have there : first.1 = other := by simpa using List.find?_some found
        simp [there, differs]
    · rw [List.find?_append]
      simp [Ne.symm differs]

/-- Putting the same entry at a place again changes nothing. Whatever is at the place
already is the entry itself. -/
theorem put_put (tree : FileTree) (place : FilePlace) (entry : FileEntry) :
    (tree.put place entry).put place entry = tree.put place entry := by
  have present : ((tree.put place entry).entries.any (·.1 == place)) = true := by
    unfold put
    split
    next present =>
      obtain ⟨old, member, there⟩ := List.any_eq_true.mp present
      refine List.any_eq_true.mpr ⟨(place, entry), List.mem_map.mpr ⟨old, member, ?_⟩, by simp⟩
      rw [if_pos there]
    next => simp
  have same : ((tree.put place entry).entries.map fun old =>
      if old.1 == place then (place, entry) else old) = (tree.put place entry).entries := by
    refine (List.map_congr_left fun old member => ?_).trans (List.map_id _)
    split
    next there =>
      unfold put at member
      split at member
      next =>
        obtain ⟨older, _, rfl⟩ := List.mem_map.mp member
        split at there <;> simp_all
      next absent =>
        rcases List.mem_append.mp member with earlier | last
        · exact absurd (List.any_eq_true.mpr ⟨old, earlier, there⟩) absent
        · exact (List.mem_singleton.mp last).symm
    next => rfl
  rw [put, if_pos present, same]

/-! ## Paths -/

/-- All directories of a tree are directories of another one. -/
def KeepsDirectories (tree after : FileTree) : Prop :=
  ∀ place, tree.entry? place = some .directory → after.entry? place = some .directory

/-- Two ways are gone one behind the other. -/
theorem walk_append {place found : FilePlace} {first second : List String} :
    tree.walk place (first ++ second) = .ok found ↔
      ∃ between, tree.walk place first = .ok between ∧ tree.walk between second = .ok found := by
  induction first generalizing place with
  | nil => simp [walk]
  | cons step rest ih =>
    simp only [List.cons_append, walk]
    cases tree.entry? place with
    | none => simp
    | some entry =>
      cases entry with
      | file content => simp
      | directory => exact ih

/-- The last step of a way leads out of a directory. -/
theorem walk_concat {place found : FilePlace} {steps : List String} {step : String} :
    tree.walk place (steps ++ [step]) = .ok found ↔
      ∃ around, tree.walk place steps = .ok around ∧ tree.entry? around = some .directory ∧
        found = around.step step := by
  rw [walk_append]
  simp only [walk]
  refine exists_congr fun around => and_congr_right fun _ => ?_
  cases tree.entry? around with
  | none => simp
  | some entry => cases entry <;> simp [eq_comm]

/-- A way through directories stays one. -/
theorem walk_of_keeps (keeps : tree.KeepsDirectories after) {place found : FilePlace}
    {steps : List String} (h : tree.walk place steps = .ok found) :
    after.walk place steps = .ok found := by
  induction steps generalizing place with
  | nil => exact h
  | cons step rest ih =>
    unfold walk at h ⊢
    split at h
    · exact absurd h (by simp)
    · exact absurd h (by simp)
    next directory =>
      rw [keeps place directory]
      exact ih h

/-- A path leads where it led before. -/
theorem find_of_keeps (keeps : tree.KeepsDirectories after) {path : String} {place : FilePlace}
    (h : tree.find path = .ok place) : after.find path = .ok place := by
  unfold find at h ⊢
  split
  next empty => rw [if_pos empty] at h; exact absurd h (by simp)
  next named =>
    rw [if_neg named] at h
    exact walk_of_keeps keeps h

/-- A file can be read when its path leads to it and is that of a file. -/
theorem read_eq_ok {path : String} {content : ByteArray} :
    tree.read path = .ok content ↔
      ∃ place, tree.find path = .ok place ∧ tree.entry? place = some (.file content) ∧
        Path.endsWithSlash path = false := by
  unfold read locate
  cases tree.find path with
  | error fault => simp
  | ok place =>
    simp only [Except.ok.injEq, exists_eq_left']
    cases tree.entry? place with
    | none => simp
    | some entry =>
      cases entry with
      | directory => simp
      | file found => cases Path.endsWithSlash path <;> simp

/-- A path names a directory when it leads to one. -/
theorem kind_of_directory {path : String} {place : FilePlace} (found : tree.find path = .ok place)
    (directory : tree.entry? place = some .directory) : tree.kind path = .ok .directory := by
  unfold kind locate
  rw [found]
  dsimp only
  rw [directory]
  rfl

/-! ## New directories -/

/-- All entries of a tree are entries of another one. -/
def Extends (tree after : FileTree) : Prop :=
  ∀ place entry, tree.entry? place = some entry → after.entry? place = some entry

namespace Extends

/-- A tree has its own entries. -/
theorem refl (tree : FileTree) : tree.Extends tree := fun _ _ h => h

/-- Entries that stay twice stay. -/
theorem trans {between : FileTree} (first : tree.Extends between) (second : between.Extends after) :
    tree.Extends after :=
  fun place entry h => second place entry (first place entry h)

/-- Where all entries stay, directories do. -/
theorem keeps (h : tree.Extends after) : tree.KeepsDirectories after := fun place => h place .directory

end Extends

/-- A new directory takes no entry away. -/
theorem makeDirectory_extends {path : String} (h : tree.makeDirectory path = .ok after) :
    tree.Extends after := by
  unfold makeDirectory at h
  split at h
  · exact absurd h (by simp)
  next place found =>
    split at h
    · exact absurd h (by simp)
    next absent =>
      injection h with h
      intro other entry there
      have differs : other ≠ place := by
        rintro rfl
        rw [absent] at there
        exact absurd there (by simp)
      rw [← h, entry?_put_other differs]
      exact there

/-- What counts where a directory was not created: whether there is one already. -/
def settled (tree : FileTree) (path : String) (fault : DiskError) : Except DiskError Unit :=
  match tree.kind path with
  | .ok .directory => .ok ()
  | _ => .error fault

/-- Looking whether there is a directory changes nothing. -/
theorem run_settled (tree : FileTree) (path : String) (fault : DiskError) :
    (do if ← disk.isDirectory path then pure (.ok ()) else pure (.error fault) :
      StateM FileTree (Except DiskError Unit)) tree = (tree.settled path fault, tree) := by
  have looks : disk.kind path tree = (tree.kind path, tree) := rfl
  rw [Disk.run_bind, Disk.isDirectory, Disk.run_bind, looks, settled]
  dsimp only
  cases tree.kind path with
  | error fault => rfl
  | ok kind => cases kind <;> rfl

/-- A directory is created at once, or after those around it. -/
theorem makeOutward_cons (tree : FileTree) (path : String) (outer : List String) :
    disk.makeOutward (path :: outer) tree =
      match tree.makeDirectory path with
      | .ok made => (.ok (), made)
      | .error .notFound =>
        match disk.makeOutward outer tree with
        | (.error fault, around) => (.error fault, around)
        | (.ok (), around) =>
          match around.makeDirectory path with
          | .ok made => (.ok (), made)
          | .error fault => (around.settled path fault, around)
      | .error fault => (tree.settled path fault, tree) := by
  have makes (tree : FileTree) : disk.makeDirectory path tree =
      match tree.makeDirectory path with
      | .ok made => (.ok (), made)
      | .error fault => (.error fault, tree) := rfl
  rw [Disk.makeOutward, Disk.run_bind, makes]
  cases tree.makeDirectory path with
  | ok made => rfl
  | error fault =>
    cases fault with
    | notFound =>
      dsimp only
      rw [Disk.run_bind]
      rcases disk.makeOutward outer tree with ⟨_ | _, around⟩
      · rfl
      · dsimp only
        rw [Disk.run_bind, makes]
        cases around.makeDirectory path with
        | ok made => rfl
        | error fault => exact run_settled around path fault
    | alreadyExists | notDirectory | isDirectory | other => exact run_settled tree path _

/-- However many directories are created, no entry is taken away. -/
theorem makeOutward_extends (tree : FileTree) (paths : List String) :
    tree.Extends (disk.makeOutward paths tree).2 := by
  induction paths with
  | nil => exact .refl tree
  | cons path outer ih =>
    rw [makeOutward_cons]
    split
    next made => exact makeDirectory_extends made
    next =>
      rcases found : disk.makeOutward outer tree with ⟨_ | _, around⟩
      all_goals rw [found] at ih
      · exact ih
      · dsimp only
        split
        next made => exact ih.trans (makeDirectory_extends made)
        next => exact ih
    next => exact .refl tree

/-- The tree with a directory and all that were missing around it, if they can be
created. -/
def withDirectories (tree : FileTree) (path : String) : Except DiskError FileTree :=
  match disk.makeDirectories path tree with
  | (.ok (), ready) => .ok ready
  | (.error fault, _) => .error fault

/-- A tree with a directory is what creating the directory leaves behind. -/
theorem withDirectories_eq_ok {path : String} :
    tree.withDirectories path = .ok after ↔ disk.makeDirectories path tree = (.ok (), after) := by
  unfold withDirectories
  rcases disk.makeDirectories path tree with ⟨_ | _, ready⟩
  · refine iff_of_false (by simp) fun same => ?_
    injection same with failed
    exact absurd failed (by simp)
  · constructor
    · intro same
      injection same with same
      rw [same]
    · intro same
      injection same with _ same
      rw [same]

/-- Directories that are created take no entry away. -/
theorem withDirectories_extends {path : String} (h : tree.withDirectories path = .ok after) :
    tree.Extends after := by
  have grows := makeOutward_extends tree (Path.ancestors path)
  have made := withDirectories_eq_ok.mp h
  rw [Disk.makeDirectories] at made
  rw [made] at grows
  exact grows

/-- A directory that exists is created without a change. -/
theorem withDirectories_of_directory {path : String} {place : FilePlace}
    (found : tree.find path = .ok place) (directory : tree.entry? place = some .directory) :
    tree.withDirectories path = .ok tree := by
  have named : path ≠ "" := by
    rintro rfl
    exact absurd found (by simp [find])
  have ancestors : ∃ outer, Path.ancestors path = path :: outer := by
    unfold Path.ancestors
    cases size : path.length with
    | zero => exact absurd (String.length_eq_zero_iff.mp size) named
    | succ count => exact ⟨_, by rw [Path.outward, if_neg named]⟩
  have exists_already : tree.makeDirectory path = .error .alreadyExists := by
    unfold makeDirectory
    rw [found]
    dsimp only
    rw [directory]
  obtain ⟨outer, ancestors⟩ := ancestors
  unfold withDirectories Disk.makeDirectories
  rw [ancestors, makeOutward_cons, exists_already]
  simp only [settled, kind_of_directory found directory]

/-! ## Written files -/

/-- A file can be written where a path leads that is not that of a directory. -/
theorem write_eq_ok {path : String} {content : ByteArray} :
    tree.write path content = .ok after ↔
      ∃ place, tree.find path = .ok place ∧ tree.entry? place ≠ some .directory ∧
        Path.endsWithSlash path = false ∧ after = tree.put place (.file content) := by
  unfold write
  cases tree.find path with
  | error fault => simp
  | ok place =>
    simp only [Except.ok.injEq, exists_eq_left']
    cases Path.endsWithSlash path with
    | true => simp
    | false =>
      cases tree.entry? place with
      | none => simp [eq_comm]
      | some entry => cases entry <;> simp [eq_comm]

/-- Whatever the bytes are, they can be written where there is no directory. -/
theorem write_of_free {path : String} {place : FilePlace} (found : tree.find path = .ok place)
    (free : tree.entry? place ≠ some .directory) (file : Path.endsWithSlash path = false)
    (content : ByteArray) : tree.write path content = .ok (tree.put place (.file content)) :=
  write_eq_ok.mpr ⟨place, found, free, file, rfl⟩

/-- A file that can be written is written. -/
theorem write_disk {path : String} {content : ByteArray}
    (h : tree.write path content = .ok after) : disk.write path content tree = (.ok (), after) := by
  have writes : disk.write path content tree =
      match tree.write path content with
      | .ok changed => (.ok (), changed)
      | .error fault => (.error fault, tree) := rfl
  rw [writes, h]

/-- What is no directory lies below one. -/
theorem names_ne_nil {place : FilePlace} (h : tree.entry? place ≠ some .directory) :
    place.names ≠ [] := by
  rintro top
  unfold FileTree.entry? at h
  exact h (if_pos (by rw [top]; rfl))

/-- A written file takes no directory away. -/
theorem keeps_of_write {path : String} {content : ByteArray}
    (h : tree.write path content = .ok after) : tree.KeepsDirectories after := by
  obtain ⟨place, _, free, _, rfl⟩ := write_eq_ok.mp h
  intro other directory
  have differs : other ≠ place := by
    rintro rfl
    exact free directory
  rw [entry?_put_other differs]
  exact directory

/-- What was written is what is read. -/
theorem read_of_write {path : String} {content : ByteArray}
    (h : tree.write path content = .ok after) : after.read path = .ok content := by
  have keeps := keeps_of_write h
  obtain ⟨place, found, free, file, rfl⟩ := write_eq_ok.mp h
  exact read_eq_ok.mpr
    ⟨place, find_of_keeps keeps found, entry?_put_self (names_ne_nil free) _, file⟩

/-- Writing the same bytes again changes nothing. -/
theorem write_again {path : String} {content : ByteArray}
    (h : tree.write path content = .ok after) : after.write path content = .ok after := by
  have keeps := keeps_of_write h
  obtain ⟨place, found, free, file, rfl⟩ := write_eq_ok.mp h
  refine (write_of_free (find_of_keeps keeps found) ?_ file content).trans ?_
  · rw [entry?_put_self (names_ne_nil free)]
    simp
  · rw [put_put]

/-- Every other file keeps its bytes. -/
theorem read_other_of_write {path other : String} {content bytes : ByteArray}
    (h : tree.write path content = .ok after) (read : tree.read other = .ok bytes)
    (differs : after.find other ≠ after.find path) : after.read other = .ok bytes := by
  have keeps := keeps_of_write h
  obtain ⟨place, found, free, file, rfl⟩ := write_eq_ok.mp h
  obtain ⟨there, led, entry, file'⟩ := read_eq_ok.mp read
  have apart : there ≠ place := by
    rintro rfl
    exact differs (by rw [find_of_keeps keeps led, find_of_keeps keeps found])
  exact read_eq_ok.mpr
    ⟨there, find_of_keeps keeps led, by rw [entry?_put_other apart]; exact entry, file'⟩

end FileTree

end MessageCatalog
