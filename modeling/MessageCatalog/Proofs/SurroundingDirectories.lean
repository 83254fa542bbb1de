import Mathlib.Data.List.DropRight
import MessageCatalog.Proofs.FileTreeRuns

/-!
# The directory around a file

The parent of a path leaves out its last step. Where a file can be read, the
parent of its path leads to a directory, so the file can be written as well: no
directory is missing around it.
-/

namespace MessageCatalog

namespace Path

/-- The characters of a part are not those that part parts. -/
theorem slash_notMem_of_mem_splitOn {text piece : List Char} (h : piece ∈ text.splitOn '/') :
    '/' ∉ piece := by
  induction text generalizing piece with
  | nil =>
    rw [List.splitOn_nil, List.mem_singleton] at h
    simp [h]
  | cons c rest ih =>
    rw [List.splitOn_cons_eq_if_modifyHead] at h
    split at h
    · rcases List.mem_cons.mp h with rfl | later
      · simp
      · exact ih later
    next other =>
      obtain ⟨first, more, parts⟩ := List.exists_cons_of_ne_nil (List.splitOn_ne_nil '/' rest)
      rw [parts, List.modifyHead_cons] at h
      rcases List.mem_cons.mp h with rfl | later
      · have apart : '/' ≠ c := fun same => other (beq_iff_eq.mpr same.symm)
        rw [List.mem_cons, not_or]
        exact ⟨apart, ih (by rw [parts]; exact List.mem_cons_self)⟩
      · exact ih (by rw [parts]; exact List.mem_cons_of_mem _ later)

/-- No part of a path has a slash. -/
theorem slash_notMem_piece {path piece : String} (h : piece ∈ pieces path) : '/' ∉ piece.toList := by
  obtain ⟨part, member, rfl⟩ := List.mem_map.mp h
  rw [String.toList_ofList]
  exact slash_notMem_of_mem_splitOn member

/-- The parts with slashes between them are the path. -/
theorem intercalate_pieces (path : String) : "/".intercalate (pieces path) = path := by
  rw [← String.toList_inj, String.toList_intercalate, pieces, List.map_map]
  have same : String.toList ∘ String.ofList = id := by
    funext part
    exact String.toList_ofList
  rw [same, List.map_id]
  exact List.intercalate_splitOn '/'

/-- Parts without slashes are the parts of what they make with slashes between them. -/
theorem pieces_intercalate {parts : List String} (inhabited : parts ≠ [])
    (plain : ∀ part ∈ parts, '/' ∉ part.toList) : pieces ("/".intercalate parts) = parts := by
  have split : (['/'].intercalate (parts.map String.toList)).splitOn '/' = parts.map String.toList := by
    refine List.splitOn_intercalate '/' ?_ (by simpa using inhabited)
    intro part member
    obtain ⟨own, among, rfl⟩ := List.mem_map.mp member
    exact plain own among
  rw [pieces, String.toList_intercalate, show "/".toList = ['/'] from rfl, split, List.map_map]
  have same : String.ofList ∘ String.toList = id := by
    funext part
    exact String.ofList_toList
  rw [same, List.map_id]

/-- A path ends with its last part. -/
theorem pieces_last (path : String) : ∃ parts name, pieces path = parts ++ [name] := by
  rcases List.eq_nil_or_concat (pieces path) with empty | ⟨parts, name, last⟩
  · exact absurd empty (by simp [pieces])
  · exact ⟨parts, name, by rw [last, List.concat_eq_append]⟩

/-- A path that does not end with a slash ends with a part that is not empty. -/
theorem last_piece_ne_empty {path name : String} {parts : List String}
    (last : pieces path = parts ++ [name]) (named : path ≠ "")
    (file : endsWithSlash path = false) : name ≠ "" := by
  rintro rfl
  have whole := intercalate_pieces path
  rw [last] at whole
  cases parts with
  | nil => exact named (by simpa using whole.symm)
  | cons first more =>
    rw [String.intercalate_append_of_ne_nil (List.cons_ne_nil _ _) (List.cons_ne_nil _ _)] at whole
    rw [← whole] at file
    simp [endsWithSlash] at file

/-- Where the last part leads somewhere, the parent has the parts before it, the
idle ones at their end aside. -/
theorem parent_eq {path name : String} {parts : List String} (last : pieces path = parts ++ [name])
    (leads : isIdle name = false) : parent path = "/".intercalate (parts.rdropWhile isIdle) := by
  have back : (pieces path).reverse = name :: parts.reverse := by rw [last, List.reverse_concat]
  unfold parent
  rw [back, List.dropWhile_cons_of_neg (by simp [leads])]
  rfl

/-- The parts of a parent are those that it was made from. -/
theorem pieces_parent {path name : String} {parts : List String}
    (last : pieces path = parts ++ [name]) (leads : isIdle name = false)
    (inner : parts.rdropWhile isIdle ≠ []) : pieces (parent path) = parts.rdropWhile isIdle := by
  rw [parent_eq last leads]
  have front := List.rdropWhile_prefix isIdle parts
  refine pieces_intercalate inner fun part member => ?_
  have among : part ∈ pieces path := by
    rw [last]
    exact List.mem_append_left _ (front.subset member)
  exact slash_notMem_piece among

/-- A parent that is made from some parts is not empty. -/
theorem parent_ne_empty {path name : String} {parts : List String}
    (last : pieces path = parts ++ [name]) (leads : isIdle name = false)
    (inner : parts.rdropWhile isIdle ≠ []) : parent path ≠ "" := by
  intro empty
  have single := pieces_parent last leads inner
  rw [empty, show pieces "" = [""] from rfl] at single
  have ends := List.rdropWhile_last_not isIdle parts inner
  simp only [← single] at ends
  exact ends rfl

/-- A parent starts where the path starts. -/
theorem isAbsolute_parent {path name : String} {parts : List String}
    (last : pieces path = parts ++ [name]) (leads : isIdle name = false)
    (inner : parts.rdropWhile isIdle ≠ []) : isAbsolute (parent path) = isAbsolute path := by
  have whole : path = parent path ++ "/" ++ "/".intercalate (parts.rtakeWhile isIdle ++ [name]) := by
    rw [parent_eq last leads, ← String.intercalate_append_of_ne_nil inner (by simp),
      ← List.append_assoc, List.rdropWhile_append_rtakeWhile, ← last, intercalate_pieces]
  obtain ⟨first, more, starts⟩ : ∃ first more, (parent path).toList = first :: more :=
    List.exists_cons_of_ne_nil fun none =>
      parent_ne_empty last leads inner (String.toList_eq_nil_iff.mp none)
  have same : path.toList.head? = (parent path).toList.head? := by
    conv_lhs => rw [whole]
    rw [String.toList_append, String.toList_append, starts]
    rfl
  rw [isAbsolute, isAbsolute, same]

end Path

namespace FileTree

variable {tree : FileTree}

/-- A way of idle steps leads nowhere. -/
theorem walk_idle {place found : FilePlace} {parts : List String}
    (idle : ∀ part ∈ parts, Path.isIdle part = true)
    (h : tree.walk place (parts.filter (· != "")) = .ok found) : found = place := by
  induction parts with
  | nil =>
    injection h with h
    exact h.symm
  | cons part rest ih =>
    have later := ih fun other member => idle other (List.mem_cons_of_mem _ member)
    by_cases empty : part = ""
    · rw [List.filter_cons_of_neg (by simp [empty])] at h
      exact later h
    · have dot : part = "." := by
        have := idle part List.mem_cons_self
        simpa [Path.isIdle, empty] using this
      rw [List.filter_cons_of_pos (by simp [empty]), walk] at h
      split at h
      · exact absurd h (by simp)
      · exact absurd h (by simp)
      · rw [dot, FilePlace.step_dot] at h
        exact later h

/-- The last part of a path to a file is a name. -/
theorem last_piece_of_read {path : String} {content : ByteArray}
    (read : tree.read path = .ok content) :
    ∃ parts name, Path.pieces path = parts ++ [name] ∧ Path.isIdle name = false ∧
      ∃ around, tree.walk (.base path) (parts.filter (· != "")) = .ok around ∧
        tree.entry? around = some .directory := by
  obtain ⟨place, found, entry, file⟩ := read_eq_ok.mp read
  obtain ⟨parts, name, last⟩ := Path.pieces_last path
  have named : path ≠ "" := by
    rintro rfl
    exact absurd found (by simp [find])
  have inhabited : name ≠ "" := Path.last_piece_ne_empty last named file
  have steps : Path.steps path = parts.filter (· != "") ++ [name] := by
    rw [Path.steps, last, List.filter_append, List.filter_cons_of_pos (by simp [inhabited]),
      List.filter_nil]
  rw [find, if_neg named, steps, walk_concat] at found
  obtain ⟨around, way, directory, there⟩ := found
  refine ⟨parts, name, last, ?_, around, way, directory⟩
  have leads : name ≠ "." := by
    rintro rfl
    rw [there, FilePlace.step_dot, directory] at entry
    exact absurd entry (by simp)
  simp [Path.isIdle, inhabited, leads]

/-- No directory is missing around a file that can be read. -/
theorem withDirectories_of_read {path : String} {content : ByteArray}
    (read : tree.read path = .ok content) : tree.withDirectories (Path.parent path) = .ok tree := by
  obtain ⟨parts, name, last, leads, around, way, directory⟩ := last_piece_of_read read
  by_cases inner : parts.rdropWhile Path.isIdle = []
  · rw [Path.parent_eq last leads, inner, String.intercalate_nil]
    rfl
  · refine withDirectories_of_directory ?_ directory
    rw [find, if_neg (Path.parent_ne_empty last leads inner), FilePlace.base,
      Path.isAbsolute_parent last leads inner, Path.steps, Path.pieces_parent last leads inner]
    rw [← List.rdropWhile_append_rtakeWhile (p := Path.isIdle) (l := parts), List.filter_append,
      walk_append] at way
    obtain ⟨between, front, back⟩ := way
    rw [walk_idle (fun part member => List.mem_rtakeWhile_imp member) back]
    exact front

end FileTree

end MessageCatalog
