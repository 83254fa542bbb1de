import Mathlib.Data.List.TakeWhile
import MessageCatalog.Configuration
import MessageCatalog.Proofs.FileTreeRuns
import MessageCatalog.Proofs.WrittenMarkup

/-!
# Configuration files and catalog files

A configuration is read from a file of the tree. It is a JSON record, which
starts with a brace or a bracket, while a catalog that is read without a warning
starts with markup. So no file is both, and writing over a catalog leaves the
configuration as it is.
-/

namespace MessageCatalog

/-! ## How a configuration starts -/

namespace JsonReader

variable {α β ρ : Type}

/-- A reader that stops at any text. -/
def Stops (reader : JsonReader α) : Prop := ∀ cursor, ∃ stop, reader cursor = .error stop

/-- A reader goes on behind what it has read. -/
theorem bind_of_ok {first : JsonReader α} {cursor after : JsonCursor} {found : α}
    (h : first cursor = .ok (found, after)) (next : α → JsonReader β) :
    (first >>= next) cursor = next found after := by
  change (first cursor).bind _ = _
  rw [h]
  rfl

/-- A reader that stops reads nothing more. -/
theorem bind_of_error {first : JsonReader α} {cursor : JsonCursor} {stop : JsonStop}
    (h : first cursor = .error stop) (next : α → JsonReader β) :
    (first >>= next) cursor = .error stop := by
  change (first cursor).bind _ = _
  rw [h]
  rfl

/-- Whatever was read before, a reader that stops stops. -/
theorem Stops.bind {next : α → JsonReader β} (first : JsonReader α) (h : ∀ found, (next found).Stops) :
    (first >>= next).Stops := by
  intro cursor
  cases read : first cursor with
  | error stop => exact ⟨stop, bind_of_error read next⟩
  | ok entry =>
    obtain ⟨stop, stopped⟩ := h entry.1 entry.2
    exact ⟨stop, by rw [bind_of_ok read]; exact stopped⟩

/-- A fault where the reader stands stops it. -/
theorem stops_here (fault : JsonFault) : (stopHere fault : JsonReader α).Stops := fun _ => ⟨_, rfl⟩

/-- A fault behind the next character stops the reader. -/
theorem stops_next (fault : JsonFault) : (stopNext fault : JsonReader α).Stops := fun _ => ⟨_, rfl⟩

/-- A value of another type than the expected one stops the reader. -/
theorem stops_mistyped (expected : String) : (stopMistyped expected : JsonReader α).Stops := by
  refine .bind _ fun found => ?_
  split
  · exact .bind _ fun _ => stops_here _
  · exact .bind _ fun _ => stops_here _
  · exact .bind _ fun _ => stops_here _
  · exact stops_here _
  · exact stops_here _
  · exact .bind _ fun _ => .bind _ fun _ => stops_here _
  · split
    · exact .bind _ fun _ => stops_here _
    · exact stops_next _
  · exact stops_next _

/-- What is read behind the first character of a record. -/
def opening (list object other : JsonReader α) : Option Char → JsonReader α
  | some '[' => list
  | some '\x7b' => object
  | _ => other

/-- Anything but a bracket or a brace opens something else. -/
theorem opening_of_other {list object other : JsonReader α} {first : Option Char}
    (bracket : first ≠ some '[') (brace : first ≠ some '\x7b') :
    opening list object other first = other := by
  unfold opening
  split <;> simp_all

/-- A record starts with a bracket or a brace. That character decides, so neither of the two
ways to read a record has to be opened. -/
theorem record_head {expected : String} {fields : List (JsonField ρ)} {default value : ρ}
    {cursor after : JsonCursor} (h : record expected fields default cursor = .ok (value, after)) :
    ∃ c rest, cursor.rest.dropWhile isBlank = c :: rest ∧ (c = '[' ∨ c = '\x7b') := by
  have looks : peekPlain cursor = .ok ((cursor.rest.dropWhile isBlank).head?,
      ⟨cursor.rest.dropWhile isBlank, cursor.offset + (cursor.rest.takeWhile isBlank).length⟩) := rfl
  have opens : record expected fields default = peekPlain >>= opening
      (do skip; elements true default fields)
      (do skip; members fields [] default ((← remaining) + 1)) (stopMistyped expected) := rfl
  rw [opens, bind_of_ok looks] at h
  by_cases bracket : (cursor.rest.dropWhile isBlank).head? = some '['
  · obtain ⟨rest, starts⟩ := List.head?_eq_some_iff.mp bracket
    exact ⟨_, rest, starts, .inl rfl⟩
  by_cases brace : (cursor.rest.dropWhile isBlank).head? = some '\x7b'
  · obtain ⟨rest, starts⟩ := List.head?_eq_some_iff.mp brace
    exact ⟨_, rest, starts, .inr rfl⟩
  obtain ⟨stop, stopped⟩ := stops_mistyped expected _
  rw [opening_of_other bracket brace, stopped] at h
  exact absurd h (by simp)

end JsonReader

/-- A configuration starts with a bracket or a brace. -/
theorem Configuration.ofBytes_head {path : String} {bytes : ByteArray} {configuration : Configuration}
    (h : ofBytes path bytes = .ok configuration) :
    ∃ text, Utf8.decode bytes = .ok text ∧
      ∃ c rest, text.toList.dropWhile JsonReader.isBlank = c :: rest ∧ (c = '[' ∨ c = '\x7b') := by
  unfold ofBytes at h
  split at h
  · exact absurd h (by simp)
  next text decoded =>
    refine ⟨text, decoded, ?_⟩
    cases read : reader ⟨text.toList, 0⟩ with
    | ok entry => exact JsonReader.record_head read
    | error stop =>
      have fails : ∃ fault, reader.ofText text = .error fault := by
        refine ⟨.ofOffset text.toList stop.offset stop.fault, ?_⟩
        have whole := JsonReader.bind_of_error read fun value => do
          JsonReader.finish
          pure value
        unfold JsonReader.ofText StateT.run
        rw [whole]
      obtain ⟨fault, failed⟩ := fails
      rw [failed] at h
      exact absurd h (by simp)

/-! ## How a catalog starts -/

namespace Report

/-- The text at the front of a document is layout if nothing in it is irregular. -/
theorem layout_of_irregularities {text : List Char} (quiet : irregularities text = [])
    (unmarked : text.head? ≠ some '\uFEFF') :
    (text.takeWhile (· != '<')).all Reader.isLayout = true := by
  have start : Cursor.ofText text = ⟨text, 0, [], false⟩ := by
    unfold Cursor.ofText
    split <;> simp_all
  by_cases empty : text.takeWhile (· != '<') = []
  · rw [empty]
    rfl
  · have plain : ∀ c ∈ text.takeWhile (· != '<'), c ≠ '<' := fun c member => by
      simpa using List.mem_takeWhile_imp member
    have bracket : ∀ c ∈ (text.dropWhile (· != '<')).head?, c = '<' := fun c member => by
      have := List.head?_dropWhile_not (· != '<') text
      rw [member] at this
      simpa using this
    obtain ⟨place, after, run⟩ := Cursor.next_text empty plain [] 0 bracket
    rw [List.takeWhile_append_dropWhile] at run
    rw [irregularities, eventsOf, start, Cursor.events_of_event run, List.map_eq_nil_iff,
      Reader.Place.noted, List.append_eq_nil_iff, List.map_eq_nil_iff] at quiet
    have taken : ((Reader.Place.document none).expectLayout (text.takeWhile (· != '<'))).notes = [] :=
      quiet.1
    unfold Reader.Place.expectLayout at taken
    split at taken
    next layout => exact layout
    next =>
      rw [Reader.Step.bind_of_ok (Reader.Step.note_outcome _)] at taken
      exact absurd taken (by simp [Reader.Step.note])

/-- In text that starts with a bracket or a brace something is irregular. -/
theorem irregularities_ne_nil {text rest : List Char} {c : Char}
    (head : text.dropWhile JsonReader.isBlank = c :: rest) (opens : c = '[' ∨ c = '\x7b') :
    irregularities (withoutByteOrderMark text) ≠ [] := by
  intro quiet
  have unmarked : text.head? ≠ some '\uFEFF' := by
    intro marked
    obtain ⟨tail, rfl⟩ := List.head?_eq_some_iff.mp marked
    rw [List.dropWhile_cons_of_neg (by decide)] at head
    injection head with same
    rcases opens with rfl | rfl <;> exact absurd same (by decide)
  have whole : withoutByteOrderMark text = text := by
    unfold withoutByteOrderMark
    split <;> simp_all
  rw [whole] at quiet
  have layout := layout_of_irregularities quiet unmarked
  have blank : ∀ b ∈ text.takeWhile JsonReader.isBlank, (b != '<') = true := by
    intro b member
    have blank := List.mem_takeWhile_imp member
    rw [bne_iff_ne]
    rintro rfl
    exact absurd blank (by decide)
  have own : (c != '<') = true := by rcases opens with rfl | rfl <;> decide
  have among : c ∈ text.takeWhile (· != '<') := by
    rw [← List.takeWhile_append_dropWhile (p := JsonReader.isBlank) (l := text), head,
      List.takeWhile_append_of_pos blank, List.takeWhile_cons, if_pos own]
    exact List.mem_append_right _ List.mem_cons_self
  have counts := List.all_eq_true.mp layout c among
  rcases opens with rfl | rfl <;> exact absurd counts (by decide)

/-- No configuration is a catalog that is read without a warning. -/
theorem not_configuration {policy : Policy} {path : String} {bytes : ByteArray} {catalog : Catalog}
    {configuration : Configuration} (read : ofBytes policy bytes = .ok ⟨catalog, []⟩) :
    Configuration.ofBytes path bytes ≠ .ok configuration := by
  intro loaded
  obtain ⟨text, decoded, c, rest, head, opens⟩ := Configuration.ofBytes_head loaded
  rw [ofBytes, decoded] at read
  exact irregularities_ne_nil head opens (of_ofChars read).2.symm

end Report

/-! ## The configuration of a tree -/

namespace FileTree

variable {tree after : FileTree}

/-- The configuration in a file. -/
def configurationIn (tree : FileTree) (path : String) : Except ConfigurationError Configuration :=
  match tree.read path with
  | .error cause => .error (.unreadable path cause)
  | .ok bytes => Configuration.ofBytes path bytes

/-- The configuration for all commands: that in the file that is named, or else
that in the usual file, if it exists. -/
def configuration (tree : FileTree) : Option String → Except ConfigurationError Configuration
  | some path => tree.configurationIn path
  | none =>
    match tree.kind Configuration.fileName with
    | .ok _ => tree.configurationIn Configuration.fileName
    | .error .notFound => .ok .default
    | .error cause => .error (.unreadable Configuration.fileName cause)

/-- Reading a configuration file changes nothing. -/
theorem load_disk (tree : FileTree) (path : String) :
    Configuration.load disk path tree = (tree.configurationIn path, tree) := by
  have reads : disk.read path tree = (tree.read path, tree) := rfl
  rw [Configuration.load, Disk.run_bind, reads, configurationIn]
  cases tree.read path <;> rfl

/-- Looking for the usual configuration file changes nothing. -/
theorem loadOrDefault_disk (tree : FileTree) :
    Configuration.loadOrDefault disk Configuration.fileName tree =
      (tree.configuration none, tree) := by
  have looks : disk.kind Configuration.fileName tree =
    (tree.kind Configuration.fileName, tree) := rfl
  rw [Configuration.loadOrDefault, Disk.run_bind, looks, configuration]
  cases tree.kind Configuration.fileName with
  | ok kind => exact load_disk tree Configuration.fileName
  | error fault => cases fault <;> rfl

/-! ## A file is written over -/

/-- Two trees with entries of the same kinds at the same places. -/
def SameKinds (tree after : FileTree) : Prop :=
  ∀ place, FileEntry.kind <$> tree.entry? place = FileEntry.kind <$> after.entry? place

/-- At each place the two trees have nothing, a directory each, or a file each. -/
theorem SameKinds.entries (same : tree.SameKinds after) (place : FilePlace) :
    (tree.entry? place = none ∧ after.entry? place = none) ∨
      (tree.entry? place = some .directory ∧ after.entry? place = some .directory) ∨
      ∃ bytes content, tree.entry? place = some (.file bytes) ∧
        after.entry? place = some (.file content) := by
  have kinds := same place
  cases before : tree.entry? place with
  | none =>
    rw [before] at kinds
    exact .inl ⟨rfl, Option.map_eq_none_iff.mp kinds.symm⟩
  | some entry =>
    rw [before] at kinds
    obtain ⟨other, there, kind⟩ := Option.map_eq_some_iff.mp kinds.symm
    cases entry <;> cases other
    case file.file bytes content => exact .inr (.inr ⟨bytes, content, rfl, there⟩)
    case directory.directory => exact .inr (.inl ⟨rfl, there⟩)
    all_goals exact absurd kind (by simp [FileEntry.kind])

/-- Where the same kinds of entries are, the same ways lead through them. -/
theorem walk_congr (same : tree.SameKinds after) (place : FilePlace) (steps : List String) :
    after.walk place steps = tree.walk place steps := by
  induction steps generalizing place with
  | nil => rfl
  | cons step rest ih =>
    simp only [walk]
    rcases same.entries place with
      ⟨before, behind⟩ | ⟨before, behind⟩ | ⟨bytes, content, before, behind⟩
    all_goals rw [before, behind]
    exact ih _

/-- Where the same kinds of entries are, a path names what it named. -/
theorem kind_congr (same : tree.SameKinds after) (path : String) :
    after.kind path = tree.kind path := by
  have found : after.find path = tree.find path := by
    unfold find
    rw [walk_congr same]
  unfold kind locate
  rw [found]
  cases tree.find path with
  | error fault => rfl
  | ok place =>
    dsimp only
    rcases same.entries place with
      ⟨before, behind⟩ | ⟨before, behind⟩ | ⟨bytes, content, before, behind⟩
    all_goals rw [before, behind]
    cases Path.endsWithSlash path <;> rfl

/-- Where a file is written over, the same kinds of entries are. -/
theorem kinds_of_write {path : String} {bytes content : ByteArray}
    (read : tree.read path = .ok bytes) (h : tree.write path content = .ok after) :
    tree.SameKinds after := by
  intro place
  obtain ⟨there, found, entry, _⟩ := read_eq_ok.mp read
  obtain ⟨there', found', free, _, rfl⟩ := write_eq_ok.mp h
  rw [found] at found'
  injection found' with same
  subst same
  by_cases own : place = there
  · rw [own, entry, entry?_put_self (names_ne_nil free)]
    rfl
  · rw [entry?_put_other own]

/-- Writing over a catalog leaves the configuration as it is. -/
theorem configuration_of_write {named : Option String} {path : String} {policy : Policy}
    {bytes content : ByteArray} {catalog : Catalog} {settings : Configuration}
    (loaded : tree.configuration named = .ok settings) (read : tree.read path = .ok bytes)
    (parsed : Report.ofBytes policy bytes = .ok ⟨catalog, []⟩)
    (h : tree.write path content = .ok after) : after.configuration named = .ok settings := by
  have stays {file : String} (loaded : tree.configurationIn file = .ok settings) :
      after.configurationIn file = .ok settings := by
    unfold configurationIn at loaded ⊢
    split at loaded
    · exact absurd loaded (by simp)
    next own there =>
      have differs : after.find file ≠ after.find path := by
        intro same
        obtain ⟨first, led, entry, _⟩ := read_eq_ok.mp there
        obtain ⟨second, led', entry', _⟩ := read_eq_ok.mp read
        rw [find_of_keeps (keeps_of_write h) led, find_of_keeps (keeps_of_write h) led'] at same
        injection same with same
        rw [same, entry'] at entry
        injection entry with entry
        injection entry with entry
        exact Report.not_configuration parsed (entry ▸ loaded)
      rw [read_other_of_write h there differs]
      exact loaded
  cases named with
  | some file => exact stays loaded
  | none =>
    unfold configuration at loaded ⊢
    rw [kind_congr (kinds_of_write read h)]
    cases found : tree.kind Configuration.fileName with
    | ok kind =>
      rw [found] at loaded
      exact stays loaded
    | error fault =>
      rw [found] at loaded
      cases fault <;> exact loaded

end FileTree

end MessageCatalog
