import MessageCatalog.Proofs.ElementRoles
import MessageCatalog.Proofs.Rewriting

/-!
# Character data between elements

The root element, contexts, messages and translations with plural forms hold
elements only; text between these lays them out. Any other text there is
reported, and so is a section of character data among plural forms. A document
with such a report is refused by the strict policy and never rewritten. Elsewhere
between elements a section of character data gets lost without a report.
-/

namespace MessageCatalog

/-- The name of an element that holds elements only. -/
def Role.between? : Role → Option String
  | root => some "TS"
  | context => some "context"
  | message _ => some "message"
  | translation true => some "translation"
  | location | translation false | text | byte | passed => none

/-- What holds a text does not hold elements only. -/
theorem Role.between?_of_isText {role : Role} (h : role.isText = true) : role.between? = none := by
  cases role with
  | translation plural =>
    cases plural with
    | true => exact absurd h (by simp [isText])
    | false => rfl
  | text => rfl
  | root | context | message | location | byte | passed => exact absurd h (by simp [isText])

/-- Character data in a place where a catalog keeps none, and what is said of it. -/
inductive Node.Stray (forest : List Node) : Irregularity → Prop
  /-- Text between elements that is more than layout. -/
  | text {role : Role} {tag : Tag} {children : List Node} {name : String} {run : List Char}
    (reads : Reads forest role tag children) (between : role.between? = some name)
    (part : Node.text run ∈ children) (solid : run.all Reader.isLayout = false) :
    Stray forest (.strayText name)
  /-- A section of character data among plural forms. -/
  | data {tag : Tag} {children : List Node} {content : List Char}
    (reads : Reads forest (.translation true) tag children)
    (part : Node.data content ∈ children) : Stray forest .looseData

namespace Reader

namespace Place

/-- Between elements text that is more than layout is noted. -/
theorem takeText_notes {place : Place} {role : Role} {name : String} {run : List Char}
    (top : place.roles.head? = some role) (between : role.between? = some name)
    (solid : run.all isLayout = false) : .strayText name ∈ (place.takeText run).notes := by
  have noted (place : Place) : .strayText place.element ∈ (place.expectLayout run).notes := by
    unfold expectLayout
    rw [if_neg (by simp [solid]), Step.bind_of_ok (Step.note_outcome _)]
    exact List.mem_cons_self
  cases place with
  | document => exact absurd top (by simp [roles])
  | root | context | message | forms =>
    obtain rfl : _ = role := by simpa [roles] using top
    obtain rfl : _ = name := by simpa [Role.between?] using between
    exact noted _
  | location | byte | skipped =>
    obtain rfl : _ = role := by simpa [roles] using top
    exact absurd between (by simp [Role.between?])
  | text host content =>
    rw [Role.between?_of_isText (TextHost.isText_of_head top)] at between
    exact absurd between (by simp)

/-- Among plural forms character data are noted. -/
theorem takeData_notes {place : Place} (top : place.roles.head? = some (.translation true))
    (content : List Char) : .looseData ∈ (place.takeData content).notes := by
  cases place with
  | forms outer => exact List.mem_cons_self
  | document | root | context | message | location | byte | skipped =>
    exact absurd top (by simp [roles])
  | text host content =>
    exact absurd (TextHost.isText_of_head top) (by simp [Role.isText])

/-- What is stray is noted when the reader goes over the document. -/
theorem notes_of_stray {forest : List Node} {reason : Irregularity} {final : Place}
    (stray : Node.Stray forest reason) (h : ((document none).visitAll forest).outcome = .ok final) :
    reason ∈ ((document none).visitAll forest).notes := by
  cases stray with
  | text reads between part solid =>
    obtain ⟨outer, inner, last, entered, top, inside, notes⟩ := covers_of_reads reads h
    obtain ⟨before, after, same, taken, noted⟩ := visit_of_mem inside part
    exact notes (noted (takeText_notes (same ▸ top) between solid))
  | data reads part =>
    obtain ⟨outer, inner, last, entered, top, inside, notes⟩ := covers_of_reads reads h
    obtain ⟨before, after, same, taken, noted⟩ := visit_of_mem inside part
    exact notes (noted (takeData_notes (same ▸ top) _))

end Place

end Reader

namespace Report

/-- What the reader notes when it goes over the forest of a document is what the
warnings are about. -/
theorem reasons_eq {text : String} {report : Report} {forest : List Node}
    (read : ofText .lenient text = .ok report)
    (events : (eventsOf (withoutByteOrderMark text.toList)).map Prod.snd = Node.forestEvents forest) :
    (∃ final, ((Reader.Place.document none).visitAll forest).outcome = .ok final) ∧
      report.warnings.map Warning.reason = ((Reader.Place.document none).visitAll forest).notes := by
  obtain ⟨content, warnings⟩ := of_ofChars read
  obtain ⟨reached, _⟩ := contentOf_eq_ok content
  have run := Reader.Place.takeAll_eq (.document none) (eventsOf (withoutByteOrderMark text.toList))
  rw [events, Reader.Place.takeAll_forestEvents, reached] at run
  rw [run, warnings, irregularities, List.map_map]
  exact ⟨⟨_, rfl⟩, rfl⟩

/-- What was read with a warning is refused by the strict policy. -/
theorem strict_of_warnings {text : String} {report : Report}
    (read : ofText .lenient text = .ok report) (warned : report.warnings ≠ []) :
    ∃ position reason, ofText .strict text = .error (.irregular position reason) := by
  rw [(of_ofChars read).2] at warned
  obtain ⟨first, rest, noticed⟩ := List.exists_cons_of_ne_nil warned
  refine ⟨first.position, first.reason, ?_⟩
  rw [ofText, ofChars_strict, noticed]

/-- A file that was read with a warning is not rewritten, under whatever policy. -/
theorem refused_of_warnings {text : String} {report : Report} {tree : FileTree} {input : String}
    (read : ofText .lenient text = .ok report) (warned : report.warnings ≠ [])
    (named : Option String) (there : tree.read input = .ok text.toUTF8) :
    Rewriting.Refused tree named input := by
  have decoded (policy : Policy) : ofBytes policy text.toUTF8 = ofText policy text := by
    rw [ofBytes, Utf8.decode_eq_ok_iff.mpr rfl]
  cases loaded : tree.configuration named with
  | error fault => exact .unconfigured loaded
  | ok settings =>
    cases policy : settings.policy with
    | lenient => exact .irregular loaded there (by rw [policy, decoded, read]) warned
    | strict =>
      obtain ⟨position, first, refused⟩ := strict_of_warnings read warned
      exact .unparsable loaded there (by rw [policy, decoded, refused])

/-- Stray character data are reported, so that the strict policy refuses the document
and neither rewriting command changes a file with it, under whatever policy. -/
theorem stray_is_reported {text : String} {report : Report} {forest : List Node}
    {reason : Irregularity} (read : ofText .lenient text = .ok report)
    (events : (eventsOf (withoutByteOrderMark text.toList)).map Prod.snd = Node.forestEvents forest)
    (stray : Node.Stray forest reason) :
    (∃ position, ⟨position, reason⟩ ∈ report.warnings) ∧
    (∃ position first, ofText .strict text = .error (.irregular position first)) ∧
    ∀ (rewriting : Rewriting) named input destination tree, tree.read input = .ok text.toUTF8 →
      ∃ errors, rewriting.run named input destination tree = (⟨1, "", errors⟩, tree) := by
  obtain ⟨⟨final, run⟩, reasons⟩ := reasons_eq read events
  have noted := Reader.Place.notes_of_stray stray run
  rw [← reasons] at noted
  obtain ⟨warning, member, rfl⟩ := List.mem_map.mp noted
  have warned : report.warnings ≠ [] := List.ne_nil_of_mem member
  exact ⟨⟨warning.position, member⟩, strict_of_warnings read warned,
    fun _ named _ _ _ there => Rewriting.run_refused (refused_of_warnings read warned named there)⟩

/-- Text in a context is reported. -/
theorem text_in_context_is_reported :
    ∃ report, ofText .lenient "<TS><context>a<name>n</name></context></TS>" = .ok report ∧
      ∃ position, ⟨position, .strayText "context"⟩ ∈ report.warnings := by
  let inside : List Node := [.text ['a'], .element ⟨"name".toList, []⟩ [.text ['n']]]
  let context : Node := .element ⟨"context".toList, []⟩ inside
  have read : ofText .lenient "<TS><context>a<name>n</name></context></TS>" =
      .ok ⟨⟨"2.0", none, none, [⟨"n", []⟩]⟩, [⟨⟨1, 15⟩, .strayText "context"⟩]⟩ := by
    decide +kernel
  have events : (eventsOf (withoutByteOrderMark
      "<TS><context>a<name>n</name></context></TS>".toList)).map Prod.snd =
        Node.forestEvents [.element ⟨"TS".toList, []⟩ [context]] := by
    decide +kernel
  have stray : Node.Stray [.element ⟨"TS".toList, []⟩ [context]] (.strayText "context") :=
    .text (.inside rfl (.here List.mem_cons_self)) rfl List.mem_cons_self (by decide)
  exact ⟨_, read, (stray_is_reported read events stray).1⟩

end Report

/-! ## Sections that get lost

Unlike the plural forms, the root element, contexts and messages take a section of
character data without a word. A document reads the same without these sections. -/

/-- Whether an element that keeps no character data takes them without a word. -/
def Role.losesData : Role → Bool
  | root | context | message _ => true
  | location | translation _ | text | byte | passed => false

namespace Node

/-- Whether a part of a document is a section of character data. -/
def isData : Node → Bool
  | data _ => true
  | text _ | declaration _ | remark | element _ _ => false

mutual

/-- A part of an element of some role, without the sections inside it that get lost. -/
def withoutLost (role : Role) : Node → Node
  | text run => text run
  | data content => data content
  | declaration attributes => declaration attributes
  | remark => remark
  | element tag children => element tag (partsWithoutLost (role.inside tag) children)

/-- The parts of an element of some role, without the sections that get lost. -/
def partsWithoutLost (role : Role) : List Node → List Node
  | [] => []
  | node :: rest =>
    if role.losesData ∧ node.isData then partsWithoutLost role rest
    else node.withoutLost role :: partsWithoutLost role rest

end

/-- An outermost part of a document, without the sections inside it that get lost.
An element is dealt with as the root element; inside of any other nothing counts. -/
def outermostWithoutLost : Node → Node
  | element tag children => element tag (partsWithoutLost .root children)
  | node => node

end Node

namespace Reader

namespace Place

/-- A section that gets lost leaves the reader where it was. -/
theorem takeData_of_losesData {place : Place} {top : Role} (head : place.roles.head? = some top)
    (loses : top.losesData = true) (content : List Char) : place.takeData content = pure place := by
  cases place with
  | text host before =>
    have holds : top.isText = true := TextHost.isText_of_head head
    cases top <;> simp_all [Role.isText, Role.losesData]
  | forms outer =>
    obtain rfl : Role.translation true = top := by simpa [roles] using head
    exact absurd loses (by simp [Role.losesData])
  | document | root | context | message | location | byte | skipped => rfl

mutual

/-- A part of an element reads the same without the sections that get lost. Its start tag is
the same, and puts the role on top by which the sections inside were left out. -/
theorem visit_withoutLost {place : Place} {top : Role} (head : place.roles.head? = some top)
    (node : Node) : place.visit (node.withoutLost top) = place.visit node := by
  match node with
  | .text _ | .data _ | .declaration _ | .remark => rfl
  | .element tag children =>
    rw [Node.withoutLost, visit, visit]
    refine Step.bind_congr_of_ok fun inner entered => ?_
    rw [visitAll_partsWithoutLost (head_of_enter head entered) children]

/-- The parts of an element read the same without the sections that get lost. -/
theorem visitAll_partsWithoutLost {place : Place} {top : Role}
    (head : place.roles.head? = some top) (nodes : List Node) :
    place.visitAll (Node.partsWithoutLost top nodes) = place.visitAll nodes := by
  match nodes with
  | [] => rfl
  | node :: rest =>
    rw [Node.partsWithoutLost, visitAll]
    split
    next lost =>
      obtain ⟨content, rfl⟩ : ∃ content, node = .data content := by
        cases node <;> simp_all [Node.isData]
      rw [visit, takeData_of_losesData head lost.1, pure_bind]
      exact visitAll_partsWithoutLost head rest
    next kept =>
      rw [visitAll, visit_withoutLost head node]
      refine Step.bind_congr_of_ok fun next first => ?_
      exact visitAll_partsWithoutLost (by rw [visit_roles first]; exact head) rest

end

/-- An outermost part of a document reads the same without the sections that get lost. -/
theorem visit_outermostWithoutLost (catalog : Option Catalog) (node : Node) :
    (document catalog).visit node.outermostWithoutLost = (document catalog).visit node := by
  cases node with
  | text | data | declaration | remark => rfl
  | element tag children =>
    rw [Node.outermostWithoutLost, visit, visit]
    refine Step.bind_congr_of_ok fun inner entered => ?_
    have passed (h : ((document catalog).skipUnexpected tag).outcome = .ok inner) :
        inner.visitAll (Node.partsWithoutLost .root children) = inner.visitAll children := by
      injection h with h
      rw [← h, visitAll_skipped, visitAll_skipped]
    have same : inner.visitAll (Node.partsWithoutLost .root children) =
        inner.visitAll children := by
      cases catalog with
      | some catalog => exact passed entered
      | none =>
        simp only [enter] at entered
        split at entered
        · obtain ⟨_, _, rfl⟩ := OpenCatalog.start_eq_ok entered
          exact visitAll_partsWithoutLost rfl children
        · exact passed entered
    rw [same]

/-- A document reads the same without the sections that get lost. -/
theorem visitAll_outermostWithoutLost (catalog : Option Catalog) (forest : List Node) :
    (document catalog).visitAll (forest.map Node.outermostWithoutLost) =
      (document catalog).visitAll forest := by
  induction forest generalizing catalog with
  | nil => rfl
  | cons node rest ih =>
    rw [List.map_cons, visitAll, visitAll, visit_outermostWithoutLost]
    refine Step.bind_congr_of_ok fun next first => ?_
    obtain ⟨catalog, rfl⟩ := eq_document_of_roles (visit_roles first)
    exact ih catalog

end Place

end Reader

namespace Report

/-- Sections that get lost leave no trace: the document without them is read as the
same catalog, with warnings for the same reasons. -/
theorem lost_sections_leave_no_trace {text shorter : String} {report : Report} {forest : List Node}
    (read : ofText .lenient text = .ok report)
    (events : (eventsOf (withoutByteOrderMark text.toList)).map Prod.snd = Node.forestEvents forest)
    (less : (eventsOf (withoutByteOrderMark shorter.toList)).map Prod.snd =
      Node.forestEvents (forest.map Node.outermostWithoutLost))
    (ended : ∃ offset, (Cursor.ofText (withoutByteOrderMark shorter.toList)).ending = .ok offset) :
    ∃ other, ofText .lenient shorter = .ok other ∧ other.catalog = report.catalog ∧
      other.warnings.map Warning.reason = report.warnings.map Warning.reason := by
  obtain ⟨_, run⟩ := (contentOf_eq_ok_iff events).mp (of_ofChars read).1
  rw [← Reader.Place.visitAll_outermostWithoutLost] at run
  have content := (contentOf_eq_ok_iff less).mpr ⟨ended, run⟩
  have again : ofText .lenient shorter =
      .ok ⟨report.catalog, irregularities (withoutByteOrderMark shorter.toList)⟩ := by
    rw [ofText, ofChars_lenient, content]
  refine ⟨_, again, rfl, ?_⟩
  rw [(reasons_eq again less).2, (reasons_eq read events).2,
    Reader.Place.visitAll_outermostWithoutLost]

/-- A document with a section of character data in the root element, in a context and
in a message. -/
def looseData : String :=
  "<TS><![CDATA[a]]><context><![CDATA[b]]><message><![CDATA[c]]><source>s</source>" ++
    "<translation>t</translation></message><name>n</name></context></TS>"

/-- Sections of character data in the root element, in a context and in a message are
lost without a report, even under the strict policy. -/
theorem loose_data_unreported :
    ∃ report forest, ofText .strict looseData = .ok report ∧ report.warnings = [] ∧
      (eventsOf (withoutByteOrderMark looseData.toList)).map Prod.snd = Node.forestEvents forest ∧
      ∀ role ∈ [Role.root, .context, .message false], ∃ tag children content,
        Node.Reads forest role tag children ∧ .data content ∈ children ∧
          content.all Reader.isLayout = false := by
  let message : Node := .element ⟨"message".toList, []⟩
    [.data ['c'], .element ⟨"source".toList, []⟩ [.text ['s']],
      .element ⟨"translation".toList, []⟩ [.text ['t']]]
  let context : Node := .element ⟨"context".toList, []⟩
    [.data ['b'], message, .element ⟨"name".toList, []⟩ [.text ['n']]]
  let root : Node := .element ⟨"TS".toList, []⟩ [.data ['a'], context]
  have read : ofText .strict looseData = .ok ⟨⟨"2.0", none, none, [⟨"n", [⟨[], "s", none, none,
      none, none, .singular "t", .finished⟩]⟩]⟩, []⟩ := by
    decide +kernel
  refine ⟨_, [root], read, rfl, by decide +kernel, fun role member => ?_⟩
  have deep : Node.Holds .root [.data ['a'], context] .context ⟨"context".toList, []⟩ _ :=
    .here (List.mem_cons_of_mem _ List.mem_cons_self)
  have singular : Role.context.inside ⟨"message".toList, []⟩ = .message false := by
    decide +kernel
  have deeper : Node.Holds .root [.data ['a'], context]
      (Role.context.inside ⟨"message".toList, []⟩) ⟨"message".toList, []⟩ _ :=
    .deeper (List.mem_cons_of_mem _ List.mem_cons_self)
      (.here (List.mem_cons_of_mem _ List.mem_cons_self))
  rw [singular] at deeper
  simp only [List.mem_cons, List.not_mem_nil, or_false] at member
  rcases member with rfl | rfl | rfl
  · exact ⟨_, _, ['a'], .root rfl, List.mem_cons_self, by decide⟩
  · exact ⟨_, _, ['b'], .inside rfl deep, List.mem_cons_self, by decide⟩
  · exact ⟨_, _, ['c'], .inside rfl deeper, List.mem_cons_self, by decide⟩

end Report

end MessageCatalog
