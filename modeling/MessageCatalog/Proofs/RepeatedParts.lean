import MessageCatalog.Proofs.ElementReading
import MessageCatalog.Proofs.StrayData

/-!
# Parts that are replaced

A context has one name, and a message one text of each kind and one translation.
Where an element holds several of these, each takes the place of the one before,
and nothing is said of it: a document reads the same without the parts that are
replaced, and what else is noted is what was irregular inside of them.
-/

namespace MessageCatalog

/-- Whether, inside an element of some role, the last element of a name takes the place
of those before it. -/
def Role.replaces (role : Role) (name : String) : Bool :=
  match role with
  | context => name == "name"
  | message _ =>
    ["source", "comment", "extracomment", "translatorcomment", "translation"].contains name
  | root | location | translation _ | text | byte | passed => false

/-- Inside an element that holds a text nothing is replaced. -/
theorem Role.replaces_of_isText {role : Role} (h : role.isText = true) (name : String) :
    role.replaces name = false := by
  cases role with
  | context | message => exact absurd h (by simp [isText])
  | root | location | translation | text | byte | passed => rfl

namespace Node

/-- Whether a part of an element of some role is replaced by one of those behind it. -/
def isReplaced (role : Role) (rest : List Node) : Node → Bool
  | element tag _ =>
    role.replaces (String.ofList tag.name) && !(named (String.ofList tag.name) rest).isEmpty
  | text _ | data _ | declaration _ | remark => false

/-- What is replaced is an element, and what replaces it one of its name behind it. -/
theorem exists_of_isReplaced {role : Role} {rest : List Node} {node : Node}
    (h : node.isReplaced role rest = true) :
    ∃ tag children, node = element tag children ∧
      role.replaces (String.ofList tag.name) = true ∧
      ∃ tag' children', element tag' children' ∈ rest ∧
        String.ofList tag'.name = String.ofList tag.name := by
  cases node with
  | text | data | declaration | remark => exact absurd h (by simp [isReplaced])
  | element tag children =>
    rw [isReplaced, Bool.and_eq_true] at h
    obtain ⟨replaces, some⟩ := h
    obtain ⟨found, member⟩ := List.exists_mem_of_ne_nil _ (by simpa using some)
    obtain ⟨node, behind, own⟩ := List.mem_filterMap.mp member
    obtain ⟨tag', children', rfl, same, _⟩ := asElement?_eq_some own
    exact ⟨tag, children, rfl, replaces, tag', children', behind, same⟩

mutual

/-- A part of an element of some role, without the parts inside it that are replaced. -/
def withoutReplaced (role : Role) : Node → Node
  | text run => text run
  | data content => data content
  | declaration attributes => declaration attributes
  | remark => remark
  | element tag children => element tag (partsWithoutReplaced (role.inside tag) children)

/-- The parts of an element of some role, without those that are replaced. -/
def partsWithoutReplaced (role : Role) : List Node → List Node
  | [] => []
  | node :: rest =>
    if node.isReplaced role rest then partsWithoutReplaced role rest
    else node.withoutReplaced role :: partsWithoutReplaced role rest

end

/-- A document without the parts in its root element that are replaced. Nothing else
outside of every element counts. -/
def documentWithoutReplaced : List Node → List Node
  | [] => []
  | node :: rest =>
    match node.asElement? "TS" with
    | some (tag, children) => element tag (partsWithoutReplaced .root children) :: rest
    | none => node :: documentWithoutReplaced rest

/-- What is irregular in a part of an element of some role that may be replaced. -/
def notesOf (role : Role) (node : Node) : List Irregularity :=
  match role with
  | .context => (Reader.contextPartOf node).notes
  | .message plural => (Reader.partOf plural node).notes
  | .root | .location | .translation _ | .text | .byte | .passed => []

mutual

/-- What is irregular in the parts that are replaced, inside a part of an element of
some role. -/
def replacedNotes (role : Role) : Node → List Irregularity
  | element tag children => partsReplacedNotes (role.inside tag) children
  | text _ | data _ | declaration _ | remark => []

/-- What is irregular in those parts of an element of some role that are replaced. -/
def partsReplacedNotes (role : Role) : List Node → List Irregularity
  | [] => []
  | node :: rest =>
    (if node.isReplaced role rest then node.notesOf role else node.replacedNotes role) ++
      partsReplacedNotes role rest

end

/-- What is irregular in the parts of a document that are replaced. -/
def documentReplacedNotes : List Node → List Irregularity
  | [] => []
  | node :: rest =>
    match node.asElement? "TS" with
    | some (_, children) => partsReplacedNotes .root children
    | none => documentReplacedNotes rest

end Node

namespace Reader

/-- A part that a later one replaces adds nothing. It moves behind those that do not replace
it, up to the first one that does. -/
theorem foldl_of_replaced {σ δ : Type} {add : σ → δ → σ} {part : δ} {Replaces : δ → Prop}
    (absorbs : ∀ state later, Replaces later → add (add state part) later = add state later)
    (commutes : ∀ state later, ¬Replaces later →
      add (add state part) later = add (add state later) part)
    {parts : List δ} (replaced : ∃ later ∈ parts, Replaces later) (state : σ) :
    parts.foldl add (add state part) = parts.foldl add state := by
  induction parts generalizing state with
  | nil => exact absurd replaced (by simp)
  | cons next rest ih =>
    rw [List.foldl_cons, List.foldl_cons]
    by_cases here : Replaces next
    · rw [absorbs state next here]
    · rw [commutes state next here]
      obtain ⟨later, member, replaces⟩ := replaced
      rcases List.mem_cons.mp member with rfl | behind
      · exact absurd replaces here
      · exact ih ⟨later, behind, replaces⟩ (add state next)

/-- The element that a part of a message takes the place of. -/
def MessagePart.element? : MessagePart → Option String
  | nothing | location _ => none
  | text part _ => some part.element
  | forms _ _ => some "translation"

/-- The element that a part of a context takes the place of. -/
def ContextPart.element? : ContextPart → Option String
  | name _ => some "name"
  | message _ => none

/-- A part takes the place of another one of its element. -/
theorem OpenMessage.add_of_same {part later : MessagePart} {name : String}
    (own : part.element? = some name) (same : later.element? = some name)
    (message : OpenMessage) : (message.add part).add later = message.add later := by
  have alike : part.element? = later.element? := own.trans same.symm
  rcases part with _ | _ | ⟨_ | _ | _ | _ | _, _⟩ | _ <;>
    rcases later with _ | _ | ⟨_ | _ | _ | _ | _, _⟩ | _ <;>
    first
    | rfl
    | simp [MessagePart.element?, MessageText.element] at own alike

/-- A part of an element leaves those of others alone. -/
theorem OpenMessage.add_of_other {part later : MessagePart} {name : String}
    (own : part.element? = some name) (other : later.element? ≠ some name)
    (message : OpenMessage) : (message.add part).add later = (message.add later).add part := by
  rw [← own] at other
  rcases part with _ | _ | ⟨_ | _ | _ | _ | _, _⟩ | _ <;>
    rcases later with _ | _ | ⟨_ | _ | _ | _ | _, _⟩ | _ <;>
    first
    | rfl
    | exact absurd rfl other

/-- A part of a message that a later one replaces adds nothing. -/
theorem OpenMessage.foldl_add_of_replaced {part : MessagePart} {name : String}
    (own : part.element? = some name) {parts : List MessagePart}
    (replaced : ∃ later ∈ parts, later.element? = some name) (message : OpenMessage) :
    parts.foldl add (message.add part) = parts.foldl add message :=
  foldl_of_replaced (fun message _ same => message.add_of_same own same)
    (fun message _ other => message.add_of_other own other) replaced message

/-- A part of a context that a later one replaces adds nothing. -/
theorem OpenContext.foldl_add_of_replaced {part : ContextPart} {name : String}
    (own : part.element? = some name) {parts : List ContextPart}
    (replaced : ∃ later ∈ parts, later.element? = some name) (context : OpenContext) :
    parts.foldl add (context.add part) = parts.foldl add context := by
  refine foldl_of_replaced (fun context later same => ?_) (fun context later other => ?_)
    replaced context
  · cases part <;> cases later <;> first | rfl | simp [ContextPart.element?] at own same
  · cases part <;> cases later <;> first | rfl | exact absurd own other

namespace Step

variable {α β : Type}

/-- Passing the result through a function notes nothing. -/
theorem map_notes (function : α → β) (step : Step α) : (function <$> step).notes = step.notes := by
  rw [map_eq_pure_bind]
  cases h : step.outcome with
  | error fatal => rw [bind_of_error h]
  | ok result => rw [bind_of_ok h, pure_notes, List.append_nil]

/-- Where steps are taken one behind the other, each result comes from one of them. -/
theorem exists_of_mapM {read : α → Step β} {entries : List α} {results : List β}
    (h : (entries.mapM read).outcome = .ok results) {entry : α} (member : entry ∈ entries) :
    ∃ result ∈ results, (read entry).outcome = .ok result := by
  induction entries generalizing results with
  | nil => exact absurd member List.not_mem_nil
  | cons first rest ih =>
    rw [List.mapM_cons] at h
    simp only [bind_outcome_eq_ok, pure_outcome, Except.ok.injEq] at h
    obtain ⟨result, taken, more, others, rfl⟩ := h
    rcases List.mem_cons.mp member with rfl | later
    · exact ⟨result, List.mem_cons_self, taken⟩
    · obtain ⟨found, among, read⟩ := ih others later
      exact ⟨found, List.mem_cons_of_mem _ among, read⟩

/-- What is read of some parts adds up to the same without a part that what is read of one of
them replaces. -/
theorem map_foldl_of_replaced {σ δ : Type} {read : Node → Step δ} {add : σ → δ → σ}
    {Replaces : δ → Prop} {state : σ} {part : δ}
    (nothing : ∀ {parts : List δ}, (∃ later ∈ parts, Replaces later) →
      parts.foldl add (add state part) = parts.foldl add state)
    {node : Node} {nodes : List Node} (member : node ∈ nodes)
    (replaces : ∀ {later}, (read node).outcome = .ok later → Replaces later) (function : σ → β) :
    (fun parts => function (parts.foldl add (add state part))) <$> nodes.mapM read =
      (fun parts => function (parts.foldl add state)) <$> nodes.mapM read := by
  rw [map_eq_pure_bind, map_eq_pure_bind]
  refine bind_congr_of_ok fun parts said => ?_
  obtain ⟨later, among, found⟩ := exists_of_mapM said member
  rw [nothing ⟨later, among, replaces found⟩]

/-- A step that gets where another one gets, and notes some more on the way. -/
def Exceeds (step fewer : Step α) (more : List Irregularity) : Prop :=
  ∀ result, step.outcome = .ok result →
    fewer.outcome = .ok result ∧ step.notes.Perm (fewer.notes ++ more)

/-- A step notes no more than itself. -/
theorem Exceeds.refl (step : Step α) : step.Exceeds step [] :=
  fun _ reached => ⟨reached, by rw [List.append_nil]⟩

/-- What is noted more in two steps is noted more in both together. -/
theorem Exceeds.bind {step fewer : Step α} {next nextFewer : α → Step β}
    {more moreNext : List Irregularity} (first : step.Exceeds fewer more)
    (second : ∀ result, step.outcome = .ok result →
      (next result).Exceeds (nextFewer result) moreNext) :
    (step >>= next).Exceeds (fewer >>= nextFewer) (more ++ moreNext) := by
  intro final reached
  obtain ⟨result, taken, reached⟩ := bind_outcome_eq_ok.mp reached
  obtain ⟨taken', notes⟩ := first result taken
  obtain ⟨reached', notes'⟩ := second result taken final reached
  rw [bind_of_ok taken, bind_of_ok taken']
  refine ⟨reached', (notes.append notes').trans ?_⟩
  simp only [List.append_assoc]
  exact (List.perm_append_comm_assoc _ _ _).append_left _

end Step

/-- A part of a message has the name of its element, if that is one that is replaced. -/
theorem element?_of_partOf {plural : Bool} {tag : Tag} {children : List Node} {part : MessagePart}
    (replaces : (Role.message plural).replaces (String.ofList tag.name) = true)
    (h : (partOf plural (.element tag children)).outcome = .ok part) :
    part.element? = some (String.ofList tag.name) := by
  rw [partOf] at h
  split at h
  case h_1 name => exact absurd replaces (by simp [Role.replaces, name])
  case h_6 name =>
    simp only [translationOf, Step.bind_outcome_eq_ok] at h
    obtain ⟨_, _, status, _, h⟩ := h
    rw [name]
    split at h <;> obtain ⟨_, _, rfl⟩ := Step.map_outcome_eq_ok.mp h <;> rfl
  case h_7 => exact absurd replaces (by simp_all [Role.replaces])
  all_goals
    next name =>
      obtain ⟨_, _, rfl⟩ := Step.map_outcome_eq_ok.mp h
      rw [name]
      rfl

/-- A part of a context has the name of its element, if that is one that is replaced. -/
theorem element?_of_contextPartOf {tag : Tag} {children : List Node} {part : ContextPart}
    (replaces : Role.context.replaces (String.ofList tag.name) = true)
    (h : (contextPartOf (.element tag children)).outcome = .ok part) :
    part.element? = some (String.ofList tag.name) := by
  have name : String.ofList tag.name = "name" := by simpa [Role.replaces] using replaces
  rw [contextPartOf, name] at h
  obtain ⟨_, _, rfl⟩ := Step.map_outcome_eq_ok.mp h
  rw [name]
  rfl

namespace Place

/-- What is replaced in a message only counts for what is irregular in it. -/
theorem visit_message_of_replaced {outer : OpenMessage} {node : Node} {rest : List Node}
    {next : Place} (replaced : node.isReplaced (.message outer.plural) rest = true)
    (h : ((message outer).visit node).outcome = .ok next) :
    next.visitAll rest = (message outer).visitAll rest := by
  obtain ⟨tag, children, rfl, replaces, tag', children', behind, same⟩ :=
    Node.exists_of_isReplaced replaced
  rw [visit_message_eq] at h
  obtain ⟨part, read, rfl⟩ := Step.map_outcome_eq_ok.mp h
  have own := element?_of_partOf replaces read
  rw [← same] at own replaces
  rw [visitAll_message_eq, visitAll_message_eq, OpenMessage.add_plural]
  exact Step.map_foldl_of_replaced (fun later => OpenMessage.foldl_add_of_replaced own later outer)
    behind (element?_of_partOf replaces) message

/-- What is replaced in a context only counts for what is irregular in it. -/
theorem visit_context_of_replaced {outer : OpenContext} {node : Node} {rest : List Node}
    {next : Place} (replaced : node.isReplaced .context rest = true)
    (h : ((context outer).visit node).outcome = .ok next) :
    next.visitAll rest = (context outer).visitAll rest := by
  obtain ⟨tag, children, rfl, replaces, tag', children', behind, same⟩ :=
    Node.exists_of_isReplaced replaced
  rw [visit_context_eq] at h
  obtain ⟨part, read, rfl⟩ := Step.map_outcome_eq_ok.mp h
  have own := element?_of_contextPartOf replaces read
  rw [← same] at own replaces
  rw [visitAll_context_eq, visitAll_context_eq]
  exact Step.map_foldl_of_replaced (fun later => OpenContext.foldl_add_of_replaced own later outer)
    behind (element?_of_contextPartOf replaces) context

/-- What is replaced only counts for what is irregular in it. -/
theorem visit_of_replaced {place next : Place} {top : Role} (head : place.roles.head? = some top)
    {node : Node} {rest : List Node} (replaced : node.isReplaced top rest = true)
    (h : (place.visit node).outcome = .ok next) :
    (place.visit node).notes = node.notesOf top ∧ next.visitAll rest = place.visitAll rest := by
  have never (keeps : ∀ name, top.replaces name = false) : False := by
    obtain ⟨tag, _, _, replaces, _⟩ := Node.exists_of_isReplaced replaced
    rw [keeps] at replaces
    exact Bool.false_ne_true replaces
  cases place with
  | context outer =>
    obtain rfl : Role.context = top := by simpa [roles] using head
    refine ⟨?_, visit_context_of_replaced replaced h⟩
    rw [visit_context_eq, Step.map_notes, Node.notesOf]
  | message outer =>
    obtain rfl : Role.message outer.plural = top := by simpa [roles] using head
    refine ⟨?_, visit_message_of_replaced replaced h⟩
    rw [visit_message_eq, Step.map_notes, Node.notesOf]
  | text host content =>
    exact (never (Role.replaces_of_isText (TextHost.isText_of_head head))).elim
  | document => exact absurd head (by simp [roles])
  | root | location | forms | byte | skipped =>
    obtain rfl := Option.some.inj head
    exact (never fun _ => rfl).elim

mutual

/-- A part of an element reads the same without the parts inside it that are replaced. -/
theorem exceeds_withoutReplaced {place : Place} {top : Role}
    (head : place.roles.head? = some top) (node : Node) :
    (place.visit node).Exceeds (place.visit (node.withoutReplaced top))
      (node.replacedNotes top) := by
  match node with
  | .text _ | .data _ | .declaration _ | .remark => exact .refl _
  | .element tag children =>
    rw [Node.withoutReplaced, Node.replacedNotes, visit, visit,
      ← List.nil_append (Node.partsReplacedNotes _ children),
      ← List.append_nil (Node.partsReplacedNotes _ children)]
    exact (Step.Exceeds.refl _).bind fun inner entered =>
      (exceeds_partsWithoutReplaced (head_of_enter head entered) children).bind fun last _ =>
        .refl _

/-- The parts of an element read the same without those that are replaced. -/
theorem exceeds_partsWithoutReplaced {place : Place} {top : Role}
    (head : place.roles.head? = some top) (nodes : List Node) :
    (place.visitAll nodes).Exceeds (place.visitAll (Node.partsWithoutReplaced top nodes))
      (Node.partsReplacedNotes top nodes) := by
  match nodes with
  | [] => exact .refl _
  | node :: rest =>
    rw [Node.partsWithoutReplaced, Node.partsReplacedNotes, visitAll]
    split
    next replaced =>
      intro final reached
      obtain ⟨next, taken, reached⟩ := Step.bind_outcome_eq_ok.mp reached
      obtain ⟨notes, same⟩ := visit_of_replaced head replaced taken
      rw [same] at reached
      obtain ⟨reached', notes'⟩ := exceeds_partsWithoutReplaced head rest final reached
      rw [Step.bind_of_ok taken, same, notes]
      refine ⟨reached', (notes'.append_left _).trans ?_⟩
      exact List.perm_append_comm_assoc _ _ _
    next kept =>
      rw [visitAll]
      exact (exceeds_withoutReplaced head node).bind fun next first =>
        exceeds_partsWithoutReplaced (by rw [visit_roles first]; exact head) rest

end

/-- A document reads the same without the parts that are replaced. -/
theorem exceeds_documentWithoutReplaced (forest : List Node) :
    ((document none).visitAll forest).Exceeds
      ((document none).visitAll (Node.documentWithoutReplaced forest))
      (Node.documentReplacedNotes forest) := by
  induction forest with
  | nil => exact .refl _
  | cons node rest ih =>
    rw [Node.documentWithoutReplaced, Node.documentReplacedNotes, visitAll]
    cases found : node.asElement? "TS" with
    | none =>
      dsimp only
      rw [visitAll, ← List.nil_append (Node.documentReplacedNotes rest)]
      refine (Step.Exceeds.refl _).bind fun next first => ?_
      rw [visit_before_root found first]
      exact ih
    | some element =>
      obtain ⟨tag, children, rfl, name, rfl⟩ := Node.asElement?_eq_some found
      dsimp only
      have start : (document none).enter tag = OpenCatalog.start tag := by
        simp only [enter, name]
      rw [visitAll, visit, visit, ← List.append_nil (Node.partsReplacedNotes _ children)]
      refine Step.Exceeds.bind ?_ fun next _ => .refl _
      rw [← List.nil_append (Node.partsReplacedNotes _ children),
        ← List.append_nil (Node.partsReplacedNotes _ children)]
      refine (Step.Exceeds.refl _).bind fun inner entered => ?_
      obtain ⟨_, _, rfl⟩ := OpenCatalog.start_eq_ok (start ▸ entered)
      exact (exceeds_partsWithoutReplaced rfl children).bind fun last _ => .refl _

end Place

end Reader

namespace Report

/-- A document without anything irregular is read under the strict policy too. -/
theorem strict_of_no_warnings {text : String} {report : Report}
    (read : ofText .lenient text = .ok report) (none : report.warnings = []) :
    ofText .strict text = .ok report := by
  rw [(of_ofChars read).2] at none
  rw [ofText, ofChars_strict, none]
  exact read

/-- Of parts that are replaced nothing is left and nothing is said: the document without
them is read as the same catalog, with warnings for the same reasons but for what is
irregular in the parts themselves. So where nothing else is irregular, the strict policy
reads the document. -/
theorem replaced_parts_leave_no_trace {text shorter : String} {report : Report}
    {forest : List Node} (read : ofText .lenient text = .ok report)
    (events : (eventsOf (withoutByteOrderMark text.toList)).map Prod.snd = Node.forestEvents forest)
    (less : (eventsOf (withoutByteOrderMark shorter.toList)).map Prod.snd =
      Node.forestEvents (Node.documentWithoutReplaced forest))
    (ended : ∃ offset, (Cursor.ofText (withoutByteOrderMark shorter.toList)).ending = .ok offset) :
    ∃ other, ofText .lenient shorter = .ok other ∧ other.catalog = report.catalog ∧
      (report.warnings.map Warning.reason).Perm
        (other.warnings.map Warning.reason ++ Node.documentReplacedNotes forest) ∧
      (other.warnings = [] → Node.documentReplacedNotes forest = [] →
        ofText .strict text = .ok report) := by
  obtain ⟨_, run⟩ := (contentOf_eq_ok_iff events).mp (of_ofChars read).1
  obtain ⟨run', notes⟩ := Reader.Place.exceeds_documentWithoutReplaced forest _ run
  have content := (contentOf_eq_ok_iff less).mpr ⟨ended, run'⟩
  have again : ofText .lenient shorter =
      .ok ⟨report.catalog, irregularities (withoutByteOrderMark shorter.toList)⟩ := by
    rw [ofText, ofChars_lenient, content]
  rw [← (reasons_eq again less).2, ← (reasons_eq read events).2] at notes
  refine ⟨_, again, rfl, notes, fun none quiet => strict_of_no_warnings read ?_⟩
  rw [none, quiet] at notes
  exact List.map_eq_nil_iff.mp notes.eq_nil

/-- A document whose context has two names, and whose message has two texts of each kind
and two translations. -/
def repeatedParts : String :=
  "<TS><context>" ++ "<name>a</name><name>b</name>" ++ "<message>" ++
    "<source>p</source><source>q</source>" ++ "<comment>c</comment><comment>d</comment>" ++
    "<extracomment>e</extracomment>" ++ "<extracomment>f</extracomment>" ++
    "<translatorcomment>g</translatorcomment>" ++ "<translatorcomment>h</translatorcomment>" ++
    "<translation>s</translation>" ++ "<translation>t</translation>" ++
    "</message></context></TS>"

/-- The document with the last of each two parts only. -/
def singleParts : String :=
  "<TS><context>" ++ "<name>b</name>" ++ "<message>" ++ "<source>q</source>" ++
    "<comment>d</comment>" ++ "<extracomment>f</extracomment>" ++
    "<translatorcomment>h</translatorcomment>" ++ "<translation>t</translation>" ++
    "</message></context></TS>"

/-- An element that holds a text. -/
def textElement (name content : String) : Node :=
  .element ⟨name.toList, []⟩ [.text content.toList]

/-- The message with two parts of each kind. -/
def repeatedMessage : List Node :=
  [textElement "source" "p", textElement "source" "q", textElement "comment" "c",
    textElement "comment" "d", textElement "extracomment" "e", textElement "extracomment" "f",
    textElement "translatorcomment" "g", textElement "translatorcomment" "h",
    textElement "translation" "s", textElement "translation" "t"]

/-- The context with two names. -/
def repeatedContext : List Node :=
  [textElement "name" "a", textElement "name" "b", .element ⟨"message".toList, []⟩ repeatedMessage]

/-- The document with two parts of each kind. -/
def repeatedForest : List Node :=
  [.element ⟨"TS".toList, []⟩ [.element ⟨"context".toList, []⟩ repeatedContext]]

/-- The catalog of the last parts. -/
def lastParts : Catalog :=
  ⟨"2.0", none, none, [⟨"b", [⟨[], "q", some "d", some "f", some "h", none, .singular "t",
    .finished⟩]⟩]⟩

/-- The document is that of its forest, and it is read without a word. -/
theorem lenient_repeatedParts :
    (eventsOf (withoutByteOrderMark repeatedParts.toList)).map Prod.snd =
        Node.forestEvents repeatedForest ∧
      ofText .lenient repeatedParts = .ok ⟨lastParts, []⟩ := by
  unfold ofText repeatedParts
  repeat rewrite [String.toList_append]
  decide +kernel

/-- Two parts of each kind are read as the last ones alone. -/
theorem single_parts_read_alike :
    ∃ other, ofText .lenient singleParts = .ok other ∧ other.catalog = lastParts := by
  have shorter : (eventsOf (withoutByteOrderMark singleParts.toList)).map Prod.snd =
        Node.forestEvents (Node.documentWithoutReplaced repeatedForest) ∧
      (Cursor.ofText (withoutByteOrderMark singleParts.toList)).ending = .ok 197 := by
    unfold singleParts
    repeat rewrite [String.toList_append]
    decide +kernel
  obtain ⟨events, read⟩ := lenient_repeatedParts
  obtain ⟨other, read', same, _⟩ :=
    replaced_parts_leave_no_trace read events shorter.1 ⟨_, shorter.2⟩
  exact ⟨other, read', same⟩

/-- Of two parts of each kind the first ones are lost without a report, even under the
strict policy. -/
theorem repeated_parts_unreported :
    ∃ report forest, ofText .strict repeatedParts = .ok report ∧ report.warnings = [] ∧
      (eventsOf (withoutByteOrderMark repeatedParts.toList)).map Prod.snd =
        Node.forestEvents forest ∧
      (∃ tag children, Node.Reads forest .context tag children ∧
        ∃ first second, Node.texts? "name" children = some [first, second] ∧ first ≠ second) ∧
      ∃ tag children, Node.Reads forest (.message false) tag children ∧
        (∀ name ∈ ["source", "comment", "extracomment", "translatorcomment"],
          ∃ first second, Node.texts? name children = some [first, second] ∧ first ≠ second) ∧
        ∃ first second, Node.each? "translation" (Node.translation? false) children =
          some [first, second] ∧ first ≠ second := by
  have context : Node.Holds .root [.element ⟨"context".toList, []⟩ repeatedContext] .context
      ⟨"context".toList, []⟩ repeatedContext :=
    .here List.mem_cons_self
  have member : Node.element ⟨"message".toList, []⟩ repeatedMessage ∈ repeatedContext := by
    simp [repeatedContext]
  have message : Node.Holds .root [.element ⟨"context".toList, []⟩ repeatedContext]
      (Role.context.inside ⟨"message".toList, []⟩) ⟨"message".toList, []⟩ repeatedMessage :=
    .deeper List.mem_cons_self (.here member)
  rw [show Role.context.inside ⟨"message".toList, []⟩ = .message false by decide +kernel] at message
  refine ⟨_, repeatedForest, strict_of_no_warnings lenient_repeatedParts.2 rfl, rfl,
    lenient_repeatedParts.1, ⟨_, _, .inside rfl context, "a", "b", by decide +kernel, by decide⟩,
    _, _, .inside rfl message, fun name member => ?_, (.singular "s", .finished),
    (.singular "t", .finished), by decide +kernel, by decide⟩
  simp only [List.mem_cons, List.not_mem_nil, or_false] at member
  rcases member with rfl | rfl | rfl | rfl
  · exact ⟨"p", "q", by decide +kernel, by decide⟩
  · exact ⟨"c", "d", by decide +kernel, by decide⟩
  · exact ⟨"e", "f", by decide +kernel, by decide⟩
  · exact ⟨"g", "h", by decide +kernel, by decide⟩

end Report

end MessageCatalog
