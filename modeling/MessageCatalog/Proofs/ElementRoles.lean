import MessageCatalog.Proofs.CatalogOfForest

/-!
# Roles of elements

What an element is to a catalog follows from its name and from the element
around it. Its role tells whether its attributes are looked at and whether text
inside it counts. The reader keeps the roles of the open elements: a start tag
puts the role of its element on top of them, and the end tag takes it away. So
whatever the reader meets inside an element, it meets in that element's role.
-/

namespace MessageCatalog

/-- What an element is to the catalog that it is part of. -/
inductive Role where
  /-- The root element. -/
  | root
  /-- A context. -/
  | context
  /-- A message, and whether it has plural forms. -/
  | message (plural : Bool)
  /-- A location of a message. -/
  | location
  /-- A translation, and whether it has plural forms. -/
  | translation (plural : Bool)
  /-- Any other element that holds a text: a name, a part of a message, or a plural form. -/
  | text
  /-- The element for a control character. -/
  | byte
  /-- An element that is passed over with all that is inside it. -/
  | passed
  deriving DecidableEq

/-- Whether the start tag of a message says that it has plural forms. -/
def Node.isPlural (tag : Tag) : Bool :=
  (attributes? tag).bind (·.lookup "numerus") == some "yes"

namespace Role

/-- The role of an element that stands directly inside one of a role. -/
def inside (role : Role) (tag : Tag) : Role :=
  match role with
  | root =>
    match String.ofList tag.name with
    | "context" => context
    | _ => passed
  | context =>
    match String.ofList tag.name with
    | "name" => text
    | "message" => message (Node.isPlural tag)
    | _ => passed
  | message plural =>
    match String.ofList tag.name with
    | "location" => location
    | "source" => text
    | "comment" => text
    | "extracomment" => text
    | "translatorcomment" => text
    | "translation" => translation plural
    | _ => passed
  | translation true =>
    match String.ofList tag.name with
    | "numerusform" => text
    | _ => passed
  | translation false | text =>
    match String.ofList tag.name with
    | "byte" => byte
    | _ => passed
  | location | byte | passed => passed

/-- Whether the attributes of an element are looked at. -/
def readsAttributes : Role → Bool
  | root | message _ | location | translation _ | byte => true
  | context | text | passed => false

/-- Whether an element holds a text. -/
def isText : Role → Bool
  | text | translation false => true
  | _ => false

/-- Inside an element that holds a text only an element for a control character counts. -/
theorem inside_of_isText {role : Role} (h : role.isText = true) (tag : Tag) :
    role.inside tag = if String.ofList tag.name = "byte" then byte else passed := by
  have same : role.inside tag = text.inside tag := by
    cases role with
    | text => rfl
    | translation plural =>
      cases plural with
      | false => rfl
      | true => exact absurd h (by simp [isText])
    | root | context | message | location | byte | passed => exact absurd h (by simp [isText])
  rw [same, inside]
  split <;> simp_all

end Role

namespace Node

/-- Where parts stand inside an element of some role, an element with the role
that it has there, however deep it stands. -/
inductive Holds : Role → List Node → Role → Tag → List Node → Prop
  /-- The element is one of the parts. -/
  | here {role : Role} {nodes : List Node} {tag : Tag} {children : List Node}
    (part : element tag children ∈ nodes) : Holds role nodes (role.inside tag) tag children
  /-- The element stands inside one of the parts. -/
  | deeper {role inner : Role} {nodes children children' : List Node} {tag tag' : Tag}
    (part : element tag children ∈ nodes)
    (holds : Holds (role.inside tag) children inner tag' children') :
    Holds role nodes inner tag' children'

/-- The first root element of a document, and the elements inside it with their
roles. Elements outside of it have none. -/
inductive Reads (forest : List Node) : Role → Tag → List Node → Prop
  /-- The first root element itself. -/
  | root {tag : Tag} {children : List Node}
    (first : (named "TS" forest).head? = some (tag, children)) : Reads forest .root tag children
  /-- An element inside the first root element. -/
  | inside {tag tag' : Tag} {children children' : List Node} {role : Role}
    (first : (named "TS" forest).head? = some (tag, children))
    (holds : Holds .root children role tag' children') : Reads forest role tag' children'

end Node

namespace Reader

/-- The roles of the elements around the content of a text element, innermost first. -/
def TextHost.roles : TextHost → List Role
  | contextName _ => [.text, .context, .root]
  | part (.translation _) outer => [.translation false, .message outer.plural, .context, .root]
  | part _ outer => [.text, .message outer.plural, .context, .root]
  | form outer => [.text, .translation true, .message outer.outer.plural, .context, .root]

/-- The roles of the elements that are open at a place, innermost first. -/
def Place.roles : Place → List Role
  | document _ => []
  | root _ => [.root]
  | context _ => [.context, .root]
  | message inner => [.message inner.plural, .context, .root]
  | location _ outer => [.location, .message outer.plural, .context, .root]
  | forms inner => [.translation true, .message inner.outer.plural, .context, .root]
  | text host _ => host.roles
  | byte _ host _ => .byte :: host.roles
  | skipped outer => .passed :: outer.roles

/-- What holds a text has the role of a text. -/
theorem TextHost.isText_of_head {host : TextHost} {top : Role} (h : top ∈ host.roles.head?) :
    top.isText = true := by
  rcases host with _ | ⟨_ | _ | _ | _ | _, _⟩ | _ <;> cases h <;> rfl

namespace Place

/-- A place behind a start tag: the role of its element is on top of those around
it, and it is the one that the element has there. -/
def IsBehind (inner place : Place) (tag : Tag) : Prop :=
  ∃ role, inner.roles = role :: place.roles ∧ ∀ top ∈ place.roles.head?, role = top.inside tag

/-- A start tag that always leads to one place. -/
theorem isBehind_of_pure {place found inner : Place} {tag : Tag} (role : Role)
    (roles : found.roles = role :: place.roles)
    (own : ∀ top ∈ place.roles.head?, role = top.inside tag)
    (h : (pure found : Step Place).outcome = .ok inner) : inner.IsBehind place tag := by
  injection h with h
  exact ⟨role, h ▸ roles, own⟩

/-- A start tag that does not belong where it stands. -/
theorem isBehind_of_unexpected {place inner : Place} {tag : Tag}
    (unexpected : ∀ top ∈ place.roles.head?, .passed = top.inside tag)
    (h : (place.skipUnexpected tag).outcome = .ok inner) : inner.IsBehind place tag := by
  injection h with h
  exact ⟨.passed, h ▸ rfl, unexpected⟩

/-- The start tag of a part of a message. -/
theorem isBehind_of_message {outer : OpenMessage} {inner : Place} {tag : Tag}
    (h : ((message outer).enter tag).outcome = .ok inner) :
    inner.IsBehind (message outer) tag := by
  rw [enter_message] at h
  split at h
  case h_1 name =>
    obtain ⟨_, _, rfl⟩ := startLocation_eq_ok h
    exact ⟨.location, rfl, by simp [roles, Role.inside, name]⟩
  case h_6 name =>
    obtain ⟨_, status, _, _, rfl⟩ := startTranslation_eq_ok h
    refine ⟨.translation outer.plural, ?_, by simp [roles, Role.inside, name]⟩
    cases plural : outer.plural <;> simp [roles, TextHost.roles, plural]
  case h_7 => exact isBehind_of_unexpected (by simp_all [roles, Role.inside]) h
  all_goals
    next name => exact isBehind_of_pure .text rfl (by simp [roles, Role.inside, name]) h

/-- The start tag of a part of a text element. -/
theorem isBehind_of_text {host : TextHost} {content : String} {inner : Place} {tag : Tag}
    (h : ((text host content).enter tag).outcome = .ok inner) :
    inner.IsBehind (text host content) tag := by
  have own (top : Role) (member : top ∈ host.roles.head?) :
      top.inside tag = if String.ofList tag.name = "byte" then .byte else .passed :=
    Role.inside_of_isText (TextHost.isText_of_head member) tag
  simp only [enter] at h
  split at h
  next name =>
    obtain ⟨_, _, rfl⟩ := startByte_eq_ok h
    exact ⟨.byte, rfl, fun top member => by rw [own top member, if_pos name]⟩
  next other =>
    exact isBehind_of_unexpected (fun top member => by rw [own top member, if_neg other]) h

/-- A start tag puts on top the role that its element has there. -/
theorem enter_isBehind {place inner : Place} {tag : Tag}
    (h : (place.enter tag).outcome = .ok inner) : inner.IsBehind place tag := by
  cases place with
  | document catalog =>
    cases catalog with
    | none =>
      simp only [enter] at h
      split at h
      · obtain ⟨_, _, rfl⟩ := OpenCatalog.start_eq_ok h
        exact ⟨.root, rfl, by simp [roles]⟩
      · exact isBehind_of_unexpected (by simp [roles]) h
    | some catalog => exact isBehind_of_unexpected (by simp [roles]) h
  | root catalog =>
    simp only [enter] at h
    split at h
    next name => exact isBehind_of_pure .context rfl (by simp [roles, Role.inside, name]) h
    next => exact isBehind_of_unexpected (by simp [roles, Role.inside]) h
  | context outer =>
    rw [enter_context] at h
    split at h
    next name => exact isBehind_of_pure .text rfl (by simp [roles, Role.inside, name]) h
    next name =>
      obtain ⟨attributes, read, rfl⟩ := OpenMessage.start_eq_ok h
      refine ⟨_, rfl, ?_⟩
      simp [roles, Role.inside, name, Node.isPlural, Node.attributes?_of_read read]
    next => exact isBehind_of_unexpected (by simp_all [roles, Role.inside]) h
  | message outer => exact isBehind_of_message h
  | forms outer =>
    simp only [enter] at h
    split at h
    next name => exact isBehind_of_pure .text rfl (by simp [roles, Role.inside, name]) h
    next => exact isBehind_of_unexpected (by simp [roles, Role.inside]) h
  | text host content => exact isBehind_of_text h
  | location | byte | skipped => exact isBehind_of_pure .passed rfl (by simp [roles, Role.inside]) h

/-- Inside an element that has a role, the elements have the roles that they have
in such an element. -/
theorem head_of_enter {place inner : Place} {top : Role} {tag : Tag}
    (head : place.roles.head? = some top) (h : (place.enter tag).outcome = .ok inner) :
    inner.roles.head? = some (top.inside tag) := by
  obtain ⟨role, behind, own⟩ := enter_isBehind h
  rw [behind, own top head, List.head?_cons]

/-- An end tag can always be taken, and takes the topmost role away. -/
theorem leave_eq_ok (place : Place) :
    ∃ next, place.leave.outcome = .ok next ∧ next.roles = place.roles.tail := by
  cases place with
  | context inner => exact ⟨_, inner.close_outcome, rfl⟩
  | message inner => exact ⟨_, inner.close_outcome, rfl⟩
  | text host content =>
    rcases host with _ | ⟨_ | _ | _ | _ | _, _⟩ | _ <;> exact ⟨_, rfl, rfl⟩
  | byte value host content =>
    simp only [leave]
    split <;> exact ⟨_, rfl, rfl⟩
  | document | root | location | forms | skipped => exact ⟨_, rfl, rfl⟩

mutual

/-- Behind a part of a document the same elements are open as before it. -/
theorem visit_roles {place next : Place} {node : Node} (h : (place.visit node).outcome = .ok next) :
    next.roles = place.roles := by
  match node with
  | .text run =>
    rcases takeText_eq_ok h with ⟨host, content, plain, rfl, _, rfl⟩ | ⟨_, rfl⟩ <;> rfl
  | .data content =>
    rcases takeData_eq_ok h with ⟨host, content, rfl, rfl⟩ | ⟨_, rfl⟩ <;> rfl
  | .declaration attributes => rw [takeDeclaration_eq_ok h]
  | .remark =>
    injection h with h
    rw [h]
  | .element tag children =>
    obtain ⟨inner, entered, last, inside, left⟩ := visit_element_eq_ok.mp h
    obtain ⟨role, behind, _⟩ := enter_isBehind entered
    obtain ⟨found, left', roles⟩ := leave_eq_ok last
    rw [left] at left'
    injection left' with same
    rw [same, roles, visitAll_roles inside, behind, List.tail_cons]

/-- Behind some parts of a document the same elements are open as before them. -/
theorem visitAll_roles {place final : Place} {nodes : List Node}
    (h : (place.visitAll nodes).outcome = .ok final) : final.roles = place.roles := by
  match nodes with
  | [] =>
    injection h with h
    rw [h]
  | node :: rest =>
    obtain ⟨next, first, h⟩ := visitAll_cons_eq_ok.mp h
    rw [visitAll_roles h, visit_roles first]

end

/-- Outside of every element is the document. -/
theorem eq_document_of_roles {place : Place} (h : place.roles = []) :
    ∃ catalog, place = document catalog := by
  cases place with
  | document catalog => exact ⟨catalog, rfl⟩
  | text host content =>
    rcases host with _ | ⟨_ | _ | _ | _ | _, _⟩ | _ <;> exact absurd h (by simp [roles, TextHost.roles])
  | root | context | message | location | forms | byte | skipped =>
    exact absurd h (by simp [roles])

/-! ## What is met inside an element -/

/-- All that is noted in one of some parts is noted in them. -/
theorem visit_of_mem {place final : Place} {nodes : List Node}
    (h : (place.visitAll nodes).outcome = .ok final) {node : Node} (member : node ∈ nodes) :
    ∃ before after : Place, before.roles = place.roles ∧
      (before.visit node).outcome = .ok after ∧
      (before.visit node).notes ⊆ (place.visitAll nodes).notes := by
  induction nodes generalizing place with
  | nil => exact absurd member List.not_mem_nil
  | cons first rest ih =>
    obtain ⟨next, taken, h⟩ := visitAll_cons_eq_ok.mp h
    have notes : (place.visitAll (first :: rest)).notes =
        (place.visit first).notes ++ (next.visitAll rest).notes := by
      rw [visitAll, Step.bind_of_ok taken]
    rw [notes]
    rcases List.mem_cons.mp member with rfl | later
    · exact ⟨place, next, rfl, taken, List.subset_append_left _ _⟩
    · obtain ⟨before, after, same, found, noted⟩ := ih h later
      exact ⟨before, after, same.trans (visit_roles taken), found,
        List.subset_append_of_subset_right _ noted⟩

/-- The reader has gone over an element in a role: through its start tag, and over
all that is inside it, where it noted nothing that is not among the given notes. -/
def Covers (role : Role) (tag : Tag) (children : List Node) (notes : List Irregularity) : Prop :=
  ∃ outer inner last : Place, (outer.enter tag).outcome = .ok inner ∧
    inner.roles.head? = some role ∧ (inner.visitAll children).outcome = .ok last ∧
    (inner.visitAll children).notes ⊆ notes

/-- What is noted inside an element is noted in the element. -/
theorem notes_inside_subset {place inner last : Place} {tag : Tag} {children : List Node}
    (entered : (place.enter tag).outcome = .ok inner)
    (inside : (inner.visitAll children).outcome = .ok last) :
    (inner.visitAll children).notes ⊆ (place.visit (.element tag children)).notes := by
  rw [visit, Step.bind_of_ok entered, Step.bind_of_ok inside]
  intro note member
  simp [member]

/-- A reader that has gone over an element was inside of it in the role that the
element has. -/
theorem covers_of_visit {place next : Place} {tag : Tag} {children : List Node}
    (h : (place.visit (.element tag children)).outcome = .ok next) :
    ∃ role, (∀ top ∈ place.roles.head?, role = top.inside tag) ∧
      Covers role tag children (place.visit (.element tag children)).notes := by
  obtain ⟨inner, entered, last, inside, left⟩ := visit_element_eq_ok.mp h
  obtain ⟨role, behind, own⟩ := enter_isBehind entered
  exact ⟨role, own, place, inner, last, entered, by rw [behind]; rfl, inside,
    notes_inside_subset entered inside⟩

/-- A reader that has gone over some parts has gone over every element inside them. On the
way down the role on top of the reader's is the one that `Holds` goes by. -/
theorem covers_of_holds {role inner : Role} {nodes children : List Node} {tag : Tag}
    (holds : Node.Holds role nodes inner tag children) {place final : Place}
    (top : place.roles.head? = some role) (h : (place.visitAll nodes).outcome = .ok final) :
    Covers inner tag children (place.visitAll nodes).notes := by
  induction holds generalizing place final with
  | here part =>
    obtain ⟨before, after, same, found, noted⟩ := visit_of_mem h part
    obtain ⟨role, own, outer, inner, last, entered, kind, inside, notes⟩ := covers_of_visit found
    rw [own _ (by rw [same]; exact top)] at kind
    exact ⟨outer, inner, last, entered, kind, inside, List.Subset.trans notes noted⟩
  | deeper part holds ih =>
    obtain ⟨before, after, same, found, noted⟩ := visit_of_mem h part
    obtain ⟨role, own, outer, inner, last, entered, kind, inside, notes⟩ := covers_of_visit found
    rw [own _ (by rw [same]; exact top)] at kind
    obtain ⟨outer', inner', last', entered', kind', inside', notes'⟩ := ih kind inside
    exact ⟨outer', inner', last', entered', kind', inside',
      List.Subset.trans notes' (List.Subset.trans notes noted)⟩

/-- More may be noted than what is noted inside an element. -/
theorem Covers.mono {role : Role} {tag : Tag} {children : List Node}
    {fewer more : List Irregularity} (h : Covers role tag children fewer) (le : fewer ⊆ more) :
    Covers role tag children more := by
  obtain ⟨outer, inner, last, entered, top, inside, notes⟩ := h
  exact ⟨outer, inner, last, entered, top, inside, List.Subset.trans notes le⟩

/-- A reader that has gone over a document has gone over its first root element. -/
theorem covers_root {forest children : List Node} {tag : Tag} {final : Place}
    (first : (Node.named "TS" forest).head? = some (tag, children))
    (h : ((document none).visitAll forest).outcome = .ok final) :
    Covers .root tag children ((document none).visitAll forest).notes := by
  induction forest with
  | nil => exact absurd first (by simp [Node.named])
  | cons node rest ih =>
    obtain ⟨next, taken, h⟩ := visitAll_cons_eq_ok.mp h
    rw [visitAll, Step.bind_of_ok taken]
    cases found : Node.asElement? "TS" node with
    | none =>
      rw [Node.named, List.filterMap_cons_none found] at first
      rw [visit_before_root found taken] at h ⊢
      exact (ih first h).mono (List.subset_append_right _ _)
    | some element =>
      rw [Node.named, List.filterMap_cons_some found, List.head?_cons] at first
      obtain ⟨tag', children', rfl, name, rfl⟩ := Node.asElement?_eq_some found
      injection first with same
      injection same with same_tag same_children
      subst same_tag same_children
      obtain ⟨inner, entered, last, inside, left⟩ := visit_element_eq_ok.mp taken
      have start : (document none).enter tag' = OpenCatalog.start tag' := by
        simp only [enter, name]
      obtain ⟨_, _, rfl⟩ := OpenCatalog.start_eq_ok (start ▸ entered)
      exact ⟨document none, _, last, entered, rfl, inside,
        List.Subset.trans (notes_inside_subset entered inside) (List.subset_append_left _ _)⟩

/-- A reader that has gone over a document has gone over each element of it that
has a role. -/
theorem covers_of_reads {forest children : List Node} {role : Role} {tag : Tag} {final : Place}
    (reads : Node.Reads forest role tag children)
    (h : ((document none).visitAll forest).outcome = .ok final) :
    Covers role tag children ((document none).visitAll forest).notes := by
  cases reads with
  | root first => exact covers_root first h
  | inside first holds =>
    obtain ⟨outer, inner, last, entered, top, inside, notes⟩ := covers_root first h
    exact (covers_of_holds holds top inside).mono notes

end Place

end Reader

end MessageCatalog
