import MessageCatalog.Proofs.ElementNesting

/-!
# The structural reading of a document

What a catalog document says can be read off its forest of elements by plain
recursion: children are found by name, the last one of a kind counts where
there is one value, and all of them count where there is a list. This module
tells that reading. It knows neither places nor events.
-/

namespace MessageCatalog

namespace Node

/-- An element of some name, as its tag and what is inside it. -/
def asElement? (name : String) : Node → Option (Tag × List Node)
  | element tag children => if String.ofList tag.name = name then some (tag, children) else none
  | text _ | data _ | declaration _ | remark => none

/-- The elements of some name, in their order. What is inside of others does not
count. -/
def named (name : String) (nodes : List Node) : List (Tag × List Node) :=
  nodes.filterMap (asElement? name)

/-- What is an element of some name. -/
theorem asElement?_eq_some {name : String} {node : Node} {found : Tag × List Node}
    (h : node.asElement? name = some found) :
    ∃ tag children, node = element tag children ∧ String.ofList tag.name = name ∧
      found = (tag, children) := by
  cases node with
  | element tag children =>
    rw [asElement?] at h
    split at h
    next own => exact ⟨tag, children, rfl, own, (Option.some.inj h).symm⟩
    next => exact absurd h (by simp)
  | text | data | declaration | remark => exact absurd h (by simp [asElement?])

/-- The attributes of a tag, if they can be read. -/
def attributes? (tag : Tag) : Option (List (String × String)) := tag.attributeList.toOption

/-- What a part of a text element adds to its text: a run of text its characters,
entities resolved; character data all characters; an element for a control
character that character; and everything else nothing. -/
def piece? : Node → Option String
  | text run => (Entity.unescape run).toOption
  | data content => some (String.ofList content)
  | element tag _ =>
    if String.ofList tag.name = "byte" then do
      let attributes ← attributes? tag
      some (((attributes.lookup "value").bind Reader.byteCharacter?).elim "" String.singleton)
    else some ""
  | declaration _ | remark => some ""

/-- The text of a text element: what its parts add, in their order. -/
def plainText? (nodes : List Node) : Option String := (nodes.mapM piece?).map String.join

/-- Read all elements of some name, in their order. -/
def each? {α : Type} (name : String) (read : Tag × List Node → Option α) (nodes : List Node) :
    Option (List α) :=
  (named name nodes).mapM read

/-- The texts of all elements of some name, in their order. -/
def texts? (name : String) (nodes : List Node) : Option (List String) :=
  each? name (fun element => plainText? element.2) nodes

/-- A location is told by its attributes alone. -/
def location? (element : Tag × List Node) : Option Location := do
  let attributes ← attributes? element.1
  some ⟨attributes.lookup "filename", (attributes.lookup "line").bind LineNumber.parse?⟩

/-- A translation has the status of its type. With plural forms it is the list of
them, without it is its text. -/
def translation? (plural : Bool) (element : Tag × List Node) :
    Option (Translation × Status) := do
  let attributes ← attributes? element.1
  let status ← Status.ofMark? (attributes.lookup "type")
  if plural then
    let forms ← texts? "numerusform" element.2
    some (.plural forms, status)
  else
    let content ← plainText? element.2
    some (.singular content, status)

/-- A message, or nothing if it has no source text. Of repeated children the last
one counts, but all locations do. A translation that is missing is empty and
unfinished. -/
def message? (element : Tag × List Node) : Option (Option Message) := do
  let attributes ← attributes? element.1
  let plural := attributes.lookup "numerus" == some "yes"
  let locations ← each? "location" location? element.2
  let sources ← texts? "source" element.2
  let comments ← texts? "comment" element.2
  let extraComments ← texts? "extracomment" element.2
  let translatorComments ← texts? "translatorcomment" element.2
  let translations ← each? "translation" (translation? plural) element.2
  let missing : Translation × Status :=
    (if plural then .plural [] else .singular "", .unfinished)
  let (translation, status) := translations.getLast?.getD missing
  some (sources.getLast?.map fun source =>
    { locations := locations
      source := source
      comment := comments.getLast?
      extraComment := extraComments.getLast?
      translatorComment := translatorComments.getLast?
      utf8 := attributes.lookup "utf8"
      translation := translation
      status := status })

/-- A context with its last name, or none, and all messages that have a source
text. -/
def context? (element : Tag × List Node) : Option Context := do
  let names ← texts? "name" element.2
  let messages ← each? "message" message? element.2
  some ⟨names.getLast?.getD "", messages.reduceOption⟩

/-- The catalog of a document: its first root element with all contexts. -/
def catalog? (forest : List Node) : Option Catalog := do
  let element ← (named "TS" forest).head?
  let attributes ← attributes? element.1
  let contexts ← each? "context" context? element.2
  some ⟨(attributes.lookup "version").getD defaultVersion, attributes.lookup "language",
    attributes.lookup "sourcelanguage", contexts⟩

/-- The attributes of a tag that can be read are its attributes. -/
theorem attributes?_of_read {tag : Tag} {attributes : List (String × String)}
    (read : tag.attributeList = .ok attributes) : attributes? tag = some attributes := by
  rw [attributes?, read]
  rfl

variable {α : Type} {name : String} {read : Tag × List Node → Option α}

/-- Elements of some name are read part by part. -/
theorem each?_cons {node : Node} {rest : List Node} {first more : List α}
    (hf : each? name read [node] = some first) (hm : each? name read rest = some more) :
    each? name read (node :: rest) = some (first ++ more) := by
  have split : named name (node :: rest) = named name [node] ++ named name rest := by
    rw [named, named, named, ← List.filterMap_append, List.singleton_append]
  rw [each?] at hf hm ⊢
  rw [split, List.mapM_append, hf, hm]
  rfl

/-- An element of the name is read. -/
theorem each?_own {tag : Tag} {children : List Node} (own : String.ofList tag.name = name) :
    each? name read [element tag children] = (read (tag, children)).map ([·]) := by
  simp only [each?, named, List.filterMap_cons, List.filterMap_nil, asElement?, if_pos own,
    List.mapM_cons, List.mapM_nil]
  cases read (tag, children) <;> rfl

/-- An element of another name is not looked at. -/
theorem each?_other {tag : Tag} {children : List Node} (other : String.ofList tag.name ≠ name) :
    each? name read [element tag children] = some [] := by
  simp only [each?, named, List.filterMap_cons, List.filterMap_nil, asElement?, if_neg other,
    List.mapM_nil]
  rfl

/-- What is no element is not looked at. -/
theorem each?_of_not_element {node : Node} (plain : ∀ tag children, node ≠ element tag children) :
    each? name read [node] = some [] := by
  cases node with
  | element tag children => exact absurd rfl (plain tag children)
  | text | data | declaration | remark => rfl

/-- What some parts make of the value of which the last one counts. -/
def LastOf {α : Type} (name : String) (read : Tag × List Node → Option α) (nodes : List Node)
    (before after : Option α) : Prop :=
  ∃ values, each? name read nodes = some values ∧ after = values.getLast?.or before

namespace LastOf

variable {α : Type} {name : String} {read : Tag × List Node → Option α} {before : Option α}

/-- No parts change nothing. -/
theorem nil : LastOf name read [] before before := ⟨[], rfl, rfl⟩

/-- What is no element changes nothing. -/
theorem of_not_element {node : Node} (plain : ∀ tag children, node ≠ element tag children) :
    LastOf name read [node] before before :=
  ⟨[], each?_of_not_element plain, rfl⟩

/-- An element of another name changes nothing. -/
theorem other {tag : Tag} {children : List Node} (other : String.ofList tag.name ≠ name) :
    LastOf name read [element tag children] before before :=
  ⟨[], each?_other other, rfl⟩

/-- An element of the name counts. -/
theorem own {tag : Tag} {children : List Node} {value : α} (own : String.ofList tag.name = name)
    (h : read (tag, children) = some value) :
    LastOf name read [element tag children] before (some value) :=
  ⟨[value], by rw [each?_own own, h]; rfl, rfl⟩

/-- Later parts count before earlier ones. -/
theorem trans {node : Node} {rest : List Node} {between after : Option α}
    (first : LastOf name read [node] before between) (more : LastOf name read rest between after) :
    LastOf name read (node :: rest) before after := by
  obtain ⟨values, hv, rfl⟩ := first
  obtain ⟨values', hv', rfl⟩ := more
  refine ⟨values ++ values', each?_cons hv hv', ?_⟩
  rw [List.getLast?_append, Option.or_assoc]

end LastOf

/-- What some parts make of a list to which all of them count. -/
def AllOf {α : Type} (name : String) (read : Tag × List Node → Option α) (nodes : List Node)
    (before after : List α) : Prop :=
  ∃ values, each? name read nodes = some values ∧ after = before ++ values

namespace AllOf

variable {α : Type} {name : String} {read : Tag × List Node → Option α} {before : List α}

/-- No parts change nothing. -/
theorem nil : AllOf name read [] before before := ⟨[], rfl, (List.append_nil before).symm⟩

/-- What is no element changes nothing. -/
theorem of_not_element {node : Node} (plain : ∀ tag children, node ≠ element tag children) :
    AllOf name read [node] before before :=
  ⟨[], each?_of_not_element plain, (List.append_nil before).symm⟩

/-- An element of another name changes nothing. -/
theorem other {tag : Tag} {children : List Node} (other : String.ofList tag.name ≠ name) :
    AllOf name read [element tag children] before before :=
  ⟨[], each?_other other, (List.append_nil before).symm⟩

/-- An element of the name is added. -/
theorem own {tag : Tag} {children : List Node} {value : α} (own : String.ofList tag.name = name)
    (h : read (tag, children) = some value) :
    AllOf name read [element tag children] before (before ++ [value]) :=
  ⟨[value], by rw [each?_own own, h]; rfl, rfl⟩

/-- Later parts are behind earlier ones. -/
theorem trans {node : Node} {rest : List Node} {between after : List α}
    (first : AllOf name read [node] before between) (more : AllOf name read rest between after) :
    AllOf name read (node :: rest) before after := by
  obtain ⟨values, hv, rfl⟩ := first
  obtain ⟨values', hv', rfl⟩ := more
  exact ⟨values ++ values', each?_cons hv hv', List.append_assoc _ _ _⟩

end AllOf

end Node

end MessageCatalog
