import MessageCatalog.Proofs.WrittenContent

/-!
# Reading written lines

A document is written line by line, and the white space between two elements
is the end of one line with the indentation of the next. So lines are followed
from any white space in front of them to some white space behind them. Blocks
of lines can be put behind each other and into elements, and each adds what it
says to the place where the reader is.
-/

namespace MessageCatalog

namespace Reader

/-- White space between elements. -/
def Layout (run : List Char) : Prop := ∀ c ∈ run, isLayout c = true

/-- Nothing between elements. -/
theorem Layout.nil : Layout [] := fun _ member => absurd member List.not_mem_nil

/-- White space behind white space. -/
theorem Layout.append {first second : List Char} (hf : Layout first) (hs : Layout second) :
    Layout (first ++ second) := by
  intro c member
  rcases List.mem_append.mp member with before | behind
  · exact hf c before
  · exact hs c behind

/-- The end of a line. -/
theorem Layout.lineEnd : Layout ['\n'] := by
  intro c member
  rw [List.mem_singleton.mp member]
  decide

/-- Indentation. -/
theorem Layout.of_all {run : List Char} (all : run.all isLayout = true) : Layout run :=
  List.all_eq_true.mp all

/-- A place between elements. -/
def Place.IsBetween : Place → Prop
  | document _ | root _ | context _ | message _ | forms _ => True
  | _ => False

/-- White space leads nowhere between elements. -/
theorem Place.takeText_layout {place : Place} (between : place.IsBetween) {run : List Char}
    (layout : Layout run) : place.takeText run = pure place := by
  have all : run.all isLayout = true := List.all_eq_true.mpr layout
  cases place <;>
    first
    | exact absurd between id
    | exact if_pos all

/-- White space has no brackets in it. -/
theorem Layout.bracketless {run : List Char} (layout : Layout run) : ∀ c ∈ run, c ≠ '<' := by
  rintro c member rfl
  exact absurd (layout '<' member) (by decide)

namespace Standing

/-- White space in front of markup leads nowhere. -/
theorem leads_layout {place : Place} (between : place.IsBetween) {run : List Char}
    (layout : Layout run) (opened : List (List Char)) (rest : List Char) :
    Leads ⟨run ++ '<' :: rest, opened, place⟩ ⟨'<' :: rest, opened, place⟩ :=
  leads_text layout.bracketless (Place.takeText_layout between layout) (fun _ => rfl) opened
    (fun _ member => (Option.some.inj member).symm)

/-- Whether some lines lead from one place to another. White space in front of them
is read with them, and some behind them is left. -/
def Lines (opened : List (List Char)) (lines : List Char) (place next : Place) : Prop :=
  ∀ front, Layout front → ∃ behind, Layout behind ∧ ∀ rest,
    Leads ⟨front ++ (lines ++ rest), opened, place⟩ ⟨behind ++ rest, opened, next⟩

namespace Lines

variable {opened : List (List Char)} {place next : Place}

/-- No lines lead nowhere. -/
theorem nil : Lines opened [] place place :=
  fun front layout => ⟨front, layout, fun _ => Leads.refl _⟩

/-- Lines behind each other. -/
theorem append {lines lines' : List Char} {last : Place} (first : Lines opened lines place next)
    (second : Lines opened lines' next last) : Lines opened (lines ++ lines') place last := by
  intro front layout
  obtain ⟨between, layout, hf⟩ := first front layout
  obtain ⟨behind, layout, hs⟩ := second between layout
  refine ⟨behind, layout, fun rest => ?_⟩
  rw [List.append_assoc]
  exact (hf (lines' ++ rest)).trans (hs rest)

/-- The lines of some items, each of which is added to those before. -/
theorem flatMap {α : Type} {write : α → List Char} {place : Array α → Place}
    (each : ∀ before item, Lines opened (write item) (place before) (place (before.push item)))
    (items : List α) :
    Lines opened (items.flatMap write) (place #[]) (place items.toArray) := by
  have behind (before : Array α) :
      Lines opened (items.flatMap write) (place before) (place (before ++ items.toArray)) := by
    induction items generalizing before with
    | nil =>
      rw [Array.append_empty]
      exact nil
    | cons item rest ih =>
      have later := ih (before.push item)
      have whole : before.push item ++ rest.toArray = before ++ (item :: rest).toArray := by simp
      rw [whole] at later
      exact (each before item).append later
  have all := behind #[]
  rw [Array.empty_append] at all
  exact all

variable {name : List Char} {attributes : List (String × String)} {indentation : List Char}

/-- A text element on a line of its own. -/
theorem textElement {host : TextHost} (named : IsName name)
    (keys : ∀ entry ∈ attributes, IsName entry.1.toList)
    (entered : place.enter ⟨name, Written.attributeTexts attributes⟩ = pure (.text host ""))
    (between : place.IsBetween) {content : String} (left : (Place.text host content).leave = pure next)
    (indented : Layout indentation) :
    Lines opened (Written.elementLine indentation name attributes
      (content.toList.flatMap Entity.escapeText)) place next := by
  intro front layout
  refine ⟨['\n'], Layout.lineEnd, fun rest => ?_⟩
  let stop := '/' :: (name ++ '>' :: '\n' :: rest)
  let start := name ++ Written.attributeTexts attributes ++ '>' ::
    (content.toList.flatMap Entity.escapeText ++ '<' :: stop)
  have indent := leads_layout between (layout.append indented) opened start
  have into := leads_start named keys entered opened
    (content.toList.flatMap Entity.escapeText ++ '<' :: stop)
  have inside := leads_text_content Entity.Resolves.nil (by simp) content.toList host ""
    (name :: opened) stop
  rw [String.empty_append, List.nil_append, List.nil_append, String.ofList_toList] at inside
  have out := leads_stop named left opened ('\n' :: rest)
  have whole := ((indent.trans into).trans inside).trans out
  simpa [Written.elementLine, start, stop] using whole

/-- An element on a line of its own that closes itself. -/
theorem closing {inner : Place} (named : IsName name)
    (keys : ∀ entry ∈ attributes, IsName entry.1.toList)
    (entered : place.enter ⟨name, Written.attributeTexts attributes⟩ = pure inner)
    (between : place.IsBetween) (left : inner.leave = pure next) (indented : Layout indentation) :
    Lines opened (Written.closedLine indentation name attributes) place next := by
  intro front layout
  refine ⟨['\n'], Layout.lineEnd, fun rest => ?_⟩
  let start := name ++ Written.attributeTexts attributes ++ '/' :: '>' :: '\n' :: rest
  have indent := leads_layout between (layout.append indented) opened start
  have through := leads_closing named keys entered left opened ('\n' :: rest)
  have whole := indent.trans through
  simpa [Written.closedLine, start] using whole

/-- An element with lines inside. -/
theorem element {inner last : Place} {lines front' behind' : List Char} (named : IsName name)
    (keys : ∀ entry ∈ attributes, IsName entry.1.toList)
    (entered : place.enter ⟨name, Written.attributeTexts attributes⟩ = pure inner)
    (between : place.IsBetween) (inside : Lines (name :: opened) lines inner last) (between' : last.IsBetween)
    (left : last.leave = pure next) (indented : Layout indentation) (layout : Layout front')
    (layout' : Layout behind') :
    Lines opened (Written.elementLine indentation name attributes (front' ++ (lines ++ behind')))
      place next := by
  intro front before
  obtain ⟨behind, after, inside⟩ := inside front' layout
  refine ⟨['\n'], Layout.lineEnd, fun rest => ?_⟩
  let stop := '/' :: (name ++ '>' :: '\n' :: rest)
  let start := name ++ Written.attributeTexts attributes ++ '>' ::
    (front' ++ (lines ++ (behind' ++ '<' :: stop)))
  have indent := leads_layout between (before.append indented) opened start
  have into := leads_start named keys entered opened
    (front' ++ (lines ++ (behind' ++ '<' :: stop)))
  have within := inside (behind' ++ '<' :: stop)
  have outdent := leads_layout between' (after.append layout') (name :: opened) stop
  rw [List.append_assoc] at outdent
  have out := leads_stop named left opened ('\n' :: rest)
  have whole := (((indent.trans into).trans within).trans outdent).trans out
  simpa [Written.elementLine, start, stop] using whole

end Lines

end Standing

end Reader

end MessageCatalog
