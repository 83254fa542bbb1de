import MessageCatalog.Proofs.ReaderSteps
import MessageCatalog.Proofs.WrittenTags

/-!
# Reading written markup

Reading is followed from one standing to another: what is left of the text,
the names of the open elements, and the place of the reader. A written tag, a
run of text and white space between elements each lead a step further, without
a note, and steps can be put behind each other.
-/

namespace MessageCatalog

namespace Cursor

/-- Reading from one cursor gives some events and goes on from another. -/
structure Passes (before : Cursor) (found : List MarkupEvent) (after : Cursor) : Prop where
  /-- The events come first. -/
  events_eq : before.events.map Prod.snd = found ++ after.events.map Prod.snd
  /-- Reading ends alike. -/
  ending_eq : before.ending = after.ending

namespace Passes

/-- Nothing is read. -/
theorem refl (cursor : Cursor) : cursor.Passes [] cursor := ⟨rfl, rfl⟩

/-- Reading goes on. -/
theorem trans {first second third : Cursor} {found found' : List MarkupEvent}
    (hf : first.Passes found second) (hs : second.Passes found' third) :
    first.Passes (found ++ found') third where
  events_eq := by rw [hf.events_eq, hs.events_eq, List.append_assoc]
  ending_eq := hf.ending_eq.trans hs.ending_eq

/-- One event is read. -/
theorem of_event {cursor after : Cursor} {offset : Nat} {event : MarkupEvent}
    (h : cursor.next = .event offset event after) : cursor.Passes [event] after where
  events_eq := by
    rw [events_of_event h]
    rfl
  ending_eq := ending_of_event h

end Passes

/-- Markup is read behind its bracket. -/
theorem next_bracket (rest : List Char) (offset : Nat) (opened : List (List Char)) :
    next ⟨'<' :: rest, offset, opened, false⟩ = readMarkup opened (offset + 1) rest := rfl

/-- A name is the beginning of a start tag. -/
theorem readMarkup_name {name : List Char} (named : IsElementName name)
    (opened : List (List Char)) (offset : Nat) (rest : List Char) :
    readMarkup opened offset (name ++ rest) = readStart opened offset (name ++ rest) := by
  obtain ⟨first, more, rfl⟩ := List.exists_cons_of_ne_nil named.some
  obtain ⟨notSlash, notBang, notQuestion⟩ := named.apart first List.mem_cons_self
  rw [List.cons_append]
  unfold readMarkup
  split <;> simp_all

/-- A tag with attributes behind its name does not close itself. -/
theorem getLast?_tag {name attributes : List Char} (named : IsElementName name)
    (spelled : AttributesText attributes) : (name ++ attributes).getLast? ≠ some '/' := by
  have later := spelled.getLast?_ne
  rw [List.getLast?_append]
  cases last : attributes.getLast? with
  | none => exact fun last => (named.apart '/' (List.mem_of_getLast? last)).1 rfl
  | some c =>
    rw [last] at later
    exact later

/-- A start tag opens its element. -/
theorem next_start {name attributes : List Char} (named : IsElementName name)
    (spelled : AttributesText attributes) (opened : List (List Char)) (offset : Nat)
    (rest : List Char) : ∃ after,
      next ⟨'<' :: (name ++ attributes ++ '>' :: rest), offset, opened, false⟩ =
        .event after (.start ⟨name, attributes⟩) ⟨rest, after, name :: opened, false⟩ := by
  have unbroken := (Unbroken.of_plain named.plain).append (.of_attributes spelled)
  have stays : ((name ++ attributes).getLast? == some '/') = false := by
    simpa using getLast?_tag named spelled
  refine ⟨offset + 1 + Utf8.length (name ++ attributes) + 1, ?_⟩
  rw [next_bracket, List.append_assoc, readMarkup_name named, ← List.append_assoc, readStart,
    unbroken.splitTag_eq]
  simp only [stays, Bool.false_eq_true, if_false, Tag.ofContent_eq named spelled]

/-- A tag with a slash at its end opens its element, and the end is due. -/
theorem next_closing {name attributes : List Char} (named : IsElementName name)
    (spelled : AttributesText attributes) (opened : List (List Char)) (offset : Nat)
    (rest : List Char) : ∃ after,
      next ⟨'<' :: (name ++ attributes ++ '/' :: '>' :: rest), offset, opened, false⟩ =
        .event after (.start ⟨name, attributes⟩) ⟨rest, after, name :: opened, true⟩ := by
  have slash : Unbroken ['/'] := Unbroken.singleton (by decide)
  have unbroken := ((Unbroken.of_plain named.plain).append (.of_attributes spelled)).append slash
  have closes : ((name ++ attributes ++ ['/']).getLast? == some '/') = true := by
    simp
  refine ⟨offset + 1 + Utf8.length (name ++ attributes ++ ['/']) + 1, ?_⟩
  rw [next_bracket, List.append_assoc, readMarkup_name named, ← List.append_assoc, readStart,
    List.append_cons, unbroken.splitTag_eq]
  simp only [closes, if_true, List.dropLast_concat, Tag.ofContent_eq named spelled]

/-- A due end closes the element. -/
theorem next_due (rest : List Char) (offset : Nat) (name : List Char)
    (opened : List (List Char)) :
    next ⟨rest, offset, name :: opened, true⟩ =
      .event offset .stop ⟨rest, offset, opened, false⟩ := rfl

/-- Nothing but the white space behind a name is trimmed. -/
theorem trimName_name {name space : List Char} (named : IsElementName name)
    (blank : ∀ c ∈ space, isTagSpace c = true) : trimName (name ++ space) = name := by
  obtain ⟨front, last, rfl⟩ := List.eq_nil_or_concat name |>.resolve_left named.some
  rw [List.concat_eq_append] at named ⊢
  have solid : isTagSpace last = false := named.solid last (by simp)
  have some : ¬(front ++ [last] ++ space).all isTagSpace = true := by
    simp [solid]
  rw [trimName, if_neg some, List.reverse_append,
    List.dropWhile_append_of_pos fun c member => blank c (List.mem_reverse.mp member),
    List.reverse_concat, List.dropWhile_cons_of_neg (by simp [solid]), List.reverse_cons,
    List.reverse_reverse]

/-- An end tag closes the element of its name. White space may stand behind the name. -/
theorem next_stop {name space : List Char} (named : IsElementName name)
    (blank : ∀ c ∈ space, isTagSpace c = true) (opened : List (List Char)) (offset : Nat)
    (rest : List Char) : ∃ after,
      next ⟨'<' :: '/' :: (name ++ space ++ '>' :: rest), offset, name :: opened, false⟩ =
        .event after .stop ⟨rest, after, opened, false⟩ := by
  have sign {c : Char} (plain : Entity.isMarkupSign c = false) : (c != '>') = true := by
    simp only [Entity.isMarkupSign, Bool.or_eq_false_iff] at plain
    simp [bne, plain]
  have inside (c : Char) (member : c ∈ name ++ space) : (c != '>') = true := by
    rcases List.mem_append.mp member with here | behind
    · exact sign (named.plain c here)
    · exact sign (isMarkupSign_of_isTagSpace (blank c behind))
  have stops : ('>' != '>') = false := by decide
  rw [next_bracket]
  change ∃ after, readEnd (name :: opened) (offset + 1) (name ++ space ++ '>' :: rest) = _
  unfold readEnd
  simp only [takeWhile_append_cons inside stops, dropWhile_append_cons inside stops,
    trimName_name named blank, if_true]
  exact ⟨_, rfl⟩

/-- A run of characters up to the next bracket, or up to the end, is text. -/
theorem next_text {run : List Char} (some : run ≠ []) (plain : ∀ c ∈ run, c ≠ '<')
    (opened : List (List Char)) (offset : Nat) {rest : List Char}
    (bracket : ∀ c ∈ rest.head?, c = '<') : ∃ place after,
      next ⟨run ++ rest, offset, opened, false⟩ =
        .event place (.text run) ⟨rest, after, opened, false⟩ := by
  obtain ⟨first, more, rfl⟩ := List.exists_cons_of_ne_nil some
  have solid : first ≠ '<' := plain first List.mem_cons_self
  have inside (c : Char) (member : c ∈ more) : (c != '<') = true := by
    simpa using plain c (List.mem_cons_of_mem _ member)
  have behind : rest.takeWhile (· != '<') = [] ∧ rest.dropWhile (· != '<') = rest := by
    cases rest with
    | nil => exact ⟨rfl, rfl⟩
    | cons c more =>
      have same : c = '<' := bracket c rfl
      rw [same]
      exact ⟨rfl, rfl⟩
  simp only [next, Bool.false_eq_true, if_false, List.cons_append,
    List.takeWhile_append_of_pos inside, List.dropWhile_append_of_pos inside, behind.1,
    behind.2, List.append_nil]
  exact ⟨_, _, rfl⟩

end Cursor

namespace Reader

/-- How far reading has come. -/
structure Standing where
  /-- The text that is left. -/
  rest : List Char
  /-- The names of the open elements. -/
  opened : List (List Char)
  /-- The place of the reader. -/
  place : Place

namespace Standing

/-- Reading leads from one standing to another, and nothing is noted on the way. -/
def Leads (before after : Standing) : Prop :=
  ∀ offset, ∃ offset' found,
    Cursor.Passes ⟨before.rest, offset, before.opened, false⟩ found
      ⟨after.rest, offset', after.opened, false⟩ ∧
    before.place.takeAll found = pure after.place

/-- Reading stays where it stands. -/
theorem Leads.refl (standing : Standing) : standing.Leads standing :=
  fun offset => ⟨offset, [], Cursor.Passes.refl _, rfl⟩

/-- Reading goes on. -/
theorem Leads.trans {first second third : Standing} (hf : first.Leads second)
    (hs : second.Leads third) : first.Leads third := by
  intro offset
  obtain ⟨between, found, pf, tf⟩ := hf offset
  obtain ⟨behind, found', ps, ts⟩ := hs between
  refine ⟨behind, found ++ found', pf.trans ps, ?_⟩
  rw [Place.takeAll_append, tf, pure_bind, ts]

instance : Trans Leads Leads Leads := ⟨Leads.trans⟩

/-- One event leads where the reader takes it. -/
theorem Leads.of_next (event : MarkupEvent) {rest rest' : List Char}
    {opened opened' : List (List Char)} {place next : Place}
    (found : ∀ offset, ∃ counted after,
      Cursor.next ⟨rest, offset, opened, false⟩ =
        .event counted event ⟨rest', after, opened', false⟩)
    (taken : place.take event = pure next) :
    Leads ⟨rest, opened, place⟩ ⟨rest', opened', next⟩ := by
  intro offset
  obtain ⟨_, after, found⟩ := found offset
  refine ⟨after, [event], Cursor.Passes.of_event found, ?_⟩
  rw [Place.takeAll, taken, pure_bind]
  rfl

/-- A start tag leads into its element. -/
theorem leads_start {name : List Char} (named : IsName name)
    {attributes : List (String × String)} (keys : ∀ entry ∈ attributes, IsName entry.1.toList)
    {place inner : Place}
    (entered : place.enter ⟨name, Written.attributeTexts attributes⟩ = pure inner)
    (opened : List (List Char)) (rest : List Char) :
    Leads ⟨'<' :: (name ++ Written.attributeTexts attributes ++ '>' :: rest), opened, place⟩
      ⟨rest, name :: opened, inner⟩ := by
  refine Leads.of_next (.start ⟨name, _⟩) (fun offset => ?_) entered
  obtain ⟨after, found⟩ := Cursor.next_start named.isElementName (.written keys) opened offset rest
  exact ⟨after, after, found⟩

/-- A tag that closes itself leads into its element and out again. -/
theorem leads_closing {name : List Char} (named : IsName name)
    {attributes : List (String × String)} (keys : ∀ entry ∈ attributes, IsName entry.1.toList)
    {place inner next : Place}
    (entered : place.enter ⟨name, Written.attributeTexts attributes⟩ = pure inner)
    (left : inner.leave = pure next) (opened : List (List Char)) (rest : List Char) :
    Leads ⟨'<' :: (name ++ Written.attributeTexts attributes ++ '/' :: '>' :: rest), opened, place⟩
      ⟨rest, opened, next⟩ := by
  intro offset
  obtain ⟨after, found⟩ := Cursor.next_closing named.isElementName (.written keys) opened offset rest
  have due := Cursor.next_due rest after name opened
  refine ⟨after, _, (Cursor.Passes.of_event found).trans (Cursor.Passes.of_event due), ?_⟩
  simp only [List.cons_append, List.nil_append, Place.takeAll, Place.take, entered, left, pure_bind]

/-- An end tag leads out of its element. -/
theorem leads_stop {name : List Char} (named : IsName name) {place next : Place}
    (left : place.leave = pure next) (opened : List (List Char)) (rest : List Char) :
    Leads ⟨'<' :: '/' :: (name ++ '>' :: rest), name :: opened, place⟩ ⟨rest, opened, next⟩ := by
  refine Leads.of_next .stop (fun offset => ?_) left
  have none : ∀ c ∈ ([] : List Char), isTagSpace c = true := by simp
  obtain ⟨after, found⟩ := Cursor.next_stop named.isElementName none opened offset rest
  rw [List.append_nil] at found
  exact ⟨after, after, found⟩

/-- A run of text, which may be empty, leads where the reader takes it. -/
theorem leads_text {run : List Char} (plain : ∀ c ∈ run, c ≠ '<') {place next : Place}
    (taken : place.takeText run = pure next) (none : run = [] → next = place)
    (opened : List (List Char)) {rest : List Char} (bracket : ∀ c ∈ rest.head?, c = '<') :
    Leads ⟨run ++ rest, opened, place⟩ ⟨rest, opened, next⟩ := by
  by_cases empty : run = []
  · rw [none empty, empty]
    exact Leads.refl _
  · exact Leads.of_next (.text run)
      (fun offset => Cursor.next_text empty plain opened offset bracket) taken

end Standing

end Reader

namespace Report

/-- Where reading leads through a whole document to a catalog, the document has
this catalog and nothing irregular. -/
theorem ofText_of_leads {text : String} {catalog : Catalog}
    (plain : text.toList.head? ≠ some '\uFEFF')
    (h : Reader.Standing.Leads ⟨text.toList, [], .document none⟩
      ⟨[], [], .document (some catalog)⟩) (policy : Policy) :
    ofText policy text = .ok ⟨catalog, []⟩ := by
  obtain ⟨offset, found, passes, taken⟩ := h 0
  have whole : withoutByteOrderMark text.toList = text.toList := by
    unfold withoutByteOrderMark
    split <;> simp_all
  have start : Cursor.ofText text.toList = ⟨text.toList, 0, [], false⟩ := by
    unfold Cursor.ofText
    split <;> simp_all
  have finished : Cursor.next ⟨[], offset, [], false⟩ = .finished offset := rfl
  have events : (eventsOf text.toList).map Prod.snd = found := by
    rw [eventsOf, start, passes.events_eq, (Cursor.events_of_finished finished).1, List.map_nil,
      List.append_nil]
  have ended : (Cursor.ofText text.toList).ending = .ok offset := by
    rw [start, passes.ending_eq, (Cursor.events_of_finished finished).2]
  rw [← events] at taken
  obtain ⟨quiet, reached⟩ := Reader.Place.of_takeAll_eq_pure taken
  have regular : irregularities text.toList = [] := by
    rw [irregularities, quiet, List.map_nil]
  have content : contentOf text.toList = .ok catalog := by
    rw [contentOf, reached, ended]
    rfl
  have lenient : ofText .lenient text = .ok ⟨catalog, []⟩ := by
    rw [ofText, whole, ofChars_lenient, content, regular]
  cases policy with
  | lenient => exact lenient
  | strict =>
    rw [ofText, whole, ofChars_strict, regular]
    rw [ofText, whole] at lenient
    exact lenient

end Report

end MessageCatalog
