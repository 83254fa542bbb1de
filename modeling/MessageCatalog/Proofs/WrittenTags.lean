import MessageCatalog.CatalogWriter
import MessageCatalog.Markup
import MessageCatalog.Proofs.EscapedText

/-!
# Written tags are read

A tag is written as a name with attributes behind it. Its values have their
quotes escaped, so the bracket that ends the tag is the first one outside of
quotes, and the attributes are read back as they were written, if no two of
them have the same key.
-/

namespace MessageCatalog

/-- The names of elements and attributes that are written: letters and digits. -/
def IsName (name : List Char) : Prop := name ≠ [] ∧ name.all Char.isAlphanum = true

instance (name : List Char) : Decidable (IsName name) := by
  unfold IsName; infer_instance

/-- A character of a name is no other character. -/
theorem IsName.ne {name : List Char} (named : IsName name) {c : Char} (member : c ∈ name)
    (other : Char) (sign : other.isAlphanum = false) : c ≠ other := by
  rintro rfl
  rw [List.all_eq_true.mp named.2 c member] at sign
  exact absurd sign (by decide)

/-- A character of a name is no white space. -/
theorem IsName.notSpace {name : List Char} (named : IsName name) {c : Char} (member : c ∈ name) :
    isTagSpace c = false := by
  have notBlank : c ≠ ' ' := named.ne member _ (by decide)
  have notReturn : c ≠ '\r' := named.ne member _ (by decide)
  have notLineFeed : c ≠ '\n' := named.ne member _ (by decide)
  have notTab : c ≠ '\t' := named.ne member _ (by decide)
  simp [isTagSpace, notBlank, notReturn, notLineFeed, notTab]

/-- A name that an element can have: nothing in it ends the name or the tag, or makes other
markup of it. -/
structure IsElementName (name : List Char) : Prop where
  /-- There is a name. -/
  some : name ≠ []
  /-- It does not end at white space. -/
  solid : ∀ c ∈ name, isTagSpace c = false
  /-- It has no brackets and no quotes. -/
  plain : ∀ c ∈ name, Entity.isMarkupSign c = false
  /-- It has no signs of other markup. -/
  apart : ∀ c ∈ name, c ≠ '/' ∧ c ≠ '!' ∧ c ≠ '?'

/-- An element can have a written name. -/
theorem IsName.isElementName {name : List Char} (named : IsName name) : IsElementName name where
  some := named.1
  solid _ member := named.notSpace member
  plain c member := by
    have notLess : c ≠ '<' := named.ne member _ (by decide)
    have notGreater : c ≠ '>' := named.ne member _ (by decide)
    have notDouble : c ≠ '\x22' := named.ne member _ (by decide)
    have notSingle : c ≠ '\x27' := named.ne member _ (by decide)
    simp [Entity.isMarkupSign, notLess, notGreater, notDouble, notSingle]
  apart _ member := ⟨named.ne member _ (by decide), named.ne member _ (by decide),
    named.ne member _ (by decide)⟩

/-- White space is no sign of markup. -/
theorem isMarkupSign_of_isTagSpace {c : Char} (blank : isTagSpace c = true) :
    Entity.isMarkupSign c = false := by
  simp only [isTagSpace, Bool.or_eq_true, beq_iff_eq] at blank
  rcases blank with ((rfl | rfl) | rfl) | rfl <;> rfl

/-- Attributes as they can be written: white space, a key, an equals sign and a value in
quotes of either kind, and this again. White space may stand around the equals sign and
behind the last value. -/
inductive AttributesText : List Char → Prop
  /-- White space alone. -/
  | blank {space : List Char} (blank : ∀ c ∈ space, isTagSpace c = true) : AttributesText space
  /-- One attribute before others. The white space around the equals sign counts as part of
  the key or is the gap. -/
  | entry {space key gap value rest : List Char} {quote : Char} (some : space ≠ [])
    (blank : ∀ c ∈ space, isTagSpace c = true)
    (plain : ∀ c ∈ key, Entity.isMarkupSign c = false)
    (between : ∀ c ∈ gap, isTagSpace c = true) (sign : quote = '\x27' ∨ quote = '\x22')
    (unquoted : ∀ c ∈ value, c ≠ quote) (behind : AttributesText rest) :
    AttributesText (space ++ key ++ ['='] ++ gap ++ quote :: (value ++ [quote]) ++ rest)

/-- What is taken of a text up to the first character that fails a test. -/
theorem takeWhile_append_cons {p : Char → Bool} {front : List Char} {mark : Char}
    (all : ∀ c ∈ front, p c = true) (fails : p mark = false) (rest : List Char) :
    (front ++ mark :: rest).takeWhile p = front := by
  rw [List.takeWhile_append_of_pos all, List.takeWhile_cons_of_neg (by simp [fails]),
    List.append_nil]

/-- What is left of a text from the first character on that fails a test. -/
theorem dropWhile_append_cons {p : Char → Bool} {front : List Char} {mark : Char}
    (all : ∀ c ∈ front, p c = true) (fails : p mark = false) (rest : List Char) :
    (front ++ mark :: rest).dropWhile p = mark :: rest := by
  rw [List.dropWhile_append_of_pos all, List.dropWhile_cons_of_neg (by simp [fails])]

namespace Written

/-- The characters of some attributes, each behind a space. -/
def attributeTexts (attributes : List (String × String)) : List Char :=
  attributes.flatMap fun entry => (attributeText entry.1 entry.2).toList

/-- An element on a line of its own. -/
def elementLine (indentation name : List Char) (attributes : List (String × String))
    (inside : List Char) : List Char :=
  indentation ++ '<' :: (name ++ attributeTexts attributes ++ '>' ::
    (inside ++ '<' :: '/' :: (name ++ '>' :: ['\n'])))

/-- An element on a line of its own that closes itself. -/
def closedLine (indentation name : List Char) (attributes : List (String × String)) : List Char :=
  indentation ++ '<' :: (name ++ attributeTexts attributes ++ '/' :: '>' :: ['\n'])

/-- An attribute is its key, an equals sign and its value in quotes. -/
theorem toList_attributeText (key value : String) :
    (attributeText key value).toList =
      ' ' :: (key.toList ++ '=' :: '\x22' ::
        (value.toList.flatMap Entity.escapeMarkup ++ ['\x22'])) := by
  simp [attributeText, attributeValue]

/-- An optional attribute is a list of none or one. -/
theorem toList_optionalAttribute (key : String) (value : Option String) :
    (optionalAttribute key value).toList =
      attributeTexts (value.map (key, ·)).toList := by
  cases value <;> simp [optionalAttribute, attributeTexts]

/-- Some attributes behind others. -/
theorem attributeTexts_append (first second : List (String × String)) :
    attributeTexts (first ++ second) = attributeTexts first ++ attributeTexts second :=
  List.flatMap_append

end Written

namespace AttributesText

/-- Attributes begin with white space. -/
theorem isTagSpace_of_head {attributes : List Char} (h : AttributesText attributes) :
    ∀ c ∈ attributes.head?, isTagSpace c = true := by
  cases h with
  | blank blank => exact fun c first => blank c (List.mem_of_head? first)
  | entry some blank =>
    obtain ⟨first, more, rfl⟩ := List.exists_cons_of_ne_nil some
    rintro _ ⟨⟩
    exact blank first List.mem_cons_self

/-- Attributes do not end with a slash. -/
theorem getLast?_ne {attributes : List Char} (h : AttributesText attributes) :
    attributes.getLast? ≠ some '/' := by
  induction h with
  | blank blank => exact fun last => absurd (blank _ (List.mem_of_getLast? last)) (by decide)
  | @entry _ _ _ _ rest _ _ _ _ _ sign _ _ ih =>
    rw [List.getLast?_append]
    cases last : rest.getLast? with
    | none =>
      rw [← List.cons_append, ← List.append_assoc, List.getLast?_concat]
      rcases sign with rfl | rfl <;> decide
    | some c =>
      rw [last] at ih
      exact ih

/-- Written attributes with names for keys are attributes. -/
theorem written {attributes : List (String × String)}
    (named : ∀ entry ∈ attributes, IsName entry.1.toList) :
    AttributesText (Written.attributeTexts attributes) := by
  induction attributes with
  | nil => exact .blank (by simp [Written.attributeTexts])
  | cons entry rest ih =>
    obtain ⟨key, value⟩ := entry
    have shape : Written.attributeTexts ((key, value) :: rest) =
        [' '] ++ key.toList ++ ['='] ++ [] ++
          '\x22' :: (value.toList.flatMap Entity.escapeMarkup ++ ['\x22']) ++
            Written.attributeTexts rest := by
      simp [Written.attributeTexts, Written.toList_attributeText]
    rw [shape]
    exact .entry (by simp) (List.forall_mem_singleton.mpr rfl) (named _ List.mem_cons_self).isElementName.plain
      (by simp) (.inr rfl) (Entity.unquoted_escaped value.toList)
      (ih fun entry member => named entry (List.mem_cons_of_mem _ member))

end AttributesText

namespace Tag

/-- A key is read up to the equals sign behind it. -/
theorem takeKey_written {key : List Char} (named : IsName key) (position : Nat)
    (rest : List Char) : ∃ start stop,
      takeKey position (' ' :: (key ++ '=' :: rest)) = .ok (some ⟨key, start, stop, rest⟩) := by
  obtain ⟨first, more, rfl⟩ := List.exists_cons_of_ne_nil named.1
  have blank : isTagSpace ' ' = true := by decide
  have solid : isTagSpace first = false := named.notSpace List.mem_cons_self
  have inKey (c : Char) (member : c ∈ more) : (!(c == '=' || isTagSpace c)) = true := by
    have later := List.mem_cons_of_mem first member
    simp [named.ne later '=' (by decide), named.notSpace later]
  have equals : (!('=' == '=' || isTagSpace '=')) = false := by decide
  have solidEquals : isTagSpace '=' = false := by decide
  unfold takeKey
  simp only [List.dropWhile_cons, blank, solid, List.cons_append, Bool.false_eq_true, if_true,
    if_false, takeWhile_append_cons inKey equals, dropWhile_append_cons inKey equals, solidEquals]
  exact ⟨_, _, rfl⟩

/-- A value is read up to the quote behind it. -/
theorem takeValue_written {value : List Char} (unquoted : ∀ c ∈ value, c ≠ '\x22')
    (position : Nat) (rest : List Char) : ∃ stop,
      takeValue position ('\x22' :: (value ++ '\x22' :: rest)) = .ok ⟨value, stop, rest⟩ := by
  have solid : isTagSpace '\x22' = false := by decide
  have inside (c : Char) (member : c ∈ value) : (c != '\x22') = true := by
    simpa using unquoted c member
  have stops : ('\x22' != '\x22') = false := by decide
  unfold takeValue
  simp only [List.dropWhile_cons, solid, Bool.false_eq_true, if_false, true_or, if_true,
    takeWhile_append_cons inside stops, dropWhile_append_cons inside stops]
  exact ⟨_, rfl⟩

/-- Where there is no key any more, all attributes are read. -/
theorem readAttributes_of_none {position : Nat} {seen : List (List Char × Nat)}
    {before : Array (String × String)} {text : List Char}
    (none : takeKey position text = .ok none) :
    readAttributes position seen before text = .ok before.toList := by
  rw [readAttributes]
  split <;> simp_all

/-- A new key with a value is read before the attributes behind it. -/
theorem readAttributes_of_some {position : Nat} {seen : List (List Char × Nat)}
    {before : Array (String × String)} {text : List Char} {key : AttributeKey}
    {value : AttributeValue} {plain : String} (read : takeKey position text = .ok (some key))
    (unseen : seen.find? (·.1 == key.key) = none)
    (taken : takeValue key.stop key.rest = .ok value)
    (resolved : Entity.unescape value.value = .ok plain) :
    readAttributes position seen before text =
      readAttributes value.stop ((key.key, key.position) :: seen)
        (before.push (String.ofList key.key, plain)) value.rest := by
  rw [readAttributes]
  split
  · simp_all
  · simp_all
  next found equation =>
    rw [read] at equation
    injection equation with equation
    injection equation with equation
    subst equation
    rw [unseen]
    dsimp only
    split
    · simp_all
    next value' equation' =>
      rw [taken] at equation'
      injection equation' with equation'
      subst equation'
      rw [resolved]

/-- Written attributes with names for keys are read back, if no key stands twice. -/
theorem readAttributes_written {attributes : List (String × String)}
    (named : ∀ entry ∈ attributes, IsName entry.1.toList)
    (distinct : (attributes.map Prod.fst).Nodup) (position : Nat)
    (seen : List (List Char × Nat))
    (fresh : ∀ earlier ∈ seen, String.ofList earlier.1 ∉ attributes.map Prod.fst)
    (before : Array (String × String)) :
    readAttributes position seen before (Written.attributeTexts attributes) =
      .ok (before.toList ++ attributes) := by
  induction attributes generalizing position seen before with
  | nil =>
    rw [List.append_nil]
    exact readAttributes_of_none rfl
  | cons entry rest ih =>
    obtain ⟨key, value⟩ := entry
    rw [List.map_cons, List.nodup_cons] at distinct
    have unquoted := Entity.unquoted_escaped value.toList
    have shape : Written.attributeTexts ((key, value) :: rest) =
        ' ' :: (key.toList ++ '=' :: '\x22' :: (value.toList.flatMap Entity.escapeMarkup ++
          '\x22' :: Written.attributeTexts rest)) := by
      simp [Written.attributeTexts, Written.toList_attributeText]
    obtain ⟨start, stop, read⟩ := takeKey_written (named _ List.mem_cons_self) position
      ('\x22' :: (value.toList.flatMap Entity.escapeMarkup ++
        '\x22' :: Written.attributeTexts rest))
    obtain ⟨behind, taken⟩ := takeValue_written unquoted stop (Written.attributeTexts rest)
    have unseen : seen.find? (·.1 == key.toList) = none := by
      rw [List.find?_eq_none]
      intro earlier member same
      have absent := fresh earlier member
      rw [eq_of_beq same, String.ofList_toList] at absent
      exact absent List.mem_cons_self
    rw [shape, readAttributes_of_some read unseen taken (Entity.unescape_escapeMarkup _)]
    dsimp only
    rw [ih (fun entry member => named entry (List.mem_cons_of_mem _ member)) distinct.2]
    · simp
    · intro earlier member
      rcases List.mem_cons.mp member with rfl | member
      · rw [String.ofList_toList]
        exact distinct.1
      · exact fun later => fresh earlier member (List.mem_cons_of_mem _ later)

/-- The attributes of a written tag are read back. -/
theorem attributeList_written {name : List Char} {attributes : List (String × String)}
    (named : ∀ entry ∈ attributes, IsName entry.1.toList)
    (distinct : (attributes.map Prod.fst).Nodup) :
    attributeList ⟨name, Written.attributeTexts attributes⟩ = .ok attributes := by
  rw [attributeList, readAttributes_written named distinct _ [] (by simp)]
  simp

/-- The name of a tag ends at its first attribute. -/
theorem ofContent_eq {name attributes : List Char} (named : IsElementName name)
    (spelled : AttributesText attributes) : ofContent (name ++ attributes) = ⟨name, attributes⟩ := by
  have solid (c : Char) (member : c ∈ name) : (!isTagSpace c) = true := by
    simp [named.solid c member]
  rw [ofContent, List.takeWhile_append_of_pos solid, List.dropWhile_append_of_pos solid]
  cases attributes with
  | nil => simp
  | cons c rest =>
    have blank : (!isTagSpace c) = false := by simp [spelled.isTagSpace_of_head c rfl]
    rw [List.takeWhile_cons_of_neg (by simp [blank]), List.dropWhile_cons_of_neg (by simp [blank]),
      List.append_nil]

end Tag

namespace Cursor

/-- Content of a tag that closes its quotes and has no bracket outside of them. -/
def Unbroken (content : List Char) : Prop :=
  ∀ before text, splitTag none before (content ++ text) =
    splitTag none (content.reverse ++ before) text

namespace Unbroken

/-- No content at all. -/
theorem nil : Unbroken [] := fun _ _ => rfl

/-- Some content behind other content. -/
theorem append {first second : List Char} (hf : Unbroken first) (hs : Unbroken second) :
    Unbroken (first ++ second) := by
  intro before text
  rw [List.append_assoc, hf, hs, List.reverse_append, List.append_assoc]

/-- A character that is no sign of markup. -/
theorem singleton {c : Char} (plain : Entity.isMarkupSign c = false) : Unbroken [c] := by
  intro before text
  simp only [Entity.isMarkupSign, Bool.or_eq_false_iff, beq_eq_false_iff_ne] at plain
  rw [List.singleton_append, splitTag]
  simp [plain]

/-- Characters that are no signs of markup. -/
theorem of_plain {content : List Char}
    (plain : ∀ c ∈ content, Entity.isMarkupSign c = false) : Unbroken content := by
  induction content with
  | nil => exact nil
  | cons c rest ih =>
    have here := singleton (plain c List.mem_cons_self)
    exact here.append (ih fun d member => plain d (List.mem_cons_of_mem _ member))

/-- A quote is read up to its end. -/
theorem splitTag_quoted {quote : Char} {value : List Char} (unquoted : ∀ c ∈ value, c ≠ quote)
    (before text : List Char) :
    splitTag (some quote) before (value ++ quote :: text) =
      splitTag none (quote :: (value.reverse ++ before)) text := by
  induction value generalizing before with
  | nil =>
    rw [List.nil_append, splitTag]
    simp
  | cons c rest ih =>
    have inside := unquoted c List.mem_cons_self
    rw [List.cons_append, splitTag]
    simp only [if_neg inside]
    rw [ih (fun d member => unquoted d (List.mem_cons_of_mem _ member))]
    simp

/-- A quoted value. -/
theorem quoted {quote : Char} (sign : quote = '\x27' ∨ quote = '\x22') {value : List Char}
    (unquoted : ∀ c ∈ value, c ≠ quote) : Unbroken (quote :: (value ++ [quote])) := by
  intro before text
  have inner : quote ≠ '>' := by rcases sign with rfl | rfl <;> decide
  rw [List.cons_append, List.append_assoc, List.singleton_append, splitTag]
  simp only [if_neg inner, if_pos sign]
  rw [splitTag_quoted unquoted]
  simp

/-- White space. -/
theorem of_blank {space : List Char} (blank : ∀ c ∈ space, isTagSpace c = true) :
    Unbroken space :=
  of_plain fun c member => isMarkupSign_of_isTagSpace (blank c member)

/-- Attributes as they can be written. -/
theorem of_attributes {attributes : List Char} (spelled : AttributesText attributes) :
    Unbroken attributes := by
  induction spelled with
  | blank blank => exact of_blank blank
  | entry _ blank plain between sign unquoted _ ih =>
    have equals : Unbroken ['='] := singleton (by decide)
    exact (((((of_blank blank).append (of_plain plain)).append equals).append
      (of_blank between)).append (quoted sign unquoted)).append ih

/-- The first bracket behind such content ends the tag. -/
theorem splitTag_eq {content : List Char} (h : Unbroken content) (rest : List Char) :
    splitTag none [] (content ++ '>' :: rest) = some (content, rest) := by
  rw [h, List.append_nil, splitTag]
  simp

end Unbroken

end Cursor

end MessageCatalog
