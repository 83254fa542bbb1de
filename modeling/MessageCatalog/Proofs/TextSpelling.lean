import Mathlib.Data.List.Nodup
import MessageCatalog.Proofs.CharacterEntities
import MessageCatalog.Proofs.ContentText
import MessageCatalog.Proofs.ElementReading
import MessageCatalog.Proofs.EntryOrder
import MessageCatalog.Proofs.WrittenContent

/-!
# Spellings of a text

A text can be written in pieces: characters as they are, named entities, numbers of
characters, sections of character data, elements for single characters, and comments,
which say nothing. The pieces do not fit the events of the cursor, since characters and
entities join in one run of text. However a text is written, it is read as it is.
-/

namespace MessageCatalog

/-- A piece of a text as it is written, and what it stands for. -/
inductive Spelling : List Char → List Char → Prop
  /-- Characters that are no signs of markup stand for themselves. -/
  | raw {run : List Char} (plain : ∀ c ∈ run, c ≠ '<' ∧ c ≠ '&') : Spelling run run
  /-- A named entity. -/
  | named {name : List Char} {c : Char} (known : (name, c) ∈ Entity.namedEntities) :
    Spelling ('&' :: (name ++ [';'])) [c]
  /-- The number of a character, without zeros in front. -/
  | number {radix : Radix} {digits : List Char} {c : Char} (numeral : radix.Numeral digits c.toNat)
    (zeroless : digits.head? ≠ some '0') (some : c ≠ '\x00') :
    Spelling ('&' :: '#' :: (Entity.numberMark radix ++ digits ++ [';'])) [c]
  /-- A section of character data. -/
  | data {content : List Char} (absent : ¬[']', ']', '>'] <:+: content) :
    Spelling (Cursor.dataText content) content
  /-- The element for a character, which has the number as its value. -/
  | byte {written digits : List Char} {tag : Tag} {children : List Node}
    {attributes : List (String × String)} {value : String} {radix : Radix} {c : Char}
    (element : Cursor.IsElement written tag children) (name : String.ofList tag.name = "byte")
    (read : tag.attributeList = .ok attributes) (member : ("value", value) ∈ attributes)
    (numeral : radix.Numeral digits c.toNat)
    (spelled : value.toList = Entity.numberMark radix ++ digits) : Spelling written [c]
  /-- A comment, which stands for nothing. -/
  | comment {content : List Char} (absent : ¬['-', '-', '>'] <:+: content) :
    Spelling (Cursor.commentText content) []

namespace Reader

/-- The number of a character in its element is read from its numeral. -/
theorem byteCharacter?_numeral {radix : Radix} {digits : List Char} {c : Char} {value : String}
    (numeral : radix.Numeral digits c.toNat)
    (spelled : value.toList = Entity.numberMark radix ++ digits) : byteCharacter? value = some c := by
  have small : c.toNat < UInt32.size := c.val.toNat_lt_size
  have valid : c.toNat.isValidChar := c.valid
  have read := numeral.below?_eq small
  have found {code : Option Nat} (same : code = some c.toNat) :
      (code.filter fun code => decide code.isValidChar).map Char.ofNat = some c := by
    rw [same, Option.filter_some, if_pos (decide_eq_true valid), Option.map_some, Char.ofNat_toNat]
  unfold byteCharacter?
  rw [spelled]
  refine found ?_
  cases radix with
  | hexadecimal => exact read
  | decimal =>
    obtain ⟨first, rest, rfl⟩ := List.exists_cons_of_ne_nil numeral.ne_nil
    obtain ⟨d, digit⟩ := numeral.exists_digit first List.mem_cons_self
    split
    next same => exact absurd (List.cons.inj same).1 (Radix.digit_plain digit).2.2.1
    next => exact read

namespace Place

/-- In a text element the element for a character adds the character. -/
theorem visit_byte {tag : Tag} {children : List Node} {attributes : List (String × String)}
    {value : String} {c : Char} (name : String.ofList tag.name = "byte")
    (read : tag.attributeList = .ok attributes) (member : ("value", value) ∈ attributes)
    (character : byteCharacter? value = some c) (host : TextHost) (content : String) :
    (text host content).visit (.element tag children) = pure (text host (content.push c)) := by
  have distinct := Tag.attributeList_nodup read
  have found : (attributes.find? (·.1 == "value")).map Prod.snd = some value := by
    have unique : ∀ a ∈ attributes, ∀ b ∈ attributes, (a.1 == "value") = true →
        (b.1 == "value") = true → a = b := fun a member b also here there =>
      List.inj_on_of_nodup_map distinct member also
        ((eq_of_beq here).trans (eq_of_beq there).symm)
    rw [(find?_eq_some_iff_of_unique unique).mpr ⟨member, rfl⟩, Option.map_some]
  have known : Step.attributes tag = pure attributes := by
    rw [Step.attributes, read]
    rfl
  have own : ((some value).bind byteCharacter?) = some c := character
  simp only [visit_text_eq, pieceOf, if_pos name, known, pure_bind, found, own, map_pure,
    String.append_singleton]

end Place

namespace Standing

/-- A run of the cursor leads where its events take the reader. -/
theorem leads_of_run {rest rest' : List Char} {opened opened' : List (List Char)}
    {place next : Place} {events : List MarkupEvent}
    (run : ∀ offset, ∃ counted, Cursor.Run ⟨rest, offset, opened, false⟩ events
      ⟨rest', counted, opened', false⟩)
    (taken : place.takeAll events = pure next) :
    Leads ⟨rest, opened, place⟩ ⟨rest', opened', next⟩ := by
  intro offset
  obtain ⟨counted, run⟩ := run offset
  exact ⟨counted, events, run.passes, taken⟩

end Standing

end Reader

/-- A piece is part of a run of text, or it is markup that leads behind its text. -/
theorem Spelling.run_or_markup {written plain : List Char} (h : Spelling written plain) :
    (Entity.Resolves written plain ∧ ∀ c ∈ written, c ≠ '<') ∨
      (∃ more, written = '<' :: more) ∧ ∀ (host : Reader.TextHost) content opened rest,
        Reader.Standing.Leads ⟨written ++ rest, opened, .text host content⟩
          ⟨rest, opened, .text host (content ++ String.ofList plain)⟩ := by
  cases h with
  | raw simple =>
    exact .inl ⟨Entity.resolves_plain fun c member => (simple c member).2,
      fun c member => (simple c member).1⟩
  | named known => exact .inl ⟨Entity.resolves_named known, Entity.bracketless_named known⟩
  | number numeral zeroless some =>
    exact .inl ⟨Entity.resolves_number numeral zeroless some, Entity.bracketless_number numeral⟩
  | data absent =>
    refine .inr ⟨⟨_, rfl⟩, fun host content opened rest => ?_⟩
    refine Reader.Standing.leads_of_run
      (fun offset => Cursor.run_data absent opened offset rest) ?_
    rw [Reader.Place.takeAll_singleton]
    rfl
  | byte element name read member numeral spelled =>
    refine .inr ⟨element.exists_bracket, fun host content opened rest => ?_⟩
    refine Reader.Standing.leads_of_run (fun offset => element.run opened offset rest) ?_
    rw [Reader.Place.takeAll_events, Reader.Place.visit_byte name read member
      (Reader.byteCharacter?_numeral numeral spelled), ← String.append_singleton,
      String.singleton_eq_ofList]
  | comment absent =>
    refine .inr ⟨⟨_, rfl⟩, fun host content opened rest => ?_⟩
    refine Reader.Standing.leads_of_run
      (fun offset => Cursor.run_comment absent opened offset rest) ?_
    rw [Reader.Place.takeAll_singleton, String.ofList_nil, String.append_empty]
    rfl

namespace Reader

namespace Standing

/-- Pieces of a text, behind a run that waits to be resolved, lead behind their texts. -/
theorem leads_pieces {run plain : List Char} (resolves : Entity.Resolves run plain)
    (bracketless : ∀ c ∈ run, c ≠ '<') {pieces : List (List Char × List Char)}
    (spelled : ∀ piece ∈ pieces, Spelling piece.1 piece.2) (host : TextHost) (content : String)
    (opened : List (List Char)) (rest : List Char) :
    Leads ⟨run ++ (pieces.flatMap Prod.fst ++ '<' :: rest), opened, .text host content⟩
      ⟨'<' :: rest, opened, .text host
        (content ++ String.ofList (plain ++ pieces.flatMap Prod.snd))⟩ := by
  induction pieces generalizing run plain content with
  | nil =>
    rw [List.flatMap_nil, List.flatMap_nil, List.nil_append, List.append_nil]
    exact leads_run resolves bracketless host content opened rest
  | cons piece pieces ih =>
    have later : ∀ piece ∈ pieces, Spelling piece.1 piece.2 :=
      fun other member => spelled other (List.mem_cons_of_mem _ member)
    rw [List.flatMap_cons, List.flatMap_cons, List.append_assoc]
    rcases (spelled piece List.mem_cons_self).run_or_markup with
      ⟨joins, still⟩ | ⟨⟨more, begins⟩, markup⟩
    · -- The piece joins the run.
      have longer : ∀ c ∈ run ++ piece.1, c ≠ '<' := by
        intro c member
        rcases List.mem_append.mp member with before | here
        · exact bracketless c before
        · exact still c here
      have step := ih (resolves.append joins) longer later content
      rwa [List.append_assoc, List.append_assoc] at step
    · -- The run ends here, and the next one begins behind the piece.
      let behind := pieces.flatMap Prod.fst ++ '<' :: rest
      have first : Leads ⟨run ++ (piece.1 ++ behind), opened, .text host content⟩
          ⟨piece.1 ++ behind, opened, .text host (content ++ String.ofList plain)⟩ := by
        rw [begins]
        exact leads_run resolves bracketless host content opened _
      have second := markup host (content ++ String.ofList plain) opened behind
      have third := ih Entity.Resolves.nil (by simp) later
        (content ++ String.ofList plain ++ String.ofList piece.2)
      have whole : content ++ String.ofList plain ++ String.ofList piece.2 ++
          String.ofList ([] ++ pieces.flatMap Prod.snd) =
            content ++ String.ofList (plain ++ (piece.2 ++ pieces.flatMap Prod.snd)) := by
        rw [← String.toList_inj]
        simp
      rw [whole] at third
      exact first.trans (second.trans third)

end Standing

/-- The end tag of a text element, with what is behind it. -/
def TextHost.endTag (host : TextHost) (rest : List Char) : List Char :=
  '<' :: '/' :: (host.element.toList ++ '>' :: rest)

namespace Standing

/-- The end tag of a text element leads out of it. -/
theorem leads_endTag {host : TextHost} {content : String} {next : Place}
    (left : (Place.text host content).leave = pure next) (opened : List (List Char))
    (rest : List Char) :
    Leads ⟨host.endTag rest, host.element.toList :: opened, .text host content⟩
      ⟨rest, opened, next⟩ := by
  have known : host.element ∈ ["name", "source", "comment", "extracomment", "translatorcomment",
      "translation", "numerusform"] := by
    rcases host with _ | ⟨_ | _ | _ | _ | _, _⟩ | _ <;> simp [TextHost.element, MessageText.element]
  have named : ∀ name ∈ ["name", "source", "comment", "extracomment", "translatorcomment",
      "translation", "numerusform"], IsName name.toList := by decide
  exact leads_stop (named _ known) left opened rest

/-- A text is read as it is, however it is written. Reading comes from the start of a text
element to its end tag with that text, and from there out of the element, and nothing is
noted on the way. -/
theorem leads_spelled_text {text : String} {pieces : List (List Char × List Char)}
    (spelled : ∀ piece ∈ pieces, Spelling piece.1 piece.2)
    (whole : pieces.flatMap Prod.snd = text.toList) (host : TextHost) :
    (∀ opened behind, Leads ⟨pieces.flatMap Prod.fst ++ '<' :: '/' :: behind, opened, .text host ""⟩
      ⟨'<' :: '/' :: behind, opened, .text host text⟩) ∧
    ∃ next, (Place.text host text).leave = pure next ∧ ∀ opened rest,
      Leads ⟨pieces.flatMap Prod.fst ++ host.endTag rest, host.element.toList :: opened,
        .text host ""⟩ ⟨rest, opened, next⟩ := by
  have inside (opened : List (List Char)) (behind : List Char) :
      Leads ⟨pieces.flatMap Prod.fst ++ '<' :: '/' :: behind, opened, .text host ""⟩
        ⟨'<' :: '/' :: behind, opened, .text host text⟩ := by
    have through := leads_pieces Entity.Resolves.nil (by simp) spelled host "" opened ('/' :: behind)
    rwa [whole, List.nil_append, List.nil_append, String.ofList_toList, String.empty_append]
      at through
  obtain ⟨next, left⟩ : ∃ next, (Place.text host text).leave = pure next := by
    rcases host with _ | ⟨_, _⟩ | _ <;> exact ⟨_, rfl⟩
  exact ⟨inside, next, left, fun opened rest => (inside _ _).trans (leads_endTag left opened rest)⟩

/-- A name that is written in pieces of all kinds is read as one text. -/
theorem leads_spelled_name :
    Leads ⟨"a &lt;&#xE9;<![CDATA[<b]]]><byte value='x1'/><!-- -->c</name>".toList,
        ["name".toList, "context".toList, "TS".toList],
        .text (.contextName ⟨⟨"2.0", none, none, #[]⟩, none, #[]⟩) ""⟩
      ⟨[], ["context".toList, "TS".toList],
        .context ⟨⟨"2.0", none, none, #[]⟩, some "a <é<b]\x01c", #[]⟩⟩ := by
  let host : TextHost := .contextName ⟨⟨"2.0", none, none, #[]⟩, none, #[]⟩
  have front : Spelling "a ".toList "a ".toList := .raw (by simp)
  have named : Spelling "&lt;".toList ['<'] :=
    .named (show ("lt".toList, '<') ∈ Entity.namedEntities by decide)
  have accent : Radix.hexadecimal.Numeral ['E', '9'] 'é'.toNat :=
    .append (.digit (show Radix.hexadecimal.digit? 'E' = some 14 by decide))
      (show Radix.hexadecimal.digit? '9' = some 9 by decide)
  have number : Spelling "&#xE9;".toList ['é'] := .number accent (by decide) (by decide)
  have data : Spelling "<![CDATA[<b]]]>".toList "<b]".toList :=
    .data (show ¬[']', ']', '>'] <:+: "<b]".toList by decide)
  have element : Cursor.IsElement "<byte value='x1'/>".toList
      ⟨"byte".toList, " value='x1'".toList⟩ [] :=
    ⟨_, .event rfl (.event rfl (.refl _))⟩
  have read : Tag.attributeList ⟨"byte".toList, " value='x1'".toList⟩ = .ok [("value", "x1")] := by
    decide +kernel
  have control : Radix.hexadecimal.Numeral ['1'] '\x01'.toNat := .digit (by decide)
  have byte : Spelling "<byte value='x1'/>".toList ['\x01'] :=
    .byte element (by decide) read List.mem_cons_self control (by decide)
  have comment : Spelling "<!-- -->".toList [] :=
    .comment (show ¬['-', '-', '>'] <:+: [' '] by decide)
  have behind : Spelling ['c'] ['c'] := .raw (by simp)
  have spelled : ∀ piece ∈ [("a ".toList, "a ".toList), ("&lt;".toList, ['<']),
      ("&#xE9;".toList, ['é']), ("<![CDATA[<b]]]>".toList, "<b]".toList),
      ("<byte value='x1'/>".toList, ['\x01']), ("<!-- -->".toList, []), (['c'], ['c'])],
      Spelling piece.1 piece.2 := by
    simp only [List.forall_mem_cons]
    exact ⟨front, named, number, data, byte, comment, behind, by simp⟩
  obtain ⟨next, left, through⟩ :=
    (leads_spelled_text spelled (show _ = "a <é<b]\x01c".toList by decide) host).2
  injection left with _ left
  injection left with left
  rw [← left] at through
  have parsed := through ["context".toList, "TS".toList] []
  convert parsed using 2
  · decide
  · rfl

end Standing

end Reader

end MessageCatalog
