import MessageCatalog.Proofs.CursorRuns

/-!
# Content as it is written

Inside an element there can be runs of text, comments, sections of character data,
instructions and elements with attributes. What is written so is read as the parts that it
stands for wherever markup follows it, and an element is read so whatever follows it.
-/

namespace MessageCatalog

namespace Cursor

/-! ## Comments, sections and instructions -/

/-- A mark that begins with a character twice and ends with another one is not found in
front of the end of a text without it. -/
theorem splitAtMark_of_absent {twice other : Char} (differ : twice ≠ other) {content : List Char}
    (absent : ¬[twice, twice, other] <:+: content) (before rest : List Char) :
    splitAtMark [twice, twice, other] before (content ++ ([twice, twice, other] ++ rest)) =
      some (before.reverse ++ content, rest) := by
  induction content generalizing before with
  | nil => simp [splitAtMark]
  | cons c content ih =>
    have missing : ¬[twice, twice, other] <+: c :: (content ++ ([twice, twice, other] ++ rest)) := by
      intro found
      cases content with
      | nil =>
        simp only [List.nil_append, List.cons_append, List.cons_prefix_cons] at found
        exact differ found.2.2.1.symm
      | cons d content =>
        cases content with
        | nil =>
          simp only [List.nil_append, List.cons_append, List.cons_prefix_cons] at found
          exact differ found.2.2.1.symm
        | cons e more =>
          refine absent (List.IsPrefix.isInfix ?_)
          simpa [List.cons_prefix_cons] using found
    have later := ih (fun inner => absent (List.infix_cons inner)) (c :: before)
    rw [List.cons_append, splitAtMark, if_neg (by rwa [List.isPrefixOf_iff_prefix]), later]
    simp

/-- A comment as it is written. -/
def commentText (content : List Char) : List Char :=
  ['<', '!', '-', '-'] ++ content ++ ['-', '-', '>']

/-- A section of character data as it is written. -/
def dataText (content : List Char) : List Char :=
  ['<', '!', '[', 'C', 'D', 'A', 'T', 'A', '['] ++ content ++ [']', ']', '>']

/-- A comment is read to its end. -/
theorem run_comment {content : List Char} (absent : ¬['-', '-', '>'] <:+: content)
    (opened : List (List Char)) (offset : Nat) (rest : List Char) :
    ∃ counted, Run ⟨commentText content ++ rest, offset, opened, false⟩ [.remark]
      ⟨rest, counted, opened, false⟩ := by
  have found := splitAtMark_of_absent (by decide : '-' ≠ '>') absent [] rest
  have shape : commentText content ++ rest =
      '<' :: '!' :: '-' :: '-' :: (content ++ (['-', '-', '>'] ++ rest)) := by
    simp [commentText]
  have read : ∃ counted, next ⟨commentText content ++ rest, offset, opened, false⟩ =
      .event counted .remark ⟨rest, counted, opened, false⟩ := by
    rw [shape, next_bracket]
    change ∃ counted, readComment opened (offset + 1) ('-' :: _) = _
    rw [readComment, found]
    exact ⟨_, rfl⟩
  obtain ⟨counted, read⟩ := read
  exact ⟨counted, .single read⟩

/-- A section of character data is read to its end. -/
theorem run_data {content : List Char} (absent : ¬[']', ']', '>'] <:+: content)
    (opened : List (List Char)) (offset : Nat) (rest : List Char) :
    ∃ counted, Run ⟨dataText content ++ rest, offset, opened, false⟩ [.data content]
      ⟨rest, counted, opened, false⟩ := by
  let name := ['C', 'D', 'A', 'T', 'A', '[']
  have still : ¬[']', ']', '>'] <:+: name ++ content := by
    simp [name, List.infix_cons_iff, List.cons_prefix_cons, absent]
  have found := splitAtMark_of_absent (by decide : ']' ≠ '>') still [] rest
  have shape : dataText content ++ rest =
      '<' :: '!' :: '[' :: (name ++ content ++ ([']', ']', '>'] ++ rest)) := by
    simp [dataText, name]
  have named : startsWith "CDATA[".toList (name ++ content) = true := by
    rw [show "CDATA[".toList = name by decide]
    rfl
  have read : ∃ counted, next ⟨dataText content ++ rest, offset, opened, false⟩ =
      .event counted (.data content) ⟨rest, counted, opened, false⟩ := by
    rw [shape, next_bracket]
    change ∃ counted, readData opened (offset + 1) _ = _
    rw [readData, found]
    dsimp only [List.reverse_nil, List.nil_append]
    rw [if_pos named]
    exact ⟨_, rfl⟩
  obtain ⟨counted, read⟩ := read
  exact ⟨counted, .single read⟩

/-- An instruction as it is written. -/
def instructionText (content : List Char) : List Char :=
  ['<', '?'] ++ content ++ ['?', '>']

/-- An instruction that is no declaration is read to its end. The cursor takes the first
bracket for the end, so there is none in the instruction. -/
theorem run_instruction {content : List Char} (some : content ≠ []) (plain : ∀ c ∈ content, c ≠ '>')
    (other : ¬['x', 'm', 'l'] <+: content) (opened : List (List Char)) (offset : Nat)
    (rest : List Char) :
    ∃ counted, Run ⟨instructionText content ++ rest, offset, opened, false⟩ [.remark]
      ⟨rest, counted, opened, false⟩ := by
  have inside (c : Char) (member : c ∈ content ++ ['?']) : (c != '>') = true := by
    rcases List.mem_append.mp member with here | last
    · simpa using plain c here
    · rw [List.mem_singleton.mp last]
      decide
  have stops : ('>' != '>') = false := by decide
  have shape : instructionText content ++ rest =
      '<' :: '?' :: (content ++ ['?'] ++ '>' :: rest) := by
    simp [instructionText]
  have long : 2 ≤ (content ++ ['?']).length := by
    have := List.length_pos_iff.mpr some
    rw [List.length_append, List.length_singleton]
    omega
  have read : ∃ counted, next ⟨instructionText content ++ rest, offset, opened, false⟩ =
      .event counted .remark ⟨rest, counted, opened, false⟩ := by
    rw [shape, next_bracket]
    change ∃ counted, readInstruction opened (offset + 1) _ = _
    unfold readInstruction
    simp only [takeWhile_append_cons inside stops, dropWhile_append_cons inside stops,
      List.getLast?_concat, long, and_self, if_true, List.isEmpty_cons, Bool.false_eq_true, if_false]
    refine ⟨offset + 1 + 1 + Utf8.length (content ++ ['?']) + 1, ?_⟩
    split
    next space more begins =>
      have starts : ['x', 'm', 'l'] <+: content ++ ['?'] := ⟨space :: more, begins.symm⟩
      rcases List.prefix_concat_iff.mp starts with same | starts
      · have last := congrArg List.getLast? same
        rw [List.getLast?_concat] at last
        exact absurd last (by decide)
      · exact absurd starts other
    next => rfl
  obtain ⟨counted, read⟩ := read
  exact ⟨counted, .single read⟩

/-! ## Elements -/

/-- A text is an element if it is read as one from its start tag to its end tag. The
bracket behind it shows that the end tag is complete. -/
def IsElement (written : List Char) (tag : Tag) (children : List Node) : Prop :=
  ∃ counted, Run ⟨written ++ ['<'], 0, [], false⟩ (Node.element tag children).events
    ⟨['<'], counted, [], false⟩

/-- An element is read wherever it stands. -/
theorem IsElement.run {written : List Char} {tag : Tag} {children : List Node}
    (h : IsElement written tag children) (opened : List (List Char)) (offset : Nat)
    (rest : List Char) :
    ∃ counted, Run ⟨written ++ rest, offset, opened, false⟩ (Node.element tag children).events
      ⟨rest, counted, opened, false⟩ := by
  obtain ⟨_, run⟩ := h
  obtain ⟨used, split, again⟩ := run.alike (by simp [Sound])
  obtain rfl : written = used := List.append_cancel_right split
  refine again opened offset rest fun final member => ?_
  obtain rfl : .stop = final := by
    rw [Node.events, ← List.cons_append, List.getLast?_concat] at member
    exact Option.some.inj member
  exact fun none => absurd none (List.cons_ne_nil _ _)

/-- An element begins with a bracket. -/
theorem IsElement.exists_bracket {written : List Char} {tag : Tag} {children : List Node}
    (h : IsElement written tag children) : ∃ more, written = '<' :: more := by
  obtain ⟨_, run⟩ := h
  cases run with
  | event found _ =>
    unfold next at found
    split at found
    · exact absurd found (by simp)
    · split at found
      next none => exact absurd none (by simp)
      next rest same =>
        cases written with
        | nil =>
          obtain rfl : [] = rest := (List.cons.inj same).2
          exact absurd found (by simp [readMarkup])
        | cons c more =>
          obtain rfl : c = '<' := (List.cons.inj same).1
          exact ⟨more, rfl⟩
      · exact absurd found (by simp)

/-! ## Content -/

/-- What is written inside an element, and the parts that it stands for. -/
inductive ContentText : List Char → List Node → Prop
  /-- Nothing. -/
  | nil : ContentText [] []
  /-- A run of text, up to markup or the end. -/
  | text {run rest : List Char} {nodes : List Node} (some : run ≠ [])
    (plain : ∀ c ∈ run, c ≠ '<') (bracket : ∀ c ∈ rest.head?, c = '<')
    (behind : ContentText rest nodes) : ContentText (run ++ rest) (.text run :: nodes)
  /-- A comment. -/
  | comment {content rest : List Char} {nodes : List Node}
    (absent : ¬['-', '-', '>'] <:+: content) (behind : ContentText rest nodes) :
    ContentText (commentText content ++ rest) (.remark :: nodes)
  /-- A section of character data. -/
  | data {content rest : List Char} {nodes : List Node}
    (absent : ¬[']', ']', '>'] <:+: content) (behind : ContentText rest nodes) :
    ContentText (dataText content ++ rest) (.data content :: nodes)
  /-- An instruction that is no declaration. -/
  | instruction {content rest : List Char} {nodes : List Node} (some : content ≠ [])
    (plain : ∀ c ∈ content, c ≠ '>') (other : ¬['x', 'm', 'l'] <+: content)
    (behind : ContentText rest nodes) :
    ContentText (instructionText content ++ rest) (.remark :: nodes)
  /-- An element that closes itself. -/
  | empty {name attributes rest : List Char} {nodes : List Node} (named : IsElementName name)
    (spelled : AttributesText attributes) (behind : ContentText rest nodes) :
    ContentText ('<' :: (name ++ attributes ++ '/' :: '>' :: rest))
      (.element ⟨name, attributes⟩ [] :: nodes)
  /-- An element with content and an end tag. -/
  | element {name attributes content space rest : List Char} {children nodes : List Node}
    (named : IsElementName name) (spelled : AttributesText attributes)
    (inside : ContentText content children) (blank : ∀ c ∈ space, isTagSpace c = true)
    (behind : ContentText rest nodes) :
    ContentText ('<' :: (name ++ attributes ++ '>' ::
        (content ++ '<' :: '/' :: (name ++ space ++ '>' :: rest))))
      (.element ⟨name, attributes⟩ children :: nodes)

/-- Written content is read as its parts, wherever markup follows it. -/
theorem ContentText.run {content : List Char} {nodes : List Node} (h : ContentText content nodes)
    (opened : List (List Char)) (offset : Nat) (rest : List Char)
    (bracket : rest.head? = some '<') :
    ∃ counted, Run ⟨content ++ rest, offset, opened, false⟩ (Node.forestEvents nodes)
      ⟨rest, counted, opened, false⟩ := by
  induction h generalizing opened offset rest with
  | nil => exact ⟨offset, .refl _⟩
  | @text run later nodes some plain markup _ ih =>
    have follows : ∀ c ∈ (later ++ rest).head?, c = '<' := by
      intro c first
      rw [List.head?_append, bracket] at first
      cases here : later.head? with
      | none =>
        rw [here] at first
        exact (Option.some.inj first).symm
      | some d =>
        rw [here] at first
        exact markup c (here.trans first)
    obtain ⟨place, after, found⟩ := next_text some plain opened offset follows
    obtain ⟨counted, more⟩ := ih opened after _ bracket
    rw [List.append_assoc]
    exact ⟨counted, .event found more⟩
  | comment absent _ ih =>
    rw [List.append_assoc]
    obtain ⟨after, first⟩ := run_comment absent opened offset _
    obtain ⟨counted, more⟩ := ih opened after _ bracket
    exact ⟨counted, first.append more⟩
  | data absent _ ih =>
    rw [List.append_assoc]
    obtain ⟨after, first⟩ := run_data absent opened offset _
    obtain ⟨counted, more⟩ := ih opened after _ bracket
    exact ⟨counted, first.append more⟩
  | instruction some plain other _ ih =>
    rw [List.append_assoc]
    obtain ⟨after, first⟩ := run_instruction some plain other opened offset _
    obtain ⟨counted, more⟩ := ih opened after _ bracket
    exact ⟨counted, first.append more⟩
  | @empty name attributes later nodes named spelled _ ih =>
    obtain ⟨after, opens⟩ := next_closing named spelled opened offset (later ++ rest)
    obtain ⟨counted, more⟩ := ih opened after _ bracket
    rw [List.cons_append, List.append_assoc, List.cons_append, List.cons_append]
    exact ⟨counted, .event opens (.event (next_due _ after name opened) more)⟩
  | @element name attributes content space later children nodes named spelled _ blank _ inner ih =>
    let tail := '<' :: '/' :: (name ++ space ++ '>' :: (later ++ rest))
    obtain ⟨after, opens⟩ := next_start named spelled opened offset (content ++ tail)
    obtain ⟨within, inside⟩ := inner (name :: opened) after tail rfl
    obtain ⟨behind, closes⟩ := next_stop named blank opened within (later ++ rest)
    obtain ⟨counted, more⟩ := ih opened behind _ bracket
    have whole := Run.event opens (inside.append (.event closes more))
    refine ⟨counted, ?_⟩
    simpa [tail, Node.forestEvents, Node.events] using whole

/-- What is written as an element is one. -/
theorem ContentText.isElement {written : List Char} {tag : Tag} {children : List Node}
    (h : ContentText written [.element tag children]) : IsElement written tag children := by
  obtain ⟨counted, run⟩ := h.run [] 0 ['<'] rfl
  rw [Node.forestEvents, Node.forestEvents, List.append_nil] at run
  exact ⟨counted, run⟩

end Cursor

end MessageCatalog
