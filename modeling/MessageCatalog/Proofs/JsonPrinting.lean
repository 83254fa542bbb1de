import MessageCatalog.JsonReader
import MessageCatalog.Proofs.JsonNumberText

/-!
# Printed JSON

A value that is printed with one element or member a line is read back from its text.
The automaton that reads JSON is followed through the text piece by piece: a piece takes
it from one state to another, whatever stands behind. Only of a number the end shows by
the character behind it, so of a value it is asked that a comma, the end of a line or
nothing follows. Printing puts nothing else there.
-/

namespace MessageCatalog

namespace JsonText

open State

/-! ## Pieces of text -/

/-- A piece of text takes the automaton from one state to another, whatever follows. -/
def Leads (first : State) (text : List Char) (last : State) : Prop :=
  ∀ offset rest, ∃ after, run first offset (text ++ rest) = run last after rest

namespace Leads

variable {first second third : State} {text more : List Char}

/-- No text leads nowhere. -/
theorem refl (state : State) : Leads state [] state := fun offset _ => ⟨offset, rfl⟩

/-- Two pieces lead on from one another. -/
theorem trans (h : Leads first text second) (h' : Leads second more third) :
    Leads first (text ++ more) third := by
  intro offset rest
  obtain ⟨middle, begins⟩ := h offset (more ++ rest)
  obtain ⟨after, ends⟩ := h' middle rest
  exact ⟨after, by rw [List.append_assoc, begins, ends]⟩

/-- A character leads on to a piece. -/
theorem cons {c : Char} (h : Leads first [c] second) (h' : Leads second more third) :
    Leads first (c :: more) third :=
  h.trans h'

/-- A character that is taken leads to the next state, unless a number ends in front of it
or the whole value is complete. -/
theorem of_take {state next : State} {c : Char} (unsettled : state.settle (some c) = state)
    (unfinished : ∀ value, state.phase ≠ .done value) (taken : state.take c = .ok next) :
    Leads state [c] next := by
  intro offset rest
  refine ⟨offset + c.utf8Size, ?_⟩
  rw [List.cons_append, List.nil_append, run, unsettled]
  split
  next => exact absurd rfl (unfinished _)
  next => rw [taken]

end Leads

/-- What may stand behind a value: a comma, the end of a line, or nothing. -/
def EndsValue (rest : List Char) : Prop := ∀ c ∈ rest.head?, c = ',' ∨ c = '\n'

/-- Only the first character counts. -/
theorem endsValue_cons {c : Char} (ends : c = ',' ∨ c = '\n') (rest : List Char) :
    EndsValue (c :: rest) := by
  rintro d first
  obtain rfl : c = d := Option.some.inj first
  exact ends

/-- Two texts that may stand behind a value may do so together. -/
theorem EndsValue.append {text rest : List Char} (h : EndsValue text) (h' : EndsValue rest) :
    EndsValue (text ++ rest) := by
  cases text with
  | nil => exact h'
  | cons c text => exact h

/-- A piece of text takes the automaton from one state to another if what follows may stand
behind a value. -/
def Completes (first : State) (text : List Char) (last : State) : Prop :=
  ∀ offset rest, EndsValue rest → ∃ after, run first offset (text ++ rest) = run last after rest

namespace Completes

variable {first second third : State} {text more : List Char}

/-- No text leads nowhere. -/
theorem refl (state : State) : Completes state [] state := fun offset _ _ => ⟨offset, rfl⟩

/-- A piece may stand in front. -/
theorem before (h : Leads first text second) (h' : Completes second more third) :
    Completes first (text ++ more) third := by
  intro offset rest ends
  obtain ⟨middle, begins⟩ := h offset (more ++ rest)
  obtain ⟨after, last⟩ := h' middle rest ends
  exact ⟨after, by rw [List.append_assoc, begins, last]⟩

/-- What completes two states leads on from one another if the second text may stand behind
a value. -/
theorem trans (h : Completes first text second) (ends : EndsValue more)
    (h' : Completes second more third) : Completes first (text ++ more) third := by
  intro offset rest endsToo
  obtain ⟨middle, begins⟩ := h offset (more ++ rest) (ends.append endsToo)
  obtain ⟨after, last⟩ := h' middle rest endsToo
  exact ⟨after, by rw [List.append_assoc, begins, last]⟩

/-- In front of a line end it does not matter what follows. -/
theorem leads (h : Completes first text second) (h' : Leads second ('\n' :: more) third) :
    Leads first (text ++ '\n' :: more) third := by
  intro offset rest
  obtain ⟨middle, begins⟩ := h offset ('\n' :: more ++ rest) (endsValue_cons (.inr rfl) _)
  obtain ⟨after, last⟩ := h' middle rest
  exact ⟨after, by rw [List.append_assoc, begins, last]⟩

end Completes

/-! ## Between values -/

/-- Blanks may stand where no word, number or string is being read. -/
def Phase.isBetween : Phase → Bool
  | .value | .listStart | .objectStart | .key | .colon | .after => true
  | _ => false

variable {stack : List Open} {phase : Phase}

/-- A character between values leads to where it is taken. -/
theorem leads_between (between : phase.isBetween = true) {c : Char} {next : State}
    (taken : takeBetween ⟨stack, phase⟩ c = .ok next) : Leads ⟨stack, phase⟩ [c] next := by
  cases phase with
  | value | listStart | objectStart | key | colon | after => exact .of_take rfl (by simp) taken
  | word | number | string | done => exact absurd between (by simp [Phase.isBetween])

/-- Blanks between values lead nowhere. -/
theorem leads_blanks (between : phase.isBetween = true) {blanks : List Char}
    (blank : ∀ c ∈ blanks, JsonReader.isBlank c = true) :
    Leads ⟨stack, phase⟩ blanks ⟨stack, phase⟩ := by
  induction blanks with
  | nil => exact .refl _
  | cons c rest ih =>
    have first : takeBetween ⟨stack, phase⟩ c = .ok ⟨stack, phase⟩ :=
      if_pos (blank c List.mem_cons_self)
    exact (leads_between between first).cons
      (ih fun d member => blank d (List.mem_cons_of_mem c member))

/-- A value is due behind an opening bracket, a colon or the comma of an array. -/
def Phase.IsDue (phase : Phase) : Prop := phase = .value ∨ phase = .listStart

/-- No value starts with a blank. -/
theorem startValue_of_blank {c : Char} (blank : JsonReader.isBlank c = true)
    (stack : List Open) : startValue stack c = .error .expectedValue := by
  simp only [JsonReader.isBlank, Bool.or_eq_true, beq_iff_eq] at blank
  rcases blank with ((rfl | rfl) | rfl) | rfl <;> rfl

/-- Where a value is due, the character that starts one leads into it. -/
theorem leads_startValue (due : phase.IsDue) {c : Char} {next : State}
    (started : startValue stack c = .ok next) : Leads ⟨stack, phase⟩ [c] next := by
  have solid : ¬JsonReader.isBlank c = true := by
    intro blank
    rw [startValue_of_blank blank] at started
    exact absurd started (by simp)
  have opens : c ≠ ']' := by
    rintro rfl
    exact absurd started (by simp [startValue, NumberPart.first?])
  rcases due with rfl | rfl
  · exact leads_between rfl ((if_neg solid).trans started)
  · refine leads_between rfl ((if_neg solid).trans ?_)
    cases stack with
    | nil => exact started
    | cons top outer =>
      cases top with
      | object => exact started
      | array => exact (if_neg opens).trans started

/-! ## Values without parts -/

/-- A text is read as a value wherever one is due. -/
def Reads (text : List Char) (value : Json) : Prop :=
  ∀ stack phase, Phase.IsDue phase → Completes ⟨stack, phase⟩ text (deliver stack value)

/-- So it is if the text leads through the value, whatever follows. -/
theorem Reads.of_leads {text : List Char} {value : Json}
    (h : ∀ stack phase, Phase.IsDue phase → Leads ⟨stack, phase⟩ text (deliver stack value)) :
    Reads text value :=
  fun stack phase due offset rest _ => h stack phase due offset rest

/-- The rest of a word leads to the value that it stands for. -/
theorem leads_word (stack : List Open) (c : Char) (rest : List Char) (value : Json) :
    Leads ⟨stack, .word (c :: rest) value⟩ (c :: rest) (deliver stack value) := by
  induction rest generalizing c with
  | nil => exact .of_take rfl (by simp) (by simp [State.take])
  | cons d rest ih => exact (Leads.of_take rfl (by simp) (by simp [State.take])).cons (ih d)

/-- Null is read. -/
theorem reads_null : Reads "null".toList .null :=
  .of_leads fun stack _ due =>
    (leads_startValue due rfl).cons (leads_word stack 'u' ['l', 'l'] .null)

/-- A truth value is read. -/
theorem reads_bool (value : Bool) :
    Reads (if value then "true" else "false").toList (.bool value) := by
  cases value with
  | true =>
    exact .of_leads fun stack _ due =>
      (leads_startValue due rfl).cons (leads_word stack 'r' ['u', 'e'] (.bool true))
  | false =>
    exact .of_leads fun stack _ due =>
      (leads_startValue due rfl).cons (leads_word stack 'a' ['l', 's', 'e'] (.bool false))

/-- A value that was delivered is not delivered again. -/
theorem settle_deliver (stack : List Open) (value : Json) (next : Option Char) :
    (deliver stack value).settle next = deliver stack value := by
  match stack with
  | [] | .array _ :: _ | .object _ _ :: _ => rfl

/-- Where a number ends, reading goes on behind its value. -/
theorem run_number {part : NumberPart} {rest : List Char}
    (ends : part.endsBefore rest.head? = true) (stack : List Open) (text : String)
    (offset : Nat) :
    run ⟨stack, .number part text⟩ offset rest =
      run (deliver stack (part.value text)) offset rest := by
  have settled : State.settle ⟨stack, .number part text⟩ rest.head? =
      deliver stack (part.value text) := if_pos ends
  cases rest with
  | nil =>
    rw [List.head?_nil] at settled
    rw [run, run, settled, settle_deliver]
  | cons c rest =>
    rw [List.head?_cons] at settled
    rw [run, run, settled, settle_deliver]

/-- The characters that a number goes on with lead to the part that they end in. -/
theorem leads_number {part last : NumberPart} {more : List Char}
    (goes : more.foldlM NumberPart.next? part = some last) (text : String) :
    Leads ⟨stack, .number part text⟩ more
      ⟨stack, .number last (text ++ String.ofList more)⟩ := by
  induction more generalizing part text with
  | nil =>
    obtain rfl : part = last := Option.some.inj goes
    simpa using Leads.refl _
  | cons c more ih =>
    obtain ⟨next, taken, goes⟩ := Option.bind_eq_some_iff.mp (List.foldlM_cons.symm.trans goes)
    have whole : text ++ String.ofList (c :: more) = text.push c ++ String.ofList more := by
      simp [← String.toList_inj]
    have first : Leads ⟨stack, .number part text⟩ [c] ⟨stack, .number next (text.push c)⟩ := by
      refine .of_take ?_ (by simp) ?_
      · simp [State.settle, NumberPart.endsBefore, taken]
      · simp [State.take, taken]
    rw [whole]
    exact first.cons (ih goes (text.push c))

/-- A complete number ends in front of whatever may stand behind a value. -/
theorem endsBefore_of_endsValue {part : NumberPart} (complete : part.isComplete = true)
    {rest : List Char} (ends : EndsValue rest) : part.endsBefore rest.head? = true := by
  cases rest with
  | nil => exact complete
  | cons c rest =>
    rcases ends c rfl with rfl | rfl <;> cases part <;> first | rfl | exact complete

/-- A character that a number begins with starts a number. -/
theorem startValue_of_first? {c : Char} {part : NumberPart}
    (first : NumberPart.first? c = some part) (stack : List Open) :
    startValue stack c = .ok ⟨stack, .number part c.toString⟩ := by
  unfold startValue
  split
  iterate 6 exact absurd first (by simp [NumberPart.first?])
  rw [first]

/-- A complete number is read as its value. -/
theorem reads_number {text : String} {part : NumberPart}
    (number : NumberPart.ofText? text.toList = some part) (complete : part.isComplete = true) :
    Reads text.toList (part.value text) := by
  intro stack phase due offset rest ends
  cases shape : text.toList with
  | nil => exact absurd number (by simp [shape, NumberPart.ofText?])
  | cons c more =>
    rw [shape] at number
    obtain ⟨first, starts, goes⟩ := Option.bind_eq_some_iff.mp number
    have whole : c.toString ++ String.ofList more = text := by
      rw [← String.toList_inj, shape]
      simp
    have through := (leads_startValue due (startValue_of_first? starts stack)).cons
      (leads_number goes c.toString)
    obtain ⟨after, read⟩ := through offset rest
    refine ⟨after, ?_⟩
    rw [read, whole, run_number (endsBefore_of_endsValue complete ends)]

/-- An integer is read. -/
theorem reads_integer (value : Int) :
    Reads (JsonLayout.integerText value).toList (.integer value) := by
  obtain ⟨part, number, complete, valued⟩ := NumberPart.exists_part_of_integer value
  exact valued ▸ reads_number number complete

/-- A decimal is read and keeps its text. -/
theorem reads_decimal {text : String} (decimal : NumberPart.IsDecimal text.toList) :
    Reads text.toList (.decimal text) := by
  obtain ⟨part, number, complete, fractional⟩ := decimal
  have valued : part.value text = .decimal text := by simp [NumberPart.value, fractional]
  exact valued ▸ reads_number number complete

/-! ## Strings -/

/-- A string of which some characters were read, and nothing of the next one. -/
def draftOf (text : String) : StringDraft := ⟨text, true, none, .plain⟩

variable {isKey : Bool} {text : String}

/-- A character inside a string leads on in it. -/
theorem leads_draft {draft next : StringDraft} {c : Char}
    (inside : draft.endsWith false c = false) (taken : draft.take false c = .ok next) :
    Leads ⟨stack, .string isKey draft⟩ [c] ⟨stack, .string isKey next⟩ := by
  refine .of_take rfl (by simp) ?_
  change State.takeString stack isKey draft c = _
  rw [State.takeString, inside, taken]
  rfl

/-- A simple escape adds the character that it stands for. -/
theorem leads_simple_escape {c sign : Char} (unit : sign ≠ 'u')
    (stands : StringDraft.escaped? sign = some c) :
    Leads ⟨stack, .string isKey (draftOf text)⟩ ['\\', sign]
      ⟨stack, .string isKey (draftOf (text.push c))⟩ := by
  have backslash : Leads ⟨stack, .string isKey (draftOf text)⟩ ['\\']
      ⟨stack, .string isKey ⟨text, true, none, .escape⟩⟩ := leads_draft rfl rfl
  refine backslash.cons (leads_draft rfl ?_)
  simp [StringDraft.take, unit, stands, StringDraft.push, draftOf]

/-- The value of a hexadecimal digit, which is one byte. -/
theorem digit?_digitChar {n : Nat} (h : n < 16) :
    Radix.hexadecimal.digit? (Nat.digitChar n) = some n ∧ (Nat.digitChar n).utf8Size = 1 := by
  have all : ∀ n : Fin 16, Radix.hexadecimal.digit? (Nat.digitChar n) = some n.val ∧
      (Nat.digitChar n).utf8Size = 1 := by decide
  exact all ⟨n, h⟩

/-- The escape of a control character by its code adds the character. -/
theorem leads_unit {c : Char} (low : c.toNat < 0x20) :
    Leads ⟨stack, .string isKey (draftOf text)⟩
      ['\\', 'u', '0', '0', Nat.digitChar (c.toNat / 16), Nat.digitChar (c.toNat % 16)]
      ⟨stack, .string isKey (draftOf (text.push c))⟩ := by
  let part (left value : Nat) : StringDraft := ⟨text, true, none, .unit left (some value)⟩
  have zeros : Leads ⟨stack, .string isKey (draftOf text)⟩ ['\\', 'u', '0', '0']
      ⟨stack, .string isKey (part 2 0)⟩ := by
    have backslash : Leads ⟨stack, .string isKey (draftOf text)⟩ ['\\']
        ⟨stack, .string isKey ⟨text, true, none, .escape⟩⟩ := leads_draft rfl rfl
    have unit : Leads ⟨stack, .string isKey ⟨text, true, none, .escape⟩⟩ ['u']
        ⟨stack, .string isKey (part 4 0)⟩ := leads_draft rfl rfl
    have zero : Leads ⟨stack, .string isKey (part 4 0)⟩ ['0']
        ⟨stack, .string isKey (part 3 0)⟩ := leads_draft rfl rfl
    exact backslash.cons (unit.cons (zero.cons (leads_draft rfl rfl)))
  have high : Leads ⟨stack, .string isKey (part 2 0)⟩ [Nat.digitChar (c.toNat / 16)]
      ⟨stack, .string isKey (part 1 (c.toNat / 16))⟩ := by
    obtain ⟨value, oneByte⟩ := digit?_digitChar (show c.toNat / 16 < 16 by omega)
    refine leads_draft rfl ?_
    simp [part, StringDraft.take, StringDraft.extendUnit, value, oneByte]
  have last : Leads ⟨stack, .string isKey (part 1 (c.toNat / 16))⟩ [Nat.digitChar (c.toNat % 16)]
      ⟨stack, .string isKey (draftOf (text.push c))⟩ := by
    obtain ⟨value, oneByte⟩ := digit?_digitChar (show c.toNat % 16 < 16 by omega)
    have whole : 16 * (c.toNat / 16) + c.toNat % 16 = c.toNat := Nat.div_add_mod c.toNat 16
    have noHigh : ¬0xD800 ≤ c.toNat := by omega
    have noLow : ¬0xDC00 ≤ c.toNat := by omega
    refine leads_draft rfl ?_
    simp [part, StringDraft.take, StringDraft.extendUnit, value, oneByte, whole,
      StringDraft.pushUnit, noHigh, noLow, StringDraft.push, draftOf]
  exact zeros.trans (high.cons last)

/-- The escape of a control character has two hexadecimal digits behind two zeros. -/
theorem toList_unit {c : Char} (low : c.toNat < 0x20) :
    ("\\u00" ++ (if c.toNat < 16 then "0" else "") ++
        String.ofList (Nat.toDigits 16 c.toNat)).toList =
      ['\\', 'u', '0', '0', Nat.digitChar (c.toNat / 16), Nat.digitChar (c.toNat % 16)] := by
  by_cases small : c.toNat < 16
  · rw [if_pos small, Nat.toDigits_of_lt_base small, Nat.div_eq_of_lt small,
      Nat.mod_eq_of_lt small]
    simp
  · rw [if_neg small, Nat.toDigits_of_base_le (by decide) (by omega),
      Nat.toDigits_of_lt_base (by omega)]
    simp

/-- A character is read as it is written inside a string. -/
theorem leads_escape (stack : List Open) (isKey : Bool) (text : String) (c : Char) :
    Leads ⟨stack, .string isKey (draftOf text)⟩ (JsonLayout.escape c).toList
      ⟨stack, .string isKey (draftOf (text.push c))⟩ := by
  unfold JsonLayout.escape
  split
  iterate 7 exact leads_simple_escape (by decide) rfl
  next noQuote noBackslash _ _ _ _ _ =>
    have noQuote : c ≠ '\x22' := noQuote
    have noBackslash : c ≠ '\\' := noBackslash
    split
    next low =>
      rw [toList_unit low]
      exact leads_unit low
    next plain =>
      have inside : (draftOf text).endsWith false c = false := by
        simp [draftOf, StringDraft.endsWith, noQuote]
      rw [String.toList_singleton]
      refine leads_draft inside ?_
      simp [StringDraft.take, draftOf, noBackslash, plain, StringDraft.push]

/-- The characters of a string as they are written, with the quote behind them. -/
def closed (text : List Char) : List Char :=
  text.flatMap (fun c => (JsonLayout.escape c).toList) ++ ['\x22']

/-- They lead to the end of the string. -/
theorem leads_closed (stack : List Open) (isKey : Bool) (text : String) :
    Leads ⟨stack, .string isKey .empty⟩ (closed text.toList)
      (closeString stack isKey (some text)) := by
  have inside (characters : List Char) (before : String) :
      Leads ⟨stack, .string isKey (draftOf before)⟩
        (characters.flatMap fun c => (JsonLayout.escape c).toList)
        ⟨stack, .string isKey (draftOf (before ++ String.ofList characters))⟩ := by
    induction characters generalizing before with
    | nil => simpa using Leads.refl _
    | cons c rest ih =>
      have whole : before ++ String.ofList (c :: rest) = before.push c ++ String.ofList rest := by
        simp [← String.toList_inj]
      rw [List.flatMap_cons, whole]
      exact (leads_escape stack isKey before c).trans (ih (before.push c))
  have all := inside text.toList ""
  rw [String.empty_append, String.ofList_toList] at all
  exact all.trans (.of_take rfl (by simp) rfl)

/-- A string is read. -/
theorem reads_string (text : String) :
    Reads ('\x22' :: closed text.toList) (.string (some text)) :=
  .of_leads fun stack _ due => (leads_startValue due rfl).cons (leads_closed stack false text)

/-- A string is written between quotes. -/
theorem quote_eq (out text : String) :
    JsonLayout.quote out text = out ++ String.ofList ('\x22' :: closed text.toList) := by
  have inside (characters : List Char) (out : String) :
      characters.foldl (fun out c => out ++ JsonLayout.escape c) out =
        out ++ String.ofList (characters.flatMap fun c => (JsonLayout.escape c).toList) := by
    induction characters generalizing out with
    | nil => simp
    | cons c rest ih =>
      rw [List.foldl_cons, ih, ← String.toList_inj]
      simp
  rw [JsonLayout.quote, inside, ← String.toList_inj]
  simp [closed]

/-! ## Arrays and objects -/

/-- The end of a line, and the indentation of the next one. -/
def indented (level : Nat) : List Char := '\n' :: List.replicate (2 * level) ' '

/-- A line is started by ending the one before. -/
theorem newLine_eq (out : String) (level : Nat) :
    JsonLayout.newLine out level = out ++ String.ofList (indented level) := by
  simp [JsonLayout.newLine, indented, ← String.toList_inj]

/-- Between values a new line leads nowhere. -/
theorem leads_indented (between : phase.isBetween = true) (level : Nat) :
    Leads ⟨stack, phase⟩ (indented level) ⟨stack, phase⟩ := by
  refine leads_blanks between fun c member => ?_
  rcases List.mem_cons.mp member with rfl | space
  · rfl
  · rw [List.eq_of_mem_replicate space]
    rfl

/-- A value is printed by appending a text that is read as the value. -/
def Prints (value : Json) : Prop :=
  ∀ out level, ∃ text, JsonLayout.writePretty out level value = out ++ String.ofList text ∧
    Reads text value

/-- A member is printed if its key is whole and its value is printed. -/
def PrintsMember (member : JsonString × Json) : Prop :=
  member.1.isSome = true ∧ Prints member.2

/-- The elements of an array behind the first are read from the lines they are printed on. -/
theorem prints_elements {elements : List Json} (all : ∀ value ∈ elements, Prints value)
    (out : String) (level : Nat) :
    ∃ text, JsonLayout.writePrettyElements out level false elements = out ++ String.ofList text ∧
      EndsValue text ∧ ∀ outer before, Completes ⟨.array before :: outer, .after⟩ text
        ⟨.array (before ++ elements.toArray) :: outer, .after⟩ := by
  induction elements generalizing out with
  | nil =>
    refine ⟨[], by simp [JsonLayout.writePrettyElements], by simp [EndsValue], fun _ _ => ?_⟩
    simpa using Completes.refl _
  | cons value rest ih =>
    let start := JsonLayout.newLine (out ++ ",") level
    obtain ⟨own, printed, reads⟩ := all value List.mem_cons_self start level
    obtain ⟨others, more, ends, completes⟩ := ih
      (fun other member => all other (List.mem_cons_of_mem value member))
      (start ++ String.ofList own)
    refine ⟨',' :: indented level ++ (own ++ others), ?_, endsValue_cons (.inl rfl) _,
      fun outer before => ?_⟩
    · rw [JsonLayout.writePrettyElements]
      simp only [Bool.false_eq_true, if_false]
      rw [printed, more, ← String.toList_inj]
      simp [start, newLine_eq]
    · have comma : Leads ⟨.array before :: outer, .after⟩ [','] ⟨.array before :: outer, .value⟩ :=
        leads_between rfl rfl
      have values := (reads (.array before :: outer) .value (.inl rfl)).trans ends
        (completes outer (before.push value))
      have whole := Completes.before (comma.cons (leads_indented rfl level)) values
      simpa using whole

/-- An array is printed if its elements are. -/
theorem prints_array {elements : List Json} (all : ∀ value ∈ elements, Prints value) :
    Prints (.array elements) := by
  intro out level
  cases elements with
  | nil =>
    refine ⟨['[', ']'], rfl, .of_leads fun stack phase due => ?_⟩
    exact (leads_startValue due rfl).cons (leads_between rfl rfl)
  | cons value rest =>
    let start := JsonLayout.newLine (out ++ "[") (level + 1)
    obtain ⟨own, printed, reads⟩ := all value List.mem_cons_self start (level + 1)
    obtain ⟨others, more, ends, completes⟩ :=
      prints_elements (fun other member => all other (List.mem_cons_of_mem value member))
        (start ++ String.ofList own) (level + 1)
    refine ⟨'[' :: (indented (level + 1) ++ (own ++ others) ++ (indented level ++ [']'])), ?_,
      .of_leads fun stack phase due => ?_⟩
    · rw [JsonLayout.writePretty, JsonLayout.writePrettyElements]
      simp only [if_true]
      rw [printed, more, newLine_eq, ← String.toList_inj]
      simp [start, newLine_eq]
    · have opens : Leads ⟨stack, phase⟩ ['['] ⟨.array #[] :: stack, .listStart⟩ :=
        leads_startValue due rfl
      have inside := Completes.before (leads_indented rfl (level + 1))
        ((reads (.array #[] :: stack) .listStart (.inr rfl)).trans ends (completes stack #[value]))
      have closes : Leads ⟨.array (#[value] ++ rest.toArray) :: stack, .after⟩
          (indented level ++ [']']) (deliver stack (.array (value :: rest))) := by
        refine (leads_indented rfl level).trans (leads_between rfl ?_)
        simp [takeBetween, JsonReader.isBlank, takeAfter]
      exact opens.cons (inside.leads closes)

/-- A key with the colon behind it leads to the value of the key. -/
theorem leads_key (due : phase = .objectStart ∨ phase = .key) (outer : List Open)
    (before : Array (JsonString × Json)) (key : JsonString) (name : String) :
    Leads ⟨.object before key :: outer, phase⟩ ('\x22' :: closed name.toList ++ [':', ' '])
      ⟨.object before (some name) :: outer, .value⟩ := by
  have opens : Leads ⟨.object before key :: outer, phase⟩ ['\x22']
      ⟨.object before key :: outer, .string true .empty⟩ := by
    rcases due with rfl | rfl <;> exact leads_between rfl rfl
  have named : Leads _ _ ⟨.object before (some name) :: outer, .colon⟩ :=
    leads_closed (.object before key :: outer) true name
  have colon : Leads ⟨.object before (some name) :: outer, .colon⟩ [':']
      ⟨.object before (some name) :: outer, .value⟩ := leads_between rfl rfl
  exact (opens.cons named).trans (colon.cons (leads_between rfl rfl))

/-- A member is read from the line that it is printed on. -/
theorem prints_member {member : JsonString × Json} (h : PrintsMember member) (out : String)
    (level : Nat) :
    ∃ text, JsonLayout.writePretty
        (JsonLayout.writeString (JsonLayout.newLine out level) member.1 ++ ": ") level member.2 =
        out ++ String.ofList text ∧
      ∀ phase, phase = .objectStart ∨ phase = .key → ∀ outer before key,
        Completes ⟨.object before key :: outer, phase⟩ text
          ⟨.object (before.push member) member.1 :: outer, .after⟩ := by
  obtain ⟨name, value⟩ := member
  obtain ⟨named, prints⟩ := h
  obtain ⟨name, rfl⟩ := Option.isSome_iff_exists.mp named
  let start := JsonLayout.writeString (JsonLayout.newLine out level) (some name) ++ ": "
  obtain ⟨text, printed, reads⟩ := prints start level
  refine ⟨indented level ++ ('\x22' :: closed name.toList ++ [':', ' ']) ++ text, ?_,
    fun phase due outer before key => ?_⟩
  · rw [printed, ← String.toList_inj]
    simp [start, JsonLayout.writeString, quote_eq, newLine_eq]
  · have between : phase.isBetween = true := by
      rcases due with rfl | rfl <;> rfl
    have starts := (leads_indented between level).trans (leads_key due outer before key name)
    exact Completes.before starts (reads (.object before (some name) :: outer) .value (.inl rfl))

/-- The members of an object behind the first are read from the lines they are printed on. -/
theorem prints_members {members : List (JsonString × Json)}
    (all : ∀ member ∈ members, PrintsMember member) (out : String) (level : Nat) :
    ∃ text, JsonLayout.writePrettyMembers out level false members = out ++ String.ofList text ∧
      EndsValue text ∧ ∀ outer before key, ∃ last,
        Completes ⟨.object before key :: outer, .after⟩ text
          ⟨.object (before ++ members.toArray) last :: outer, .after⟩ := by
  induction members generalizing out with
  | nil =>
    refine ⟨[], by simp [JsonLayout.writePrettyMembers], by simp [EndsValue],
      fun _ _ key => ⟨key, ?_⟩⟩
    simpa using Completes.refl _
  | cons member rest ih =>
    obtain ⟨own, printed, reads⟩ := prints_member (all member List.mem_cons_self) (out ++ ",") level
    obtain ⟨others, more, ends, completes⟩ := ih
      (fun other later => all other (List.mem_cons_of_mem member later))
      (out ++ "," ++ String.ofList own)
    refine ⟨',' :: (own ++ others), ?_, endsValue_cons (.inl rfl) _, fun outer before key => ?_⟩
    · rw [JsonLayout.writePrettyMembers]
      simp only [Bool.false_eq_true, if_false]
      rw [printed, more, ← String.toList_inj]
      simp
    · obtain ⟨last, behind⟩ := completes outer (before.push member) member.1
      have comma : Leads ⟨.object before key :: outer, .after⟩ [',']
          ⟨.object before key :: outer, .key⟩ := leads_between rfl rfl
      have whole := Completes.before comma
        ((reads .key (.inr rfl) outer before key).trans ends behind)
      exact ⟨last, by simpa using whole⟩

/-- An object is printed if its members are. -/
theorem prints_object {members : List (JsonString × Json)}
    (all : ∀ member ∈ members, PrintsMember member) : Prints (.object members) := by
  intro out level
  cases members with
  | nil =>
    refine ⟨['\x7b', '\x7d'], rfl, .of_leads fun stack phase due => ?_⟩
    exact (leads_startValue due rfl).cons (leads_between rfl rfl)
  | cons member rest =>
    obtain ⟨own, printed, reads⟩ :=
      prints_member (all member List.mem_cons_self) (out ++ "\x7b") (level + 1)
    obtain ⟨others, more, ends, completes⟩ :=
      prints_members (fun other later => all other (List.mem_cons_of_mem member later))
        (out ++ "\x7b" ++ String.ofList own) (level + 1)
    refine ⟨'\x7b' :: (own ++ others ++ (indented level ++ ['\x7d'])), ?_,
      .of_leads fun stack phase due => ?_⟩
    · rw [JsonLayout.writePretty, JsonLayout.writePrettyMembers]
      simp only [if_true]
      rw [printed, more, newLine_eq, ← String.toList_inj]
      simp
    · have opens : Leads ⟨stack, phase⟩ ['\x7b'] ⟨.object #[] none :: stack, .objectStart⟩ :=
        leads_startValue due rfl
      obtain ⟨last, behind⟩ := completes stack #[member] member.1
      have inside := (reads .objectStart (.inl rfl) stack #[] none).trans ends behind
      have closes : Leads ⟨.object (#[member] ++ rest.toArray) last :: stack, .after⟩
          (indented level ++ ['\x7d']) (deliver stack (.object (member :: rest))) := by
        refine (leads_indented rfl level).trans (leads_between rfl ?_)
        simp [takeBetween, JsonReader.isBlank, takeAfter]
      exact opens.cons (inside.leads closes)

end JsonText

namespace Json

/-- A value that has a text of its own: its strings and keys are whole, and its decimals are
written as such. -/
inductive IsPrintable : Json → Prop
  | null : IsPrintable .null
  | bool (value : Bool) : IsPrintable (.bool value)
  | integer (value : Int) : IsPrintable (.integer value)
  | decimal {text : String} (decimal : NumberPart.IsDecimal text.toList) :
    IsPrintable (.decimal text)
  | string (text : String) : IsPrintable (.string (some text))
  | array {elements : List Json} (all : ∀ value ∈ elements, IsPrintable value) :
    IsPrintable (.array elements)
  | object {members : List (JsonString × Json)}
    (named : ∀ member ∈ members, member.1.isSome = true)
    (all : ∀ member ∈ members, IsPrintable member.2) : IsPrintable (.object members)

namespace IsPrintable

/-- A record has a text if its fields have one. -/
theorem record {members : List (String × Json)} (all : ∀ member ∈ members, member.2.IsPrintable) :
    (Json.record members).IsPrintable := by
  refine .object (fun member field => ?_) (fun member field => ?_)
  all_goals obtain ⟨own, there, rfl⟩ := List.mem_map.mp field
  · rfl
  · exact all own there

/-- A text has a text, and so has null in its place. -/
theorem textOrNull (text : Option String) : (Json.textOrNull text).IsPrintable := by
  cases text with
  | none => exact .null
  | some text => exact .string text

/-- Whatever has a text is printed as a text that is read as it. -/
theorem prints {value : Json} (h : value.IsPrintable) : JsonText.Prints value := by
  induction h with
  | null => exact fun _ _ => ⟨_, by simp [JsonLayout.writePretty], JsonText.reads_null⟩
  | bool value =>
    exact fun _ _ =>
      ⟨_, by rw [String.ofList_toList, JsonLayout.writePretty], JsonText.reads_bool value⟩
  | integer value =>
    exact fun _ _ =>
      ⟨_, by rw [String.ofList_toList, JsonLayout.writePretty], JsonText.reads_integer value⟩
  | decimal decimal =>
    exact fun _ _ =>
      ⟨_, by rw [String.ofList_toList, JsonLayout.writePretty], JsonText.reads_decimal decimal⟩
  | string text => exact fun out _ => ⟨_, JsonText.quote_eq out text, JsonText.reads_string text⟩
  | array _ ih => exact JsonText.prints_array ih
  | object named _ ih => exact JsonText.prints_object fun member h => ⟨named member h, ih member h⟩

end IsPrintable

/-- A printed line with a value is read back as the value. -/
theorem parse_pretty {value : Json} (h : value.IsPrintable) :
    parse (value.pretty ++ "\n") = .ok value := by
  obtain ⟨text, printed, reads⟩ := h.prints "" 0
  have ends : JsonText.EndsValue ['\n'] := JsonText.endsValue_cons (.inr rfl) []
  obtain ⟨after, read⟩ := reads [] .value (.inl rfl) 0 ['\n'] ends
  have whole : (value.pretty ++ "\n").toList = text ++ ['\n'] := by
    rw [pretty, printed]
    simp
  have found : JsonReader.value ⟨text ++ ['\n'], 0⟩ = .ok (value, ⟨['\n'], after⟩) := read
  have finished : (do
      let value ← JsonReader.value
      JsonReader.finish
      pure value : JsonReader Json).run ⟨text ++ ['\n'], 0⟩ = .ok (value, ⟨[], after + 1⟩) := by
    rw [StateT.run_bind, StateT.run, found]
    rfl
  rw [parse, JsonReader.ofText, whole, finished]

/-- Every element and member is on a line of its own. -/
example : (Json.record [("a", .array [.integer (-5), .null]), ("b", .array [])]).pretty =
    "\x7b\n  \"a\": [\n    -5,\n    null\n  ],\n  \"b\": []\n\x7d" := by
  decide +kernel

end Json

end MessageCatalog
