import MessageCatalog.CatalogWriter
import MessageCatalog.Proofs.PlaceMarkers

/-!
# Text that is written in runs

A text is written run by run, but it comes out as if it were written character by
character. The run that is not written yet lies right in front of the next character, so
its bytes are always there, and no character of it is written before its end comes. Hence
each character contributes an escape of its own, wherever it stands.
-/

namespace MessageCatalog

namespace Written

open PlaceMarker

/-- A character that is replaced is escaped by what stands for it. -/
theorem escapeText_of_replaced {c : Char} {replacement : String}
    (replaced : replacement? c = some replacement) :
    Entity.escapeText c = replacement.toList := by
  unfold replacement? at replaced
  unfold Entity.escapeText
  split at replaced
  · exact absurd replaced (by simp)
  next notBlank =>
    rw [if_neg notBlank]
    split at replaced
    next isReturn =>
      rw [if_pos isReturn, ← Option.some.inj replaced]
    next notReturn =>
      rw [if_neg notReturn]
      split at replaced
      next control =>
        rw [if_pos control, ← Option.some.inj replaced]
        simp
      · exact absurd replaced (by simp)

/-- A character that is not replaced is escaped as in an attribute value. -/
theorem escapeText_of_kept {c : Char} (kept : replacement? c = none) :
    Entity.escapeText c = Entity.escapeMarkup c := by
  unfold replacement? at kept
  unfold Entity.escapeText
  split at kept
  next blank =>
    rw [if_pos blank]
    rcases blank with rfl | rfl <;> rfl
  next notBlank =>
    rw [if_neg notBlank]
    split at kept
    · exact absurd kept (by simp)
    next notReturn =>
      rw [if_neg notReturn]
      split at kept
      · exact absurd kept (by simp)
      next notControl => rw [if_neg notControl]

/-- A run of characters that are not replaced. -/
def IsRun (run : List Char) : Prop := ∀ c ∈ run, replacement? c = none

/-- A run is escaped as an attribute value is. -/
theorem attributeValue_of_isRun {run : List Char} (kept : IsRun run) :
    attributeValue (String.ofList run) = String.ofList (run.flatMap Entity.escapeText) := by
  rw [attributeValue, String.toList_ofList]
  exact congrArg String.ofList
    (List.flatMap_congr fun c member => (escapeText_of_kept (kept c member)).symm)

/-- A character takes as many bytes as its size says. -/
theorem length_encoded_concat (run : List Char) (c : Char) :
    (encoded (run ++ [c])).length = (encoded run).length + c.utf8Size := by
  rw [encoded_append, List.length_append, encoded, encoded, List.flatMap_singleton,
    String.length_utf8EncodeChar]

/-- The run in front of the next character can be cut out, and with it everything that is
left of the text is written. A kept character lengthens the run; a replaced one moves the
run behind it. -/
theorem appendFrom?_of_split {bytes : Array UInt8} {before run rest : List Char}
    (split : bytes.toList = encoded before ++ (encoded run ++ encoded rest)) (kept : IsRun run)
    (out : String) :
    appendFrom? bytes (encoded before).length ((encoded before).length + (encoded run).length)
        out rest =
      some (out ++ String.ofList ((run ++ rest).flatMap Entity.escapeText)) := by
  induction rest generalizing before run out with
  | nil =>
    have size : bytes.size = (encoded before).length + (encoded run).length := by
      rw [← Array.length_toList, split, List.length_append, List.length_append]
      rfl
    rw [appendFrom?, size, slice?_of_split split]
    dsimp only
    rw [attributeValue_of_isRun kept, List.append_nil]
  | cons c rest ih =>
    rw [appendFrom?]
    cases next : replacement? c with
    | none =>
      have longer : IsRun (run ++ [c]) := by
        intro d member
        rcases List.mem_append.mp member with earlier | last
        · exact kept d earlier
        · exact List.mem_singleton.mp last ▸ next
      have moved : bytes.toList = encoded before ++ (encoded (run ++ [c]) ++ encoded rest) := by
        rw [split, encoded_append run [c], List.append_assoc, ← encoded_append [c] rest,
          List.singleton_append]
      have goes := ih moved longer out
      rw [length_encoded_concat, ← Nat.add_assoc, List.append_assoc, List.singleton_append] at goes
      exact goes
    | some replacement =>
      have none : IsRun [] := fun d member => absurd member List.not_mem_nil
      have moved : bytes.toList =
          encoded (before ++ run ++ [c]) ++ (encoded [] ++ encoded rest) := by
        rw [split, encoded_append (before ++ run) [c], encoded_append before run,
          ← List.singleton_append, encoded_append [c] rest]
        simp only [List.append_assoc]
        rfl
      have goes := ih moved none
        (out ++ attributeValue (String.ofList run) ++ replacement)
      have offset : (encoded (before ++ run ++ [c])).length =
          (encoded before).length + (encoded run).length + c.utf8Size := by
        rw [length_encoded_concat, encoded_append, List.length_append]
      rw [offset, show (encoded []).length = 0 from rfl, Nat.add_zero, List.nil_append] at goes
      rw [slice?_of_split split]
      dsimp only
      rw [goes, attributeValue_of_isRun kept, List.flatMap_append, List.flatMap_cons,
        escapeText_of_replaced next]
      simp only [String.append_assoc, String.ofList_append, String.ofList_toList]

/-- Appending a text appends the escapes of its characters. -/
theorem appendText?_eq (out content : String) :
    appendText? out content =
      some (out ++ String.ofList (content.toList.flatMap Entity.escapeText)) := by
  have none : IsRun [] := fun d member => absurd member List.not_mem_nil
  have split : content.toUTF8.data.toList =
      encoded [] ++ (encoded [] ++ encoded content.toList) :=
    Utf8.bytes_eq_flatMap content
  exact appendFrom?_of_split split none out

/-- The content of a text element is its text, escaped character by character. -/
theorem toList_text (content : String) :
    (text content).toList = content.toList.flatMap Entity.escapeText := by
  rw [text, appendText?_eq, Option.getD_some, String.empty_append, String.toList_ofList]

/-- A run may end between characters of more bytes, and two may end in a row. -/
example : text "é\x1b\r<é" = "é<byte value=\"x1b\"/>&#xd;&lt;é" := by decide +kernel

/-- A text can always be appended. -/
theorem appendText?_eq_text (out content : String) :
    appendText? out content = some (out ++ text content) := by
  rw [appendText?_eq, ← toList_text, String.ofList_toList]

/-- A text behind another is written behind it. -/
theorem text_append (first second : String) :
    text (first ++ second) = text first ++ text second := by
  apply String.toList_inj.mp
  rw [String.toList_append, toList_text, toList_text, toList_text, String.toList_append,
    List.flatMap_append]

/-- A single character is written as its escape. -/
theorem toList_text_singleton (c : Char) :
    (text (String.singleton c)).toList = Entity.escapeText c := by
  rw [toList_text, String.toList_singleton, List.flatMap_singleton]

/-- A text is written as its characters are. -/
theorem text_eq_join (content : String) :
    text content = String.join (content.toList.map fun c => text (String.singleton c)) := by
  apply String.toList_inj.mp
  rw [toList_text, String.toList_join, List.flatMap_map]
  exact List.flatMap_congr fun c _ => (toList_text_singleton c).symm

/-- A character is written as the text that replaces it. -/
theorem text_of_replaced {c : Char} {replacement : String}
    (replaced : replacement? c = some replacement) : text (String.singleton c) = replacement := by
  apply String.toList_inj.mp
  rw [toList_text_singleton, escapeText_of_replaced replaced]

/-- The characters of markup, the quotes among them. -/
def markup : List Char := ['<', '>', '&', '\x22', '\x27']

/-- The characters that are written as a reference, by their name or by their number. -/
def references : List (Char × String) :=
  [('<', "&lt;"), ('>', "&gt;"), ('&', "&amp;"), ('\x22', "&quot;"), ('\x27', "&apos;"),
    ('\r', "&#xd;")]

/-- A character that is neither one of markup nor a control character is written as it is. -/
theorem text_of_plain {c : Char} (plain : c ∉ markup)
    (blank : c.toNat < 0x20 → c = '\t' ∨ c = '\n') :
    text (String.singleton c) = String.singleton c := by
  have kept : replacement? c = none := by
    unfold replacement?
    split
    · rfl
    next notBlank =>
      have notReturn : c ≠ '\r' := by
        rintro rfl
        exact notBlank (blank (by decide))
      rw [if_neg notReturn, if_neg fun control => notBlank (blank control)]
  have same : Entity.escapeMarkup c = [c] := by
    unfold Entity.escapeMarkup
    split
    case h_6 => rfl
    all_goals exact absurd (by decide) plain
  apply String.toList_inj.mp
  rw [toList_text_singleton, escapeText_of_kept kept, same, String.toList_singleton]

/-- A character of markup that is written stands in the escape of a character that is not
written as it is. -/
theorem text_ne_of_markup {c d : Char} (sign : d ∈ markup)
    (member : d ∈ (text (String.singleton c)).toList) :
    text (String.singleton c) ≠ String.singleton c := by
  intro same
  rw [same, String.toList_singleton, List.mem_singleton] at member
  have escaped : markup.all (fun e => Entity.escapeText e != [e]) = true := by decide
  have other := List.all_eq_true.mp escaped d sign
  rw [member, ← toList_text_singleton, same, String.toList_singleton] at other
  exact absurd other (by simp)

/-- What stands somewhere in the runs that some items are written as stands in the run of
one of them, between the runs of the items before it and behind it. -/
theorem split_of_flatMap_eq {write : Char → List Char} {text front back : List Char} {d : Char}
    (split : text.flatMap write = front ++ d :: back) :
    ∃ before c behind left right, text = before ++ c :: behind ∧ write c = left ++ d :: right ∧
      front = before.flatMap write ++ left ∧ back = right ++ behind.flatMap write := by
  induction text generalizing front with
  | nil => exact absurd split.symm (by simp)
  | cons c rest ih =>
    have later (between : List Char) (start : front = write c ++ between)
        (tail : rest.flatMap write = between ++ d :: back) : ∃ before e behind left right,
          c :: rest = before ++ e :: behind ∧ write e = left ++ d :: right ∧
            front = before.flatMap write ++ left ∧ back = right ++ behind.flatMap write := by
      obtain ⟨before, e, behind, left, right, parts, run, passed, stop⟩ := ih tail
      refine ⟨c :: before, e, behind, left, right, by rw [parts, List.cons_append], run, ?_, stop⟩
      rw [start, passed, List.flatMap_cons, List.append_assoc]
    rw [List.flatMap_cons, List.append_eq_append_iff] at split
    obtain ⟨between, start, tail⟩ | ⟨between, run, tail⟩ := split
    · exact later between start tail
    · cases between with
      | nil => exact later [] (by rw [run, List.append_nil, List.append_nil]) tail.symm
      | cons e right =>
        rw [List.cons_append, List.cons.injEq] at tail
        obtain ⟨rfl, stop⟩ := tail
        exact ⟨[], c, rest, front, right, rfl, run, rfl, stop⟩

/-- A text is written character by character, though it is cut into runs by the positions of
its bytes: no cut ever fails, a text behind another is written behind it, and each character
has an escape of its own. A character of markup in what is written stands in the escape of
one character of the text, between what is written for the text before and behind that
character, and that character is not written as it is. -/
theorem text_by_character :
    (∀ out content, appendText? out content = some (out ++ text content)) ∧
      (∀ out first second, appendText? out (first ++ second) =
        (appendText? out first).bind fun next => appendText? next second) ∧
      (∀ content, text content =
        String.join (content.toList.map fun c => text (String.singleton c))) ∧
      (∀ entry ∈ references, text (String.singleton entry.1) = entry.2) ∧
      (∀ c : Char, c.toNat < 0x20 → c ∉ ['\t', '\n', '\r'] → text (String.singleton c) =
        "<byte value=\"x" ++ String.ofList (Nat.toDigits 16 c.toNat) ++ "\"/>") ∧
      (∀ c : Char, c ∉ markup → (c.toNat < 0x20 → c = '\t' ∨ c = '\n') →
        text (String.singleton c) = String.singleton c) ∧
      ∀ content front d back, d ∈ markup → (text content).toList = front ++ d :: back →
        ∃ before c behind left right, content.toList = before ++ c :: behind ∧
          text (String.singleton c) ≠ String.singleton c ∧
          (text (String.singleton c)).toList = left ++ d :: right ∧
          front = (text (String.ofList before)).toList ++ left ∧
          back = right ++ (text (String.ofList behind)).toList := by
  refine ⟨appendText?_eq_text, fun out first second => ?together, text_eq_join, ?named, ?control,
    fun c => text_of_plain, fun content front d back sign split => ?placed⟩
  case together =>
    rw [appendText?_eq_text, appendText?_eq_text, Option.bind_some, appendText?_eq_text,
      text_append, String.append_assoc]
  case named =>
    have escapes : references.all (fun entry => Entity.escapeText entry.1 == entry.2.toList) = true :=
      by decide
    intro entry member
    apply String.toList_inj.mp
    rw [toList_text_singleton]
    exact beq_iff_eq.mp (List.all_eq_true.mp escapes entry member)
  case control =>
    intro c control other
    simp only [List.mem_cons, List.not_mem_nil, or_false, not_or] at other
    refine text_of_replaced ?_
    rw [replacement?, if_neg (not_or.mpr ⟨other.1, other.2.1⟩), if_neg other.2.2, if_pos control]
  case placed =>
    rw [toList_text] at split
    obtain ⟨before, c, behind, left, right, parts, run, start, stop⟩ := split_of_flatMap_eq split
    rw [← toList_text_singleton] at run
    refine ⟨before, c, behind, left, right, parts, ?_, run, ?_, ?_⟩
    · exact text_ne_of_markup sign (run ▸ by simp)
    · rw [start, toList_text, String.toList_ofList]
    · rw [stop, toList_text, String.toList_ofList]

end Written

end MessageCatalog
