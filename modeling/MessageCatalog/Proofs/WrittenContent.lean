import MessageCatalog.Proofs.TagReading
import MessageCatalog.Proofs.WrittenMarkup

/-!
# Written content of text elements is read

A text is written character by character, and most characters join the run of
text before them. The exceptions are control characters, whose elements part
the run in two. Reading collects runs and elements and has the text again.
-/

namespace MessageCatalog

namespace Entity

/-- The value that names a control character. -/
def elementValue (c : Char) : String := String.ofList ('x' :: Nat.toDigits 16 c.toNat)

/-- What holds of the first 32 characters holds of every control character. -/
theorem of_toNat_lt (P : Char → Prop) {c : Char} (small : c.toNat < 32)
    (all : ∀ n : Fin 32, P (Char.ofNat n)) : P c := by
  have here := all ⟨c.toNat, small⟩
  rwa [Char.ofNat_toNat] at here

/-- What holds of those among them that have an element holds of all that have one. -/
theorem of_isNamedByElement (P : Char → Prop) {c : Char} (named : isNamedByElement c = true)
    (all : ∀ n : Fin 32, isNamedByElement (Char.ofNat n) = true → P (Char.ofNat n)) : P c := by
  have small : c.toNat < 32 := by
    simp only [isNamedByElement, Bool.and_eq_true, decide_eq_true_eq] at named
    exact named.1.1.1
  exact of_toNat_lt (fun c => isNamedByElement c = true → P c) small all named

/-- The element of a control character closes itself and has one attribute. -/
theorem escapeText_of_named {c : Char} (named : isNamedByElement c = true) :
    escapeText c = '<' :: ("byte".toList ++
      Written.attributeTexts [("value", elementValue c)] ++ ['/', '>']) :=
  of_isNamedByElement (fun c => escapeText c = '<' :: ("byte".toList ++
    Written.attributeTexts [("value", elementValue c)] ++ ['/', '>'])) named (by decide +kernel)

/-- The value in the element of a control character names it. -/
theorem byteCharacter?_elementValue {c : Char} (named : isNamedByElement c = true) :
    Reader.byteCharacter? (elementValue c) = some c :=
  of_isNamedByElement (fun c => Reader.byteCharacter? (elementValue c) = some c) named
    (by decide +kernel)

/-- No other character is written with a bracket. -/
theorem bracketless_escapeText {c d : Char} (h : isNamedByElement c = false)
    (member : d ∈ escapeText c) : d ≠ '<' := by
  rintro rfl
  unfold escapeText at member
  split at member
  next blank =>
    rw [← List.mem_singleton.mp member] at blank
    exact absurd blank (by decide)
  next notBlank =>
    rw [not_or] at notBlank
    split at member
    · exact absurd member (by decide)
    next notReturn =>
      rw [if_neg] at member
      · exact absurd (isMarkupSign_escapeMarkup member) (by decide)
      · intro control
        simp [isNamedByElement, control, notBlank, notReturn] at h

end Entity

namespace Reader

namespace Standing

/-- A run of text in a text element leads behind its text. -/
theorem leads_run {run plain : List Char} (resolves : Entity.Resolves run plain)
    (bracketless : ∀ c ∈ run, c ≠ '<') (host : TextHost) (content : String)
    (opened : List (List Char)) (rest : List Char) :
    Leads ⟨run ++ '<' :: rest, opened, .text host content⟩
      ⟨'<' :: rest, opened, .text host (content ++ String.ofList plain)⟩ := by
  have taken : (Place.text host content).takeText run =
      pure (Place.text host (content ++ String.ofList plain)) := by
    rw [Place.takeText, resolves.unescape_eq]
  refine leads_text bracketless taken ?_ opened (fun c member => (Option.some.inj member).symm)
  rintro rfl
  have empty := resolves.unescape_eq
  injection empty with empty
  rw [← empty, String.append_empty]

/-- The element of a control character leads behind the character. -/
theorem leads_byte {c : Char} (named : Entity.isNamedByElement c = true) (host : TextHost)
    (content : String) (opened : List (List Char)) (rest : List Char) :
    Leads ⟨Entity.escapeText c ++ rest, opened, .text host content⟩
      ⟨rest, opened, .text host (content.push c)⟩ := by
  have keys : ∀ entry ∈ [("value", Entity.elementValue c)], IsName entry.1.toList := by
    simp only [List.mem_singleton, forall_eq]
    decide
  have distinct : ([("value", Entity.elementValue c)].map Prod.fst).Nodup := by
    simp
  have entered : (Place.text host content).enter
      ⟨"byte".toList, Written.attributeTexts [("value", Entity.elementValue c)]⟩ =
        pure (.byte (some (Entity.elementValue c)) host content) := by
    rw [Place.enter]
    simp only [String.ofList_toList]
    rw [startByte, Step.attributes, Tag.attributeList_written keys distinct]
    rfl
  have left : (Place.byte (some (Entity.elementValue c)) host content).leave =
      pure (.text host (content.push c)) := by
    rw [Place.leave, Option.bind_some, Entity.byteCharacter?_elementValue named]
  have step := leads_closing (by decide : IsName "byte".toList) keys entered left opened rest
  rw [Entity.escapeText_of_named named]
  simpa using step

/-- A written text, behind a run that waits to be resolved, leads behind the text. -/
theorem leads_text_content {run plain : List Char} (resolves : Entity.Resolves run plain)
    (bracketless : ∀ c ∈ run, c ≠ '<') (text : List Char) (host : TextHost) (content : String)
    (opened : List (List Char)) (rest : List Char) :
    Leads ⟨run ++ (text.flatMap Entity.escapeText ++ '<' :: rest), opened, .text host content⟩
      ⟨'<' :: rest, opened, .text host (content ++ String.ofList (plain ++ text))⟩ := by
  induction text generalizing run plain content with
  | nil =>
    rw [List.flatMap_nil, List.nil_append, List.append_nil]
    exact leads_run resolves bracketless host content opened rest
  | cons c text ih =>
    rw [List.flatMap_cons, List.append_assoc]
    cases named : Entity.isNamedByElement c with
    | false =>
      have longer := resolves.append (Entity.resolves_escapeText named)
      have still : ∀ d ∈ run ++ Entity.escapeText c, d ≠ '<' := by
        intro d member
        rcases List.mem_append.mp member with before | here
        · exact bracketless d before
        · exact Entity.bracketless_escapeText named here
      have step := ih longer still content
      simpa using step
    | true =>
      let later := text.flatMap Entity.escapeText ++ '<' :: rest
      have first : Leads
          ⟨run ++ (Entity.escapeText c ++ later), opened, .text host content⟩
          ⟨Entity.escapeText c ++ later, opened,
            .text host (content ++ String.ofList plain)⟩ := by
        rw [Entity.escapeText_of_named named]
        exact leads_run resolves bracketless host content opened _
      have second := leads_byte named host (content ++ String.ofList plain) opened later
      have third := ih Entity.Resolves.nil (by simp) ((content ++ String.ofList plain).push c)
      have whole : (content ++ String.ofList plain).push c ++ String.ofList ([] ++ text) =
          content ++ String.ofList (plain ++ c :: text) := by
        rw [← String.toList_inj]
        simp
      rw [whole] at third
      exact first.trans (second.trans third)

end Standing

end Reader

end MessageCatalog
