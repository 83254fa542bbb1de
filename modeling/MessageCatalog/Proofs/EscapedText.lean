import MessageCatalog.Entity

/-!
# Escaped text is resolved

A run of characters resolves to a text if that is so behind any text resolved
before and before any text to come. Such runs can be put behind each other, so
what holds of each escape holds of all escaped texts. No escape brings in the
characters by which markup is told from text.
-/

namespace MessageCatalog

namespace Entity

/-- Whether a run of characters is resolved to a text, wherever it stands outside of
an entity. -/
def Resolves (run plain : List Char) : Prop :=
  ∀ length offset out rest, ∃ behind,
    unescapeFrom length offset none out (run ++ rest) =
      unescapeFrom length behind none (out ++ String.ofList plain) rest

namespace Resolves

/-- No characters are no text. -/
theorem nil : Resolves [] [] := by
  intro length offset out rest
  exact ⟨offset, by rw [String.ofList_nil, String.append_empty, List.nil_append]⟩

/-- Runs behind each other are the texts behind each other. -/
theorem append {run run' plain plain' : List Char} (first : Resolves run plain)
    (second : Resolves run' plain') : Resolves (run ++ run') (plain ++ plain') := by
  intro length offset out rest
  obtain ⟨between, hf⟩ := first length offset out (run' ++ rest)
  obtain ⟨behind, hs⟩ := second length between (out ++ String.ofList plain) rest
  refine ⟨behind, ?_⟩
  rw [List.append_assoc, hf, hs, String.ofList_append, String.append_assoc]

/-- A run of characters is a text of its own. -/
theorem unescape_eq {run plain : List Char} (h : Resolves run plain) :
    unescape run = .ok (String.ofList plain) := by
  obtain ⟨behind, all⟩ := h (Utf8.length run) 0 "" []
  rw [List.append_nil, String.empty_append] at all
  rw [unescape, all, unescapeFrom]

/-- Where each character has its run, the runs of all are their text. -/
theorem flatMap {write : Char → List Char} (each : ∀ c, Resolves (write c) [c])
    (text : List Char) : Resolves (text.flatMap write) text := by
  induction text with
  | nil => exact nil
  | cons c rest ih => exact (each c).append ih

/-- A character that opens no entity is itself. -/
theorem self {c : Char} (h : c ≠ '&') : Resolves [c] [c] := by
  intro length offset out rest
  refine ⟨offset + c.utf8Size, ?_⟩
  rw [List.singleton_append, unescapeFrom]
  simp only [if_neg h]
  rw [← String.append_singleton, String.singleton_eq_ofList]

end Resolves

/-- A character that may stand in the name of an entity. -/
def isEntityName (c : Char) : Bool := c != ';' && c != '&'

/-- The name of an entity is read up to its semicolon. -/
theorem unescapeFrom_pending {name : List Char} (plain : name.all isEntityName = true)
    {start : Nat} {before : List Char} {c : Char}
    (known : ∀ stop, resolve start stop (before.reverse ++ name) = .ok c)
    (length offset : Nat) (out : String) (rest : List Char) :
    ∃ behind, unescapeFrom length offset (some (start, before)) out (name ++ ';' :: rest) =
      unescapeFrom length behind none (out.push c) rest := by
  induction name generalizing offset before with
  | nil =>
    have here := known offset
    rw [List.append_nil] at here
    refine ⟨offset + 1, ?_⟩
    rw [List.nil_append, unescapeFrom]
    simp only [if_true, here]
  | cons d name ih =>
    rw [List.all_cons, Bool.and_eq_true] at plain
    have inside : d ≠ ';' ∧ d ≠ '&' := by simpa [isEntityName] using plain.1
    have later (stop : Nat) : resolve start stop ((d :: before).reverse ++ name) = .ok c := by
      rw [List.reverse_cons, List.append_assoc, List.singleton_append]
      exact known stop
    obtain ⟨behind, read⟩ := ih plain.2 later (offset + d.utf8Size)
    refine ⟨behind, ?_⟩
    rw [List.cons_append, unescapeFrom]
    simp only [if_neg inside.1, if_neg inside.2]
    exact read

/-- An entity is the character that it stands for. -/
theorem Resolves.entity (name : List Char) {c : Char} (plain : name.all isEntityName = true)
    (known : ∀ start stop, resolve start stop name = .ok c) :
    Resolves ('&' :: (name ++ [';'])) [c] := by
  intro length offset out rest
  have known' (stop : Nat) : resolve offset stop ([].reverse ++ name) = .ok c :=
    known offset stop
  obtain ⟨behind, read⟩ := unescapeFrom_pending plain known' length (offset + 1) out rest
  refine ⟨behind, ?_⟩
  rw [List.cons_append, List.append_assoc, List.singleton_append, unescapeFrom]
  simp only [if_true]
  rw [read, ← String.append_singleton, String.singleton_eq_ofList]

/-- The escape of a character of markup is resolved. -/
theorem resolves_escapeMarkup (c : Char) : Resolves (escapeMarkup c) [c] := by
  unfold escapeMarkup
  split
  next => exact Resolves.entity ['l', 't'] rfl (fun _ _ => rfl)
  next => exact Resolves.entity ['g', 't'] rfl (fun _ _ => rfl)
  next => exact Resolves.entity ['a', 'm', 'p'] rfl (fun _ _ => rfl)
  next => exact Resolves.entity ['a', 'p', 'o', 's'] rfl (fun _ _ => rfl)
  next => exact Resolves.entity ['q', 'u', 'o', 't'] rfl (fun _ _ => rfl)
  next notAmpersand _ _ => exact Resolves.self notAmpersand

/-- An escaped attribute value is resolved to the value. -/
theorem unescape_escapeMarkup (value : List Char) :
    unescape (value.flatMap escapeMarkup) = .ok (String.ofList value) :=
  (Resolves.flatMap resolves_escapeMarkup value).unescape_eq

/-- The control characters that have an element of their own. -/
def isNamedByElement (c : Char) : Bool :=
  decide (c.toNat < 0x20) && c != '\t' && c != '\n' && c != '\r'

/-- Every other character is resolved from what it is written as. -/
theorem resolves_escapeText {c : Char} (h : isNamedByElement c = false) :
    Resolves (escapeText c) [c] := by
  unfold escapeText
  split
  next blank =>
    refine Resolves.self ?_
    rintro rfl
    exact absurd blank (by decide)
  next notBlank =>
    rw [not_or] at notBlank
    split
    next isReturn =>
      rw [isReturn]
      exact Resolves.entity "#xd".toList rfl (fun _ _ => rfl)
    next notReturn =>
      rw [if_neg]
      · exact resolves_escapeMarkup c
      · intro control
        simp [isNamedByElement, control, notBlank, notReturn] at h

/-- The characters by which markup is told from text. -/
def isMarkupSign (c : Char) : Bool := c == '<' || c == '>' || c == '\x22' || c == '\x27'

/-- No escape brings in a sign of markup. -/
theorem isMarkupSign_escapeMarkup {c d : Char} (h : d ∈ escapeMarkup c) :
    isMarkupSign d = false := by
  have all : (escapeMarkup c).all (!isMarkupSign ·) = true := by
    unfold escapeMarkup
    split
    case h_6 notLess notGreater _ notSingle notDouble =>
      simp [isMarkupSign]
      exact ⟨⟨⟨notLess, notGreater⟩, notDouble⟩, notSingle⟩
    all_goals rfl
  have here := List.all_eq_true.mp all d h
  simpa using here

/-- An escaped attribute value has no quotes in it. -/
theorem unquoted_escaped (value : List Char) (c : Char) (h : c ∈ value.flatMap escapeMarkup) :
    c ≠ '\x22' := by
  obtain ⟨d, _, escaped⟩ := List.mem_flatMap.mp h
  rintro rfl
  exact absurd (isMarkupSign_escapeMarkup escaped) (by decide)

end Entity

end MessageCatalog
