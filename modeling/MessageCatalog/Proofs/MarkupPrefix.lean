import MessageCatalog.Proofs.EventStream

/-!
# More text behind a document

What a cursor reads does not depend on what stands behind it, unless it reads up
to the end of the text. A run of text, an end tag and an instruction may be cut
short by the end; everything else that is read whole is read the same when more
text follows.
-/

namespace MessageCatalog

/-- The same cursor with more text behind what is left to read. -/
def Cursor.extend (cursor : Cursor) (more : List Char) : Cursor :=
  { cursor with rest := cursor.rest ++ more }

/-- What a reading is when more text follows: an event is read again and leaves the
same text with more behind it, unless it has used all of the text up. -/
def Reading.Carries (more : List Char) (short long : Reading) : Prop :=
  match short with
  | .event _ found after =>
    (∃ offset, long = .event offset found (after.extend more)) ∨
      after.rest = [] ∧ after.closing = false
  | .finished _ | .fault _ _ => True

namespace Cursor

/-- A mark that was found is not longer than the text. -/
theorem length_le_of_splitAtMark {mark before text inside rest : List Char}
    (h : splitAtMark mark before text = some (inside, rest)) : mark.length ≤ text.length := by
  induction text generalizing before with
  | nil => simp [splitAtMark] at h
  | cons c text ih =>
    unfold splitAtMark at h
    split at h
    next found => exact (List.isPrefixOf_iff_prefix.mp found).length_le
    next => exact Nat.le_succ_of_le (ih h)

/-- A mark is found at the same place when more text follows. -/
theorem splitAtMark_append {mark before text inside rest : List Char} (more : List Char)
    (h : splitAtMark mark before text = some (inside, rest)) :
    splitAtMark mark before (text ++ more) = some (inside, rest ++ more) := by
  induction text generalizing before with
  | nil => simp [splitAtMark] at h
  | cons c text ih =>
    have long := length_le_of_splitAtMark h
    have same : mark.isPrefixOf (c :: text ++ more) = mark.isPrefixOf (c :: text) := by
      rw [Bool.eq_iff_iff, List.isPrefixOf_iff_prefix, List.isPrefixOf_iff_prefix]
      exact ⟨fun found => List.prefix_of_prefix_length_le found (List.prefix_append _ _) long,
        fun found => found.trans (List.prefix_append _ _)⟩
    rw [List.cons_append] at same ⊢
    unfold splitAtMark at h ⊢
    rw [same]
    split at h
    next found =>
      simp only [Option.some.injEq, Prod.mk.injEq] at h
      rw [if_pos found, h.1, ← List.cons_append, List.drop_append_of_le_length long, h.2]
    next missing =>
      rw [if_neg missing]
      exact ih h

/-- A tag ends at the same place when more text follows. -/
theorem splitTag_append {quote : Option Char} {before text inside rest : List Char}
    (more : List Char) (h : splitTag quote before text = some (inside, rest)) :
    splitTag quote before (text ++ more) = some (inside, rest ++ more) := by
  induction text generalizing quote before with
  | nil => simp [splitTag] at h
  | cons c text ih =>
    rw [List.cons_append]
    unfold splitTag at h ⊢
    cases quote with
    | some q => exact ih h
    | none =>
      dsimp only at h ⊢
      split at h
      next ends =>
        simp only [Option.some.injEq, Prod.mk.injEq] at h
        rw [if_pos ends, h.1, h.2]
      next inner =>
        rw [if_neg inner]
        exact ih h

/-- A document type ends at the same place when more text follows. -/
theorem splitDoctype_append {depth : Nat} {before text inside rest : List Char}
    (more : List Char) (h : splitDoctype depth before text = some (inside, rest)) :
    splitDoctype depth before (text ++ more) = some (inside, rest ++ more) := by
  induction text generalizing depth before with
  | nil => simp [splitDoctype] at h
  | cons c text ih =>
    rw [List.cons_append]
    unfold splitDoctype at h ⊢
    split at h
    next bracket =>
      rw [if_pos bracket]
      cases depth with
      | zero =>
        simp only [Option.some.injEq, Prod.mk.injEq] at h
        simp only [h.1, h.2]
      | succ depth => exact ih h
    next other =>
      rw [if_neg other]
      exact ih h

/-- A comment is read the same. -/
theorem readComment_carries (opened : List (List Char)) (offset : Nat) (text more : List Char) :
    (readComment opened offset text).Carries more (readComment opened offset (text ++ more)) := by
  unfold readComment
  cases text with
  | nil => trivial
  | cons second content =>
    dsimp only [List.cons_append]
    cases found : splitAtMark ['-', '-', '>'] [] content with
    | none => trivial
    | some parts =>
      obtain ⟨inside, rest⟩ := parts
      rw [splitAtMark_append more found]
      dsimp only
      split
      · exact .inl ⟨_, rfl⟩
      · trivial

/-- Character data are read the same. -/
theorem readData_carries (opened : List (List Char)) (offset : Nat) (text more : List Char) :
    (readData opened offset text).Carries more (readData opened offset (text ++ more)) := by
  unfold readData
  cases found : splitAtMark [']', ']', '>'] [] text with
  | none => trivial
  | some parts =>
    obtain ⟨inside, rest⟩ := parts
    rw [splitAtMark_append more found]
    dsimp only
    split
    · exact .inl ⟨_, rfl⟩
    · trivial

/-- A document type is read the same. -/
theorem readDoctype_carries (opened : List (List Char)) (offset : Nat) (text more : List Char) :
    (readDoctype opened offset text).Carries more (readDoctype opened offset (text ++ more)) := by
  unfold readDoctype
  cases found : splitDoctype 0 [] text with
  | none => trivial
  | some parts =>
    obtain ⟨inside, rest⟩ := parts
    rw [splitDoctype_append more found]
    dsimp only
    split
    · split
      · trivial
      · exact .inl ⟨_, rfl⟩
    · trivial

/-- Whatever stands behind an exclamation mark is read the same. -/
theorem readBang_carries (opened : List (List Char)) (offset : Nat) (text more : List Char) :
    (readBang opened offset text).Carries more (readBang opened offset (text ++ more)) := by
  cases text with
  | nil => trivial
  | cons c rest =>
    by_cases dash : c = '-'
    · subst dash
      exact readComment_carries opened offset rest more
    by_cases bracket : c = '['
    · subst bracket
      exact readData_carries opened offset rest more
    have other (text : List Char) : readBang opened offset (c :: text) =
        if c = 'D' ∨ c = 'd' then readDoctype opened offset (c :: text)
        else .fault offset (.strangeBang (Utf8.leadByte c)) := by
      unfold readBang
      split <;> simp_all
    rw [List.cons_append, other, other]
    split
    · exact readDoctype_carries opened offset (c :: rest) more
    · trivial

/-- What ends before more text ends at the same place. -/
theorem takeWhile_dropWhile_append {p : Char → Bool} {text : List Char}
    (ends : text.dropWhile p ≠ []) (more : List Char) :
    (text ++ more).takeWhile p = text.takeWhile p ∧
      (text ++ more).dropWhile p = text.dropWhile p ++ more := by
  induction text with
  | nil => exact absurd rfl ends
  | cons c rest ih =>
    rw [List.cons_append]
    cases passes : p c with
    | false => simp [passes]
    | true =>
      rw [List.dropWhile_cons_of_pos passes] at ends ⊢
      simp [passes, ih ends]

/-- An end tag is read the same, unless the end of the text stands for its bracket. -/
theorem readEnd_carries (opened : List (List Char)) (offset : Nat) (text more : List Char) :
    (readEnd opened offset text).Carries more (readEnd opened offset (text ++ more)) := by
  by_cases ends : text.dropWhile (· != '>') = []
  · unfold readEnd
    rw [ends]
    cases opened with
    | nil => trivial
    | cons expected outer =>
      dsimp only
      split
      · exact .inr ⟨rfl, rfl⟩
      · trivial
  · obtain ⟨taken, dropped⟩ := takeWhile_dropWhile_append ends more
    obtain ⟨bracket, rest, behind⟩ := List.exists_cons_of_ne_nil ends
    unfold readEnd
    rw [taken, dropped, behind]
    cases opened with
    | nil => trivial
    | cons expected outer =>
      dsimp only [List.cons_append]
      split
      · exact .inl ⟨_, rfl⟩
      · trivial

/-- An instruction is read the same, unless the end of the text stands for its bracket. -/
theorem readInstruction_carries (opened : List (List Char)) (offset : Nat) (text more : List Char) :
    (readInstruction opened offset text).Carries more
      (readInstruction opened offset (text ++ more)) := by
  by_cases ends : text.dropWhile (· != '>') = []
  · unfold readInstruction
    rw [ends]
    dsimp only
    split
    · exact .inr ⟨rfl, rfl⟩
    · trivial
  · obtain ⟨taken, dropped⟩ := takeWhile_dropWhile_append ends more
    obtain ⟨bracket, rest, behind⟩ := List.exists_cons_of_ne_nil ends
    unfold readInstruction
    rw [taken, dropped, behind]
    dsimp only [List.cons_append]
    split
    · exact .inl ⟨_, rfl⟩
    · trivial

/-- A start tag is read the same. -/
theorem readStart_carries (opened : List (List Char)) (offset : Nat) (text more : List Char) :
    (readStart opened offset text).Carries more (readStart opened offset (text ++ more)) := by
  unfold readStart
  cases found : splitTag none [] text with
  | none => trivial
  | some parts =>
    obtain ⟨content, rest⟩ := parts
    rw [splitTag_append more found]
    exact .inl ⟨_, rfl⟩

/-- Markup is read the same, unless the end of the text ends it. -/
theorem readMarkup_carries (opened : List (List Char)) (offset : Nat) (text more : List Char) :
    (readMarkup opened offset text).Carries more (readMarkup opened offset (text ++ more)) := by
  cases text with
  | nil => trivial
  | cons c rest =>
    by_cases bang : c = '!'
    · subst bang
      exact readBang_carries opened offset rest more
    by_cases slash : c = '/'
    · subst slash
      exact readEnd_carries opened offset rest more
    by_cases question : c = '?'
    · subst question
      exact readInstruction_carries opened offset rest more
    have other (text : List Char) :
        readMarkup opened offset (c :: text) = readStart opened offset (c :: text) := by
      unfold readMarkup
      split <;> simp_all
    rw [List.cons_append, other, other]
    exact readStart_carries opened offset (c :: rest) more

/-- An event is read the same when more text follows, unless it has used all of the
text up. -/
theorem next_carries (cursor : Cursor) (more : List Char) :
    cursor.next.Carries more (cursor.extend more).next := by
  obtain ⟨rest, offset, opened, closing⟩ := cursor
  cases closing with
  | true => exact .inl ⟨offset, rfl⟩
  | false =>
    cases rest with
    | nil => trivial
    | cons first rest =>
      by_cases bracket : first = '<'
      · subst bracket
        exact readMarkup_carries opened (offset + 1) rest more
      · have run (rest : List Char) : next ⟨first :: rest, offset, opened, false⟩ =
            .event (if (rest.dropWhile (· != '<')).isEmpty
                then offset + Utf8.length (first :: rest.takeWhile (· != '<')) - 1
                else offset + Utf8.length (first :: rest.takeWhile (· != '<')))
              (.text (first :: rest.takeWhile (· != '<')))
              ⟨rest.dropWhile (· != '<'),
                offset + Utf8.length (first :: rest.takeWhile (· != '<')), opened, false⟩ := by
          simp only [next, Bool.false_eq_true, if_false]
        rw [extend, List.cons_append, run, run]
        by_cases ends : rest.dropWhile (· != '<') = []
        · exact .inr ⟨ends, rfl⟩
        · obtain ⟨taken, dropped⟩ := takeWhile_dropWhile_append ends more
          rw [taken, dropped]
          exact .inl ⟨_, rfl⟩

/-! ## Ends of elements -/

/-- What stands behind an exclamation mark ends no element. -/
theorem readBang_ne_stop {opened : List (List Char)} {offset place : Nat} {text : List Char}
    {after : Cursor} : readBang opened offset text ≠ .event place .stop after := by
  unfold readBang readComment readData readDoctype
  repeat' split
  all_goals simp

/-- An instruction ends no element. -/
theorem readInstruction_ne_stop {opened : List (List Char)} {offset place : Nat} {text : List Char}
    {after : Cursor} : readInstruction opened offset text ≠ .event place .stop after := by
  unfold readInstruction
  dsimp only
  split
  · intro same
    injection same with _ event _
    split at event
    · split at event <;> exact absurd event (by simp)
    · exact absurd event (by simp)
  · simp

/-- A start tag ends no element. -/
theorem readStart_ne_stop {opened : List (List Char)} {offset place : Nat} {text : List Char}
    {after : Cursor} : readStart opened offset text ≠ .event place .stop after := by
  unfold readStart
  split <;> simp

/-- An element that does not close itself ends at an end tag with its name. -/
theorem readEnd_of_stop {cursor after : Cursor} {offset : Nat}
    (plain : cursor.closing = false) (h : cursor.next = .event offset .stop after) :
    ∃ text, cursor.rest = '<' :: '/' :: text ∧
      ∃ expected, cursor.opened = expected :: after.opened ∧
        trimName (text.takeWhile (· != '>')) = expected := by
  obtain ⟨rest, reached, opened, closing⟩ := cursor
  obtain rfl : closing = false := plain
  unfold next at h
  simp only [Bool.false_eq_true, if_false] at h
  split at h
  · exact absurd h (by simp)
  next text =>
    unfold readMarkup at h
    split at h
    · exact absurd h (by simp)
    · exact absurd h readBang_ne_stop
    next text =>
      refine ⟨text, rfl, ?_⟩
      unfold readEnd at h
      dsimp only at h ⊢
      split at h
      · exact absurd h (by simp)
      next expected outer =>
        split at h
        next same =>
          injection h with _ _ h
          exact ⟨expected, by rw [← h], same⟩
        · exact absurd h (by simp)
    · exact absurd h readInstruction_ne_stop
    · exact absurd h readStart_ne_stop
  · exact absurd h (by simp)

/-- An element that ends at an end tag ends there when more text follows as well, unless
the tag becomes that of another element. -/
theorem stop_of_extend {cursor after : Cursor} {offset : Nat} {more : List Char}
    (plain : cursor.closing = false) (h : cursor.next = .event offset .stop after)
    (sane : ∀ place fault, (cursor.extend more).next ≠ .fault place fault) :
    ∃ place after', (cursor.extend more).next = .event place .stop after' ∧
      after'.opened = after.opened := by
  obtain ⟨text, rest, expected, opened, _⟩ := readEnd_of_stop plain h
  have tag : (cursor.extend more).next =
      readEnd (expected :: after.opened) (cursor.offset + 1) (text ++ more) := by
    rw [← opened]
    simp only [extend, next, plain, rest, List.cons_append, Bool.false_eq_true, if_false, readMarkup]
  rw [tag] at sane ⊢
  unfold readEnd at sane ⊢
  dsimp only at sane ⊢
  split
  next => exact ⟨_, _, rfl, rfl⟩
  next other =>
    rw [if_neg other] at sane
    exact absurd rfl (sane _ _)

end Cursor

end MessageCatalog
