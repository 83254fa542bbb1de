import MessageCatalog.Proofs.PolicyAgreement

/-!
# Steps of the reader

Steps compose as a monad should: notes are appended, and the first fault ends
everything. So a run over several events is one step too, and a run over two
lists of events is the one run behind the other.
-/

namespace MessageCatalog

namespace Reader

namespace Step

variable {α β γ : Type}

@[simp]
theorem pure_notes (result : α) : (pure result : Step α).notes = [] := rfl

@[simp]
theorem pure_outcome (result : α) : (pure result : Step α).outcome = .ok result := rfl

@[simp]
theorem note_outcome (reason : Irregularity) : (note reason).outcome = .ok () := rfl

@[simp]
theorem fail_outcome (fatal : Fatal) : (fail fatal : Step α).outcome = .error fatal := rfl

/-- A step goes on with its result. -/
theorem bind_of_ok {step : Step α} {result : α} (h : step.outcome = .ok result)
    (next : α → Step β) :
    step >>= next = ⟨step.notes ++ (next result).notes, (next result).outcome⟩ := by
  change andThen step next = _
  unfold andThen
  rw [h]

/-- A fault is the end. -/
theorem bind_of_error {step : Step α} {fatal : Fatal} (h : step.outcome = .error fatal)
    (next : α → Step β) : step >>= next = ⟨step.notes, .error fatal⟩ := by
  change andThen step next = _
  unfold andThen
  rw [h]

/-- How a step goes on matters for its result only. -/
theorem bind_congr_of_ok {step : Step α} {first second : α → Step β}
    (same : ∀ result, step.outcome = .ok result → first result = second result) :
    step >>= first = step >>= second := by
  cases h : step.outcome with
  | error fatal => rw [bind_of_error h, bind_of_error h]
  | ok result => rw [bind_of_ok h, bind_of_ok h, same result h]

/-- Going on with nothing but the result changes nothing. -/
theorem bind_pure_eq (step : Step α) : step >>= pure = step := by
  cases h : step.outcome with
  | error fatal => rw [bind_of_error h, ← h]
  | ok result => rw [bind_of_ok h, pure_notes, pure_outcome, List.append_nil, ← h]

/-- It does not matter which of three steps are put together first. -/
theorem bind_assoc_eq (step : Step α) (first : α → Step β) (second : β → Step γ) :
    step >>= first >>= second = step >>= fun result => first result >>= second := by
  cases h : step.outcome with
  | error fatal => rw [bind_of_error h, bind_of_error rfl, bind_of_error h]
  | ok result =>
    rw [bind_of_ok h, bind_of_ok h]
    cases hf : (first result).outcome with
    | error fatal => rw [bind_of_error rfl, bind_of_error hf]
    | ok middle =>
      rw [bind_of_ok rfl, bind_of_ok hf]
      dsimp only
      rw [List.append_assoc]

instance : LawfulMonad Step :=
  LawfulMonad.mk' Step bind_pure_eq (fun _ _ => rfl) bind_assoc_eq

/-- A composed step has a result exactly when both parts have. -/
@[simp]
theorem bind_outcome_eq_ok {step : Step α} {next : α → Step β} {result : β} :
    (step >>= next).outcome = .ok result ↔
      ∃ middle, step.outcome = .ok middle ∧ (next middle).outcome = .ok result := by
  cases h : step.outcome with
  | error fatal => simp [bind_of_error h]
  | ok middle => simp [bind_of_ok h]

/-- A step whose result is passed through a function has a result exactly when the
step has. -/
@[simp]
theorem map_outcome_eq_ok {step : Step α} {function : α → β} {result : β} :
    (function <$> step).outcome = .ok result ↔
      ∃ middle, step.outcome = .ok middle ∧ function middle = result := by
  rw [map_eq_pure_bind, bind_outcome_eq_ok]
  simp only [pure_outcome, Except.ok.injEq]

/-- The attributes of a tag have a result exactly when they can be read. -/
@[simp]
theorem attributes_outcome_eq_ok {tag : Tag} {list : List (String × String)} :
    (attributes tag).outcome = .ok list ↔ tag.attributeList = .ok list := by
  unfold attributes
  cases tag.attributeList <;> simp [done, fail]

end Step

/-- Take some events, one behind the other. -/
def Place.takeAll (place : Place) : List MarkupEvent → Step Place
  | [] => pure place
  | event :: rest => do
    let next ← place.take event
    next.takeAll rest

/-- A run over two lists of events is the one run behind the other. -/
theorem Place.takeAll_append (place : Place) (first second : List MarkupEvent) :
    place.takeAll (first ++ second) = place.takeAll first >>= fun next => next.takeAll second := by
  induction first generalizing place with
  | nil => rw [List.nil_append, takeAll, pure_bind]
  | cons event rest ih =>
    rw [List.cons_append, takeAll, takeAll, bind_assoc]
    congr 1
    funext next
    exact ih next

/-- What a run over events is, apart from the places of its events. -/
theorem Place.takeAll_eq (place : Place) (events : List (Nat × MarkupEvent)) :
    place.takeAll (events.map Prod.snd) =
      ⟨(place.noted events).map Prod.snd, (place.reached events).mapError Prod.snd⟩ := by
  induction events generalizing place with
  | nil => rfl
  | cons entry rest ih =>
    obtain ⟨offset, event⟩ := entry
    have same : ((place.take event).notes.map (offset, ·)).map Prod.snd =
        (place.take event).notes := by simp [Function.comp_def]
    rw [List.map_cons, takeAll, noted, reached, List.map_append, same]
    cases h : (place.take event).outcome with
    | error fatal =>
      rw [Step.bind_of_error h, List.map_nil, List.append_nil]
      rfl
    | ok next => rw [Step.bind_of_ok h, ih]

/-- A run that gets somewhere gets there without regard to offsets. -/
theorem Place.takeAll_outcome_of_reached {place next : Place} {events : List (Nat × MarkupEvent)}
    (h : place.reached events = .ok next) :
    (place.takeAll (events.map Prod.snd)).outcome = .ok next := by
  rw [takeAll_eq, h]
  rfl

/-- A run that gets somewhere without regard to offsets gets there. -/
theorem Place.reached_of_takeAll_outcome {place next : Place} {events : List (Nat × MarkupEvent)}
    (h : (place.takeAll (events.map Prod.snd)).outcome = .ok next) :
    place.reached events = .ok next := by
  rw [takeAll_eq] at h
  cases reached : place.reached events with
  | error fault =>
    rw [reached] at h
    exact absurd h (by simp)
  | ok final =>
    rw [reached] at h
    injection h with h
    rw [h]

/-- A run that gets somewhere without a note does so for events with offsets. -/
theorem Place.of_takeAll_eq_pure {place next : Place} {events : List (Nat × MarkupEvent)}
    (h : place.takeAll (events.map Prod.snd) = pure next) :
    place.noted events = [] ∧ place.reached events = .ok next := by
  have reached : place.reached events = .ok next := reached_of_takeAll_outcome (by rw [h]; rfl)
  rw [takeAll_eq] at h
  injection h with notes _
  exact ⟨List.map_eq_nil_iff.mp notes, reached⟩

end Reader

end MessageCatalog
