/-! # Steps

A step changes a state and may be refused.  Its outcome is a result or an error together with the state it leaves
behind, also when it is refused: errors do not undo what has been done before them, and what a refusal leaves is part
of what can be said of a step.

Steps are put together as in any monad, with handlers that start in the state that the refused step leaves behind.
How each way of putting steps together unfolds is said once, in the lemmas on `Step.apply` below, and these are what
`simp` knows of steps; a proof about a step goes through its text with them and never opens the monad. -/

namespace Wirework

/-- A step on a state of type `S` that may be refused with an error of type `ε`. -/
abbrev Step (ε S : Type) := ExceptT ε (StateM S)

namespace Step

variable {ε ε' S T α β : Type}

/-- The outcome of a step and the state it leaves behind. -/
def apply (step : Step ε S α) (s : S) : Except ε α × S :=
  step.run s

def ofApply (f : S → Except ε α × S) : Step ε S α :=
  f

/-- An outcome as a step without effect. -/
def ofOutcome (outcome : Except ε α) : Step ε S α :=
  ofApply fun s => (outcome, s)

def query (read : S → Except ε α) : Step ε S α :=
  ofApply fun s => (read s, s)

/-- Goes on after a step whether it was refused or not. -/
def attempt (step : Step ε S α) : Step ε S (Except ε α) :=
  ofApply fun s =>
    let (outcome, s) := step.apply s
    (.ok outcome, s)

/-- Runs a step on a part of a larger state. -/
def zoom (part : T → S) (replace : S → T → T) (step : Step ε S α) : Step ε T α :=
  ofApply fun t =>
    let (outcome, s) := step.apply (part t)
    (outcome, replace s t)

/-- Rewords the error of a step. -/
def mapError (f : ε → ε') (step : Step ε S α) : Step ε' S α :=
  ofApply fun s =>
    let (outcome, s) := step.apply s
    (outcome.mapError f, s)

/-! ### Outcomes -/

@[simp] theorem apply_ofApply (f : S → Except ε α × S) (s : S) : (ofApply f).apply s = f s := rfl

@[simp] theorem apply_ofOutcome (outcome : Except ε α) (s : S) :
    (ofOutcome outcome : Step ε S α).apply s = (outcome, s) := rfl

@[simp] theorem apply_query (read : S → Except ε α) (s : S) : (query read).apply s = (read s, s) :=
  rfl

@[simp] theorem apply_attempt (step : Step ε S α) (s : S) :
    step.attempt.apply s = (.ok (step.apply s).1, (step.apply s).2) := rfl

@[simp] theorem apply_zoom (part : T → S) (replace : S → T → T) (step : Step ε S α) (t : T) :
    (step.zoom part replace).apply t =
      ((step.apply (part t)).1, replace (step.apply (part t)).2 t) := rfl

@[simp] theorem apply_mapError (f : ε → ε') (step : Step ε S α) (s : S) :
    (step.mapError f).apply s = ((step.apply s).1.mapError f, (step.apply s).2) := rfl

@[simp] theorem apply_pure (a : α) (s : S) : (pure a : Step ε S α).apply s = (.ok a, s) := rfl

@[simp] theorem apply_throw (e : ε) (s : S) : (throw e : Step ε S α).apply s = (.error e, s) := rfl

@[simp] theorem apply_get (s : S) : (get : Step ε S S).apply s = (.ok s, s) := rfl

@[simp] theorem apply_set (s' s : S) : (set s' : Step ε S PUnit).apply s = (.ok ⟨⟩, s') := rfl

@[simp] theorem apply_modify (f : S → S) (s : S) :
    (modify f : Step ε S PUnit).apply s = (.ok ⟨⟩, f s) := rfl

theorem apply_bind (step : Step ε S α) (next : α → Step ε S β) (s : S) :
    (step >>= next).apply s =
      match step.apply s with
      | (.ok a, s') => (next a).apply s'
      | (.error e, s') => (.error e, s') := by
  change (match step.apply s with
    | (outcome, s') => ExceptT.bindCont next outcome s') = _
  rcases step.apply s with ⟨_ | _, _⟩ <;> rfl

theorem apply_tryCatch (step : Step ε S α) (handler : ε → Step ε S α) (s : S) :
    (tryCatch step handler).apply s =
      match step.apply s with
      | (.ok a, s') => (.ok a, s')
      | (.error e, s') => (handler e).apply s' := by
  change (match step.apply s with
    | (outcome, s') => (match outcome with
      | .ok a => (pure (.ok a) : StateM S (Except ε α))
      | .error e => handler e) s') = _
  rcases step.apply s with ⟨_ | _, _⟩ <;> rfl

theorem apply_discard (step : Step ε S α) (s : S) :
    (discard step).apply s = ((step.apply s).1.map fun _ => ⟨⟩, (step.apply s).2) := by
  change (match step.apply s with
    | (outcome, s') => (match outcome with
      | .ok a => (pure (.ok ⟨⟩) : StateM S (Except ε PUnit))
      | .error e => pure (.error e)) s') = _
  rcases step.apply s with ⟨_ | _, _⟩ <;> rfl

end Step

end Wirework
