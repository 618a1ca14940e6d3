import Wirework.Proofs.Engine.Assigning

/-! # Attempts of a routine

The attempts of a routine to assign outputs are listed in the order in which it makes them
(`Generation.assignments`), whatever else it asks for in between and whatever it makes of the errors it gets.

A routine is put together from smaller ones.  Each of them makes its own attempts, wherever it is called, and its
caller goes on from where it has come to, with its outcome (`Generation.performs`).  A caller that does not look at
errors is one that passes them on (`Program.bind_eq_attempt_bind`).

Assigning several outputs at once is one such part: it sets each output by its name, in the order given, and comes to
an end with the first one that is refused (`SetsInTurn`, `Generation.setOutputs_inTurn`). -/

namespace Wirework

open Step

theorem Program.bind_eq_attempt_bind {ρ : Type} {Answer : ρ → Type} {σ α β : Type} (program : Program ρ Answer σ α)
    (f : α → Program ρ Answer σ β) :
    program >>= f = program.attempt >>= fun outcome => match outcome with
      | .ok a => f a
      | .error e => .done (.error e) := by
  induction program with
  | done outcome => cases outcome <;> rfl
  | ask request next ih => exact congrArg (Program.ask request) (funext ih)
  | host update next ih => exact congrArg (Program.host update) (funext ih)

variable {σ α β : Type}

namespace Generation

/-- The attempts of a routine to assign outputs, in order. -/
def assignments (materialize : Materializer σ) (caller : Caller σ) (frame : Frame) :
    Routine σ α → Running σ → List (Assignment σ)
  | .done _, _ => []
  | .ask request next, r =>
    let answered := (answer materialize caller frame request).apply r
    let rest := assignments materialize caller frame (next answered.1) answered.2
    match request.assignment? with
    | some (target, value) => ⟨target, value, r, answered.1.map fun _ => ⟨⟩, answered.2⟩ :: rest
    | none => rest
  | .host update next, r =>
    assignments materialize caller frame (next r.world.workspace.host)
      { r with world.workspace.host := update r.world.workspace.host }

/-! ### Routines put together -/

section composition

variable (materialize : Materializer σ) (caller : Caller σ) (frame : Frame)

/-- Called anywhere, the routine makes the attempts of the log and comes to the outcome, and whatever its caller
makes of it, it goes on from what is running then. -/
def Performs (routine : Routine σ α) (r : Running σ) (log : List (Assignment σ)) (outcome : Except BuildError α)
    (r' : Running σ) : Prop :=
  ∀ {β : Type} (next : Except BuildError α → Routine σ β),
    assignments materialize caller frame (routine.attempt >>= next) r =
        log ++ assignments materialize caller frame (next outcome) r' ∧
      (run materialize caller frame (routine.attempt >>= next)).apply r =
        (run materialize caller frame (next outcome)).apply r'

theorem performs (routine : Routine σ α) (r : Running σ) :
    Performs materialize caller frame routine r (assignments materialize caller frame routine r)
      ((run materialize caller frame routine).apply r).1 ((run materialize caller frame routine).apply r).2 := by
  intro β next
  induction routine generalizing r with
  | done outcome => cases outcome <;> exact ⟨rfl, rfl⟩
  | host update rest ih => exact ih r.world.workspace.host _
  | ask request rest ih =>
      obtain ⟨hlog, hrun⟩ := ih ((answer materialize caller frame request).apply r).1
        ((answer materialize caller frame request).apply r).2
      refine ⟨?_, hrun⟩
      have hask : (Program.ask request rest).attempt >>= next =
          Program.ask request fun answer => (rest answer).attempt >>= next := rfl
      simp only [hask, assignments]
      cases request.assignment? with
      | none => exact hlog
      | some assigned => exact congrArg (List.cons _) hlog

theorem assignments_bind (routine : Routine σ α) (f : α → Routine σ β) (r : Running σ) :
    assignments materialize caller frame (routine >>= f) r =
      assignments materialize caller frame routine r ++
        match (run materialize caller frame routine).apply r with
        | (.ok a, r') => assignments materialize caller frame (f a) r'
        | (.error _, _) => [] := by
  rw [Program.bind_eq_attempt_bind, (performs materialize caller frame routine r _).1]
  rcases (run materialize caller frame routine).apply r with ⟨e | a, r'⟩ <;> rfl

theorem run_bind (routine : Routine σ α) (f : α → Routine σ β) (r : Running σ) :
    (run materialize caller frame (routine >>= f)).apply r =
      match (run materialize caller frame routine).apply r with
      | (.ok a, r') => (run materialize caller frame (f a)).apply r'
      | (.error e, r') => (.error e, r') := by
  rw [Program.bind_eq_attempt_bind, (performs materialize caller frame routine r _).2]
  rcases (run materialize caller frame routine).apply r with ⟨e | a, r'⟩ <;> rfl

end composition

end Generation

/-! ### Several outputs at once -/

/-- Outputs are set by their names in turn, as long as none is refused. -/
inductive SetsInTurn (frame : Frame) :
    List (String × Connection) → Running σ → List (Assignment σ) → Except BuildError Unit → Running σ → Prop
  | nothing {r : Running σ} : SetsInTurn frame [] r [] (.ok ⟨⟩) r
  | assigned {port : String} {value : Connection} {rest : List (String × Connection)} {r next r' : Running σ}
      {log : List (Assignment σ)} {outcome : Except BuildError Unit}
      (set : (Generation.set frame port value).apply r = (.ok ⟨⟩, next))
      (others : SetsInTurn frame rest next log outcome r') :
      SetsInTurn frame ((port, value) :: rest) r (⟨.named port, value, r, .ok ⟨⟩, next⟩ :: log) outcome r'
  | refused {port : String} {value : Connection} {rest : List (String × Connection)} {r r' : Running σ}
      {e : BuildError} (set : (Generation.set frame port value).apply r = (.error e, r')) :
      SetsInTurn frame ((port, value) :: rest) r [⟨.named port, value, r, .error e, r'⟩] (.error e) r'

namespace Generation

variable (materialize : Materializer σ) (caller : Caller σ) (frame : Frame)

theorem assignments_set (port : String) (value : Connection) (r : Running σ) :
    assignments materialize caller frame (Routine.set port value) r =
      [⟨.named port, value, r, ((set frame port value).apply r).1.map fun _ => ⟨⟩,
        ((set frame port value).apply r).2⟩] :=
  rfl

theorem run_set (port : String) (value : Connection) (r : Running σ) :
    (run materialize caller frame (Routine.set port value)).apply r = (set frame port value).apply r :=
  rfl

/-- Assigning several outputs at once is setting each of them, up to the first that is refused. -/
theorem setOutputs_inTurn (values : List (String × Connection)) (r : Running σ) :
    SetsInTurn frame values r (assignments materialize caller frame (Routine.setOutputs values) r)
      ((run materialize caller frame (Routine.setOutputs values)).apply r).1
      ((run materialize caller frame (Routine.setOutputs values)).apply r).2 := by
  induction values generalizing r with
  | nil => exact .nothing
  | cons first rest ih =>
      obtain ⟨port, value⟩ := first
      have hcons : (Routine.setOutputs ((port, value) :: rest) : Routine σ Unit) =
          Routine.set port value >>= fun _ => Routine.setOutputs rest := rfl
      rw [hcons, assignments_bind, run_bind, assignments_set, run_set]
      rcases hset : (set frame port value).apply r with ⟨e | _, r₁⟩
      · exact .refused hset
      · exact .assigned hset (ih r₁)

end Generation

end Wirework
