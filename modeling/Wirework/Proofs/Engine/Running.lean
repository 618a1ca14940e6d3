import Wirework.Proofs.Engine.Placing

/-! # Running routines

Every answer to a request of a routine goes on with the body at the insertion point (`Generation.answer_leads`).  A
routine is a tree of requests, so by induction on it the whole routine does so too, whatever it makes of the errors it
gets (`Generation.run_leads`).

Most requests do less than go on with the body in any way: reading inputs and assigning outputs only appends
operations none of which is an instance (`Running.Drafts`).  This is said of each of these steps, in the order in
which they call one another, and placing an instance is the one case that is taken from elsewhere; it depends on how
modules are made, which is a hypothesis here. -/

namespace Wirework

/-- The world of a running routine has been worked on. -/
def Running.Works {σ : Type} (r r' : Running σ) : Prop :=
  r.world.Works r'.world

instance {σ : Type} : IsPreorder (Running σ) Running.Works where
  refl r := refl_of World.Works r.world
  trans _ _ _ h h' := trans_of World.Works h h'

/-- The running routine has appended operations, none of which is an instance. -/
def Running.Drafts {σ : Type} (r r' : Running σ) : Prop :=
  r.world.Drafts r'.world

instance {σ : Type} : IsPreorder (Running σ) Running.Drafts where
  refl r := refl_of World.Drafts r.world
  trans _ _ _ h h' := trans_of World.Drafts h h'

namespace Generation

open Step

variable {σ α : Type}

theorem build_leads {R : World σ → World σ → Prop} {step : Build σ α} {Q : α → World σ → Prop} {r : Running σ}
    (h : step.Leads R Q r.world) :
    (build step).Leads (fun r r' => R r.world r'.world) (fun a r' => Q a r'.world) r :=
  h.zoom (fun _ h => h) fun _ _ _ h => h

theorem edit_leads {step : Edit α} {r : Running σ}
    (h : step.Leads Design.Grows (fun _ _ => True) r.world.session.design) :
    (edit step).Leads Running.Drafts (fun _ _ => True) r :=
  (build_leads (Build.edit_drafts h)).forget

theorem modify_outputs_leads (f : List (Option Signal) → List (Option Signal)) (r : Running σ) :
    (modify fun r : Running σ => { r with outputs := f r.outputs } :
      Generation σ PUnit).Leads Running.Drafts (fun _ _ => True) r :=
  ⟨refl_of World.Drafts r.world, fun _ _ => trivial⟩

/-! ### Inputs -/

section reading

variable {R : Running σ → Running σ → Prop} [IsPreorder (Running σ) R]

theorem pure_leads (a : α) (r : Running σ) : (pure a : Generation σ α).Leads R (fun _ _ => True) r :=
  (leads_pure a r).forget

theorem ownDefinition_leads (frame : Frame) (r : Running σ) :
    (ownDefinition frame).Leads R (fun _ _ => True) r :=
  ⟨refl_of R r, fun _ _ => trivial⟩

theorem argument_leads (frame : Frame) (index : Nat) (r : Running σ) :
    (argument frame index).Leads R (fun _ _ => True) r := by
  unfold argument
  cases frame.arguments[index]? with
  | none => exact leads_throw _ _ r
  | some value => exact pure_leads value r

theorem inputAt_leads (frame : Frame) (index : Nat) (r : Running σ) :
    (inputAt frame index).Leads R (fun _ _ => True) r := by
  unfold inputAt
  refine (ownDefinition_leads frame r).bind fun d r₁ _ _ => ?_
  cases d.inputs[index]? with
  | none => exact leads_throw _ _ r₁
  | some port => exact (argument_leads frame index r₁).bind fun _ r₂ _ _ => pure_leads _ r₂

theorem input_leads (frame : Frame) (port : String) (r : Running σ) :
    (input frame port).Leads R (fun _ _ => True) r := by
  unfold input
  refine (ownDefinition_leads frame r).bind fun d r₁ _ _ => ?_
  cases d.table.inputIndex? port with
  | none => exact leads_throw _ _ r₁
  | some index => exact inputAt_leads frame index r₁

theorem clock_leads (frame : Frame) (port : String) (r : Running σ) :
    (clock frame port).Leads R (fun _ _ => True) r := by
  unfold clock
  refine (ownDefinition_leads frame r).bind fun d r₁ _ _ => ?_
  cases d.table.inputIndex? port with
  | none => exact leads_throw _ _ r₁
  | some index =>
      refine Leads.guard fun _ => ?_
      exact (argument_leads frame index r₁).bind fun _ r₂ _ _ => pure_leads _ r₂

theorem inspect_leads (materialize : Materializer σ) (caller : Caller σ) (frame : Frame) (r : Running σ) :
    (answer materialize caller frame .inspect).Leads R (fun _ _ => True) r := by
  refine (ownDefinition_leads frame r).bind fun d r₁ _ _ => ?_
  exact (leads_get r₁).bind fun read r₂ _ _ => pure_leads _ r₂

end reading

/-! ### Outputs -/

theorem outputSignal_leads (port : PortSpec) (value : Connection) (d : Design) :
    (outputSignal port value).Leads Design.Grows (fun _ _ => True) d := by
  cases value with
  | signal s => exact (leads_pure _ d).forget
  | literal value =>
      refine (Edit.constant_leads port.type value d).bind fun s d' _ _ => ?_
      exact (leads_pure _ d').forget
  | absent => exact (leads_pure _ d).forget

theorem warn_leads (warning : Warning) (r : Running σ) :
    (build (Build.compile (Compile.warn warning))).Leads Running.Drafts (fun _ _ => True) r :=
  ⟨⟨rfl, r.world.session.design, _, .refl, rfl⟩, fun _ _ => trivial⟩

theorem setAt_leads (frame : Frame) (index : Nat) (value : Connection) (r : Running σ) :
    (setAt frame index value).Leads Running.Drafts (fun _ _ => True) r := by
  unfold setAt
  refine (ownDefinition_leads frame r).bind fun d r₁ _ _ => ?_
  cases d.outputs[index]? with
  | none => exact leads_throw _ _ r₁
  | some port =>
      refine Leads.guard_not fun _ => ?_
      refine (leads_ofOutcome _ r₁).bind fun _ r₂ _ _ => ?_
      refine (leads_get r₂).bind fun read r₃ _ _ => ?_
      cases read.outputs[index]? with
      | none => exact leads_throw _ _ r₃
      | some present =>
          refine (leads_get r₃).bind fun read r₄ _ _ => ?_
          refine Leads.guard_not fun _ => ?_
          refine (edit_leads (outputSignal_leads port value _)).bind fun signal r₅ _ _ => ?_
          have hset := modify_outputs_leads (σ := σ) (·.set index signal)
          by_cases hwarn : present.isSome ∧ read.world.session.config.reassign = .warn
          · rw [if_pos hwarn]
            exact (warn_leads _ r₅).bind fun _ r₆ _ _ => hset r₆
          · rw [if_neg hwarn]
            exact hset r₅

theorem set_leads (frame : Frame) (port : String) (value : Connection) (r : Running σ) :
    (set frame port value).Leads Running.Drafts (fun _ _ => True) r := by
  unfold set
  refine (ownDefinition_leads frame r).bind fun d r₁ _ _ => ?_
  cases d.table.outputIndex? port with
  | none => exact leads_throw _ _ r₁
  | some index => exact setAt_leads frame index value r₁

/-! ### Instances -/

section reading

variable {R : World σ → World σ → Prop} [IsPreorder (World σ) R]

theorem outputOf_leads (placed : Instance) (port : String) (w : World σ) :
    (Build.outputOf placed port).Leads R (fun _ _ => True) w := by
  unfold Build.outputOf
  refine (Build.definition_leads placed.definition w).bind fun d w₁ _ _ => ?_
  cases d.output? port with
  | none => exact leads_throw _ _ w₁
  | some spec =>
      cases hsignal : placed.results[spec.index]? with
      | none =>
          simp only [hsignal]
          exact leads_throw _ _ w₁
      | some signal =>
          simp only [hsignal]
          exact (leads_pure signal w₁).forget

theorem outputsOf_leads (placed : Instance) (w : World σ) :
    (Build.outputsOf placed).Leads R (fun _ _ => True) w := by
  refine (Build.definition_leads placed.definition w).bind fun d w₁ _ _ => ?_
  exact (leads_pure _ w₁).forget

end reading

/-! ### Requests and routines -/

section routine

variable {materialize : Materializer σ} {caller : Caller σ}

/-- Answering a request goes on with the body at the insertion point. -/
theorem answer_leads (hm : materialize.Sound) (hc : caller.Sound) (frame : Frame)
    (request : Request) {r : Running σ} (hr : r.world.session.Coherent) :
    (answer materialize caller frame request).Leads Running.Works (fun _ _ => True) r := by
  have hbuild : ∀ {α : Type} {step : Build σ α}, step.Leads World.Works (fun _ _ => True) r.world →
      (build step).Leads Running.Works (fun _ _ => True) r := build_leads
  have hdrafts : ∀ {α : Type} {step : Generation σ α}, step.Leads Running.Drafts (fun _ _ => True) r →
      step.Leads Running.Works (fun _ _ => True) r :=
    fun h => h.mono (fun _ hdrafts => World.Drafts.works hdrafts) fun _ _ _ h => h
  cases request with
  | input port => exact input_leads frame port r
  | inputAt index => exact inputAt_leads frame index r
  | clock port => exact clock_leads frame port r
  | set port value => exact hdrafts (set_leads frame port value r)
  | setAt index value => exact hdrafts (setAt_leads frame index value r)
  | constant type value => exact hdrafts (edit_leads (Edit.constant_leads type value _))
  | add lhs rhs => exact hdrafts (edit_leads (Edit.add_leads lhs rhs _))
  | register signal => exact hdrafts (edit_leads (Edit.register_leads signal _))
  | instantiate request => exact hbuild (Build.placeInstance_leads hm request hr).forget
  | outputOf placed port => exact hbuild (outputOf_leads placed port r.world)
  | outputsOf placed => exact hbuild (outputsOf_leads placed r.world)
  | call factory cache args => exact hbuild (Build.supply_leads (hc factory cache args _))
  | cacheSize cache => exact (leads_get r).bind fun read r₁ _ _ => pure_leads _ r₁
  | nameOf d => exact hbuild (Build.nameOf_leads d r.world)
  | inspect => exact inspect_leads materialize caller frame r

/-- Running a routine goes on with the body at the insertion point. -/
theorem run_leads (hm : materialize.Sound) (hc : caller.Sound) (frame : Frame)
    (routine : Routine σ α) {r : Running σ} (hr : r.world.session.Coherent) :
    (run materialize caller frame routine).Leads Running.Works (fun _ _ => True) r := by
  induction routine generalizing r with
  | done outcome =>
      exact (leads_ofOutcome outcome r).forget
  | ask request next ih =>
      refine (answer_leads hm hc frame request hr).attempt.bind fun outcome r₁ h₁ _ => ?_
      exact ih outcome (World.Works.coherent h₁ hr)
  | host update next ih =>
      refine (leads_get r).bind fun read r₁ h₁ _ => ?_
      have hhost : (modify fun r : Running σ =>
          { r with world.workspace.host := update r.world.workspace.host } :
          Generation σ PUnit).Leads Running.Works (fun _ _ => True) r₁ := by
        have hworks : r₁.world.Works
            { r₁.world with workspace.host := update r₁.world.workspace.host } :=
          ⟨refl_of Library.Extends _, fun _ _ => .rest _⟩
        exact ⟨hworks, fun _ _ => trivial⟩
      refine hhost.bind fun _ r₂ h₂ _ => ?_
      exact ih _ (World.Works.coherent h₂ (World.Works.coherent h₁ hr))

end routine

end Generation

end Wirework
