import Wirework.Proofs.Independence.Placement

/-! # Plans

A plan is a fixed program over the ports of a module: it calls, in a fixed order, for inputs, clocks, constants, sums,
registers and instances, and assigns outputs.  It refers to what its calls have given by the order in which they have
given it, and it branches only on whether a call has succeeded.  Its routine (`Plan.routine`) is thus the same
whatever the values and modules are called in the session it runs in.

Two runs of a plan hold signals and instances that stand for each other (`Holdings.Matches`).  Their next calls make
requests that match (`PlanStep.request?_matches`), which are granted on both sides or on neither
(`Generation.answer_lockstep`), so routines of one plan that build bodies abreast end alike
(`Generation.run_lockstep`), by induction on the plan. -/

namespace Wirework

open Step

variable {σ : Type}

/-! ### Plans and their routines -/

/-- What a plan supplies for a port. -/
inductive Feed where
  /-- A signal, by the number of signals that had been given before it. -/
  | signal (position : Nat)
  | literal (value : Int)
  | absent

/-- A call of a plan. -/
inductive PlanStep where
  | input (port : String)
  | inputAt (index : Nat)
  | clock (port : String)
  | constant (type : HwType) (value : Int)
  | add (lhs rhs : Nat)
  | register (position : Nat)
  | instantiate (definition : DefId) (bindings : List (String × Feed)) (name : Option String)
      (appId : Option AppId) (location : Location)
  | outputOf (placed : Nat) (port : String)
  | set (port : String) (value : Feed)
  | setAt (index : Nat) (value : Feed)

/-- A fixed program over the ports of a module. -/
inductive Plan where
  | finish
  | fail (e : BuildError)
  /-- A call whose error ends the plan. -/
  | call (step : PlanStep) (next : Plan)
  /-- A call whose error the plan goes on from. -/
  | branch (step : PlanStep) (next failed : Plan)

/-- What the calls of a plan have given so far. -/
structure Holdings where
  signals : List Signal := []
  instances : List Instance := []

def Holdings.addSignal (held : Holdings) (signal : Signal) : Holdings :=
  { held with signals := held.signals ++ [signal] }

def Holdings.addInstance (held : Holdings) (placed : Instance) : Holdings :=
  { held with instances := held.instances ++ [placed] }

/-- What is supplied, as far as it has been given. -/
def Feed.connection? (held : Holdings) : Feed → Option Connection
  | signal position => (held.signals[position]?).map Connection.signal
  | literal value => some (.literal value)
  | absent => some .absent

/-- The connections of an instance, as far as they have been given. -/
def Feed.bindings? (held : Holdings) (feeds : List (String × Feed)) : Option (List (String × Connection)) :=
  feeds.mapM fun (port, feed) => (feed.connection? held).map fun connection => (port, connection)

/-- The request that a call makes, unless it refers to what has not been given. -/
def PlanStep.request? (held : Holdings) : PlanStep → Option Request
  | .input port => some (.input port)
  | .inputAt index => some (.inputAt index)
  | .clock port => some (.clock port)
  | .constant type value => some (.constant type value)
  | .add lhs rhs =>
    (held.signals[lhs]?).bind fun lhs => (held.signals[rhs]?).map fun rhs => .add lhs rhs
  | .register position => (held.signals[position]?).map .register
  | .instantiate definition feeds name appId location =>
    (Feed.bindings? held feeds).map fun bindings =>
      .instantiate { definition, bindings, name, appId, location }
  | .outputOf placed port => (held.instances[placed]?).map fun placed => .outputOf placed port
  | .set port value => (value.connection? held).map (.set port)
  | .setAt index value => (value.connection? held).map (.setAt index)

def PlanStep.callee? : PlanStep → Option DefId
  | .instantiate definition _ _ _ _ => some definition
  | _ => none

/-- What is held once a request has been answered. -/
def Holdings.gain (held : Holdings) : (request : Request) → request.Answer → Holdings
  | .input _ => fun signal => held.addSignal signal
  | .inputAt _ => fun signal => held.addSignal signal
  | .clock _ => fun clock => held.addSignal clock.signal
  | .constant _ _ => fun signal => held.addSignal signal
  | .add _ _ => fun signal => held.addSignal signal
  | .register _ => fun signal => held.addSignal signal
  | .outputOf _ _ => fun signal => held.addSignal signal
  | .instantiate _ => fun placed => held.addInstance placed
  | _ => fun _ => held

namespace Plan

/-- How a plan ends that refers to what has not been given. -/
def unbound : BuildError :=
  .configuration (.reported "unbound variable")

/-- The rest of the routine of a plan. -/
def routineFrom : Plan → Holdings → Routine σ Unit
  | finish, _ => .done (.ok ())
  | fail e, _ => .done (.error e)
  | call step next, held =>
    match step.request? held with
    | none => .done (.error unbound)
    | some request => .ask request fun
      | .ok answer => next.routineFrom (held.gain request answer)
      | .error e => .done (.error e)
  | branch step next failed, held =>
    match step.request? held with
    | none => .done (.error unbound)
    | some request => .ask request fun
      | .ok answer => next.routineFrom (held.gain request answer)
      | .error _ => failed.routineFrom held

def routine (plan : Plan) : Routine σ Unit :=
  plan.routineFrom {}

/-- The definitions that a plan instantiates. -/
def callees : Plan → List DefId
  | finish | fail _ => []
  | call step next => step.callee?.toList ++ next.callees
  | branch step next failed => step.callee?.toList ++ next.callees ++ failed.callees

end Plan

/-! ### Plans abreast -/

/-- What two runs of a plan hold stands for each other. -/
structure Holdings.Matches (g : Setting σ) (k : List (ValueId × ValueId)) (a b : Holdings) : Prop where
  signals : List.Forall₂ (Signal.Matches k) a.signals b.signals
  instances : List.Forall₂ (Instance.Matches g k) a.instances b.instances

/-- The requests are the same, up to what stands for each other, and ask for instances of planned definitions below
the bound only. -/
inductive Request.Matches (g : Setting σ) (bound : Nat) (k : List (ValueId × ValueId)) : Request → Request → Prop
  | input (port : String) : Matches g bound k (.input port) (.input port)
  | inputAt (index : Nat) : Matches g bound k (.inputAt index) (.inputAt index)
  | clock (port : String) : Matches g bound k (.clock port) (.clock port)
  | constant (type : HwType) (value : Int) : Matches g bound k (.constant type value) (.constant type value)
  | add {lhs rhs lhs' rhs' : Signal} (left : lhs.Matches k lhs') (right : rhs.Matches k rhs') :
      Matches g bound k (.add lhs rhs) (.add lhs' rhs')
  | register {input input' : Signal} (matching : input.Matches k input') :
      Matches g bound k (.register input) (.register input')
  | instantiate {request request' : InstanceRequest} (matching : request.Matches k request')
      (planned : g.planned request.definition) (below : request.definition.index < bound) :
      Matches g bound k (.instantiate request) (.instantiate request')
  | outputOf {placed placed' : Instance} (matching : placed.Matches g k placed') (port : String) :
      Matches g bound k (.outputOf placed port) (.outputOf placed' port)
  | set (port : String) {value value' : Connection} (matching : value.Matches k value') :
      Matches g bound k (.set port value) (.set port value')
  | setAt (index : Nat) {value value' : Connection} (matching : value.Matches k value') :
      Matches g bound k (.setAt index value) (.setAt index value')

section requests

variable {g : Setting σ} {k : List (ValueId × ValueId)} {held held' : Holdings}

theorem Holdings.Matches.mono (h : held.Matches g k held') {k' : List (ValueId × ValueId)} (hk : k <+: k') :
    held.Matches g k' held' where
  signals := h.signals.imp fun _ _ => Signal.Matches.mono hk
  instances := h.instances.imp fun _ _ hab => hab.mono hk

theorem Holdings.Matches.addSignal (h : held.Matches g k held') {a b : Signal} (hab : a.Matches k b) :
    (held.addSignal a).Matches g k (held'.addSignal b) :=
  { h with signals := List.rel_append h.signals (.cons hab .nil) }

theorem Holdings.Matches.addInstance (h : held.Matches g k held') {a b : Instance} (hab : a.Matches g k b) :
    (held.addInstance a).Matches g k (held'.addInstance b) :=
  { h with instances := List.rel_append h.instances (.cons hab .nil) }

theorem Feed.connection?_matches (h : held.Matches g k held') (feed : Feed) :
    Option.Rel (Connection.Matches k) (feed.connection? held) (feed.connection? held') := by
  cases feed with
  | signal position => exact optionRel_map (optionRel_getElem? h.signals position) fun _ _ => .signal
  | literal value => exact .some (.literal value)
  | absent => exact .some .absent

theorem Feed.bindings?_matches (h : held.Matches g k held') (feeds : List (String × Feed)) :
    Option.Rel (MatchingBindings k) (Feed.bindings? held feeds) (Feed.bindings? held' feeds) :=
  optionRel_mapM (fun supplied => optionRel_map (supplied.2.connection?_matches h) fun _ _ hab => ⟨rfl, hab⟩) feeds

/-- The calls of a plan make requests that are the same, up to what stands for each other. -/
theorem PlanStep.request?_matches {bound : Nat} (h : held.Matches g k held') (step : PlanStep)
    (hcallees : ∀ c ∈ step.callee?, g.planned c ∧ c.index < bound) :
    Option.Rel (Request.Matches g bound k) (step.request? held) (step.request? held') := by
  have hsignal := fun position : Nat => optionRel_getElem? h.signals position
  cases step with
  | input port => exact .some (.input port)
  | inputAt index => exact .some (.inputAt index)
  | clock port => exact .some (.clock port)
  | constant type value => exact .some (.constant type value)
  | add lhs rhs =>
      exact optionRel_bind (hsignal lhs) fun _ _ left => optionRel_map (hsignal rhs) fun _ _ right =>
        .add left right
  | register position => exact optionRel_map (hsignal position) fun _ _ => .register
  | instantiate definition feeds name appId location =>
      obtain ⟨planned, below⟩ := hcallees definition rfl
      exact optionRel_map (Feed.bindings?_matches h feeds) fun _ _ matching =>
        .instantiate ⟨rfl, matching, rfl, rfl, rfl⟩ planned below
  | outputOf placed port =>
      exact optionRel_map (optionRel_getElem? h.instances placed) fun _ _ matching => .outputOf matching port
  | set port value => exact optionRel_map (value.connection?_matches h) fun _ _ => .set port
  | setAt index value => exact optionRel_map (value.connection?_matches h) fun _ _ => .setAt index

end requests

/-! ### Running plans -/

namespace Generation

variable {g : Setting σ} {definition : Definition (Routine σ Unit)} {f₁ f₂ : Frame}
  {make₁ make₂ : Materializer σ} (caller₁ caller₂ : Caller σ) {k : List (ValueId × ValueId)} {r₁ r₂ : Running σ}

/-- Requests that match are granted on both sides or on neither, and what is held goes on to match. -/
theorem answer_lockstep (hsound₁ : make₁.Sound) (hsound₂ : make₂.Sound)
    (hsteady₁ : make₁.Steady g f₁.definition.index) (hsteady₂ : make₂.Steady g f₁.definition.index)
    (hr : Running.Abreast g definition f₁ f₂ k r₁ r₂) {held held' : Holdings} (hheld : held.Matches g k held')
    {request₁ request₂ : Request} (hrequest : request₁.Matches g f₁.definition.index k request₂) :
    Lockstep (Running.Abreast g definition f₁ f₂)
      (fun k a b _ _ => (held.gain request₁ a).Matches g k (held'.gain request₂ b))
      (answer make₁ caller₁ f₁ request₁) (answer make₂ caller₂ f₂ request₂) k r₁ r₂ := by
  -- The prefix of the values that the holdings already match on only grows.
  have hgain : ∀ {α β : Type} {x : Generation σ α} {y : Generation σ β}
      {R R' : List (ValueId × ValueId) → α → β → Prop},
      Lockstep (Running.Abreast g definition f₁ f₂) (fun k a b _ _ => R k a b) x y k r₁ r₂ →
      (∀ k' a b, held.Matches g k' held' → R k' a b → R' k' a b) →
      Lockstep (Running.Abreast g definition f₁ f₂) (fun k a b _ _ => R' k a b) x y k r₁ r₂ :=
    fun h hR => h.mono (fun _ _ _ _ hI => hI) fun k' a b _ _ hk _ => hR k' a b (hheld.mono hk)
  cases hrequest with
  | input port => exact hgain (input_lockstep hr port) fun _ _ _ h hab => h.addSignal hab
  | inputAt index => exact hgain (inputAt_lockstep hr index) fun _ _ _ h hab => h.addSignal hab
  | clock port => exact hgain (clock_lockstep hr port) fun _ _ _ h hab => h.addSignal hab
  | constant type value =>
      exact hgain (lockstep_edit hr (Edit.constant_lockstep hr.world type value)) fun _ _ _ h hab => h.addSignal hab
  | add left right =>
      exact hgain (lockstep_edit hr (Edit.add_lockstep hr.world left right)) fun _ _ _ h hab => h.addSignal hab
  | register matching =>
      exact hgain (lockstep_edit hr (Edit.register_lockstep hr.world matching)) fun _ _ _ h hab => h.addSignal hab
  | instantiate matching planned below =>
      have hplaced := Build.placeInstance_lockstep hsound₁ hsound₂ hsteady₁ hsteady₂ hr.world matching planned below
      exact hgain (lockstep_build hr hplaced) fun _ _ _ h hab => h.addInstance hab
  | outputOf matching port =>
      exact hgain (lockstep_build hr (Build.outputOf_lockstep hr.world matching port)) fun _ _ _ h hab =>
        h.addSignal hab
  | set port matching =>
      exact hgain (R := fun _ _ _ => True) (set_lockstep hr port matching) fun _ _ _ h _ => h
  | setAt index matching =>
      exact hgain (R := fun _ _ _ => True) (setAt_lockstep hr index matching) fun _ _ _ h _ => h

/-- Two runs of a plan end alike, and what they have built is abreast at every moment. -/
theorem run_lockstep (hsound₁ : make₁.Sound) (hsound₂ : make₂.Sound)
    (hsteady₁ : make₁.Steady g f₁.definition.index) (hsteady₂ : make₂.Steady g f₁.definition.index)
    (plan : Plan) (hcallees : ∀ c ∈ plan.callees, g.planned c ∧ c.index < f₁.definition.index)
    {held held' : Holdings} (hheld : held.Matches g k held')
    (hr : Running.Abreast g definition f₁ f₂ k r₁ r₂) :
    Lockstep (Running.Abreast g definition f₁ f₂) (fun _ _ _ _ _ => True)
      (run make₁ caller₁ f₁ (plan.routineFrom held)) (run make₂ caller₂ f₂ (plan.routineFrom held')) k r₁ r₂ := by
  induction plan generalizing k held held' r₁ r₂ with
  | finish => exact lockstep_ofOutcome hr (.ok trivial)
  | fail e => exact lockstep_ofOutcome hr (.error e e)
  | call step next ih =>
      simp only [Plan.callees, List.mem_append, Option.mem_toList] at hcallees
      have hrequest := step.request?_matches hheld fun c hc => hcallees c (Or.inl hc)
      dsimp only [Plan.routineFrom]
      generalize step.request? held = request₁ at hrequest ⊢
      generalize step.request? held' = request₂ at hrequest ⊢
      cases hrequest with
      | none => exact lockstep_ofOutcome hr (.error _ _)
      | some hrequest =>
          have hanswer := answer_lockstep caller₁ caller₂ hsound₁ hsound₂ hsteady₁ hsteady₂ hr hheld hrequest
          refine hanswer.attempt.bind fun k₁ a b s t hk h₁ houtcome => ?_
          cases houtcome with
          | ok hheld₁ => exact ih (fun c hc => hcallees c (Or.inr hc)) hheld₁ h₁
          | error e e' => exact lockstep_ofOutcome h₁ (.error e e')
  | branch step next failed ihnext ihfailed =>
      simp only [Plan.callees, List.mem_append, Option.mem_toList] at hcallees
      have hrequest := step.request?_matches hheld fun c hc => hcallees c (Or.inl (Or.inl hc))
      dsimp only [Plan.routineFrom]
      generalize step.request? held = request₁ at hrequest ⊢
      generalize step.request? held' = request₂ at hrequest ⊢
      cases hrequest with
      | none => exact lockstep_ofOutcome hr (.error _ _)
      | some hrequest =>
          have hanswer := answer_lockstep caller₁ caller₂ hsound₁ hsound₂ hsteady₁ hsteady₂ hr hheld hrequest
          refine hanswer.attempt.bind fun k₁ a b s t hk h₁ houtcome => ?_
          cases houtcome with
          | ok hheld₁ => exact ihnext (fun c hc => hcallees c (Or.inl (Or.inr hc))) hheld₁ h₁
          | error e e' => exact ihfailed (fun c hc => hcallees c (Or.inr hc)) (hheld.mono hk) h₁

end Generation

end Wirework
