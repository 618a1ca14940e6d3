import Wirework.Proofs.Engine.Supplying

/-! # Assigning outputs

An attempt to assign an output is refused, and nothing has happened, or it puts a value into one slot: that of the
signal, or that of a constant which is appended for a number (`Assignment.Behaves`).  Every request of a routine for
an assignment is such an attempt (`Generation.answer_behaves`), and no other request changes what is in the slots
(`Generation.answer_keeps`).

Which outputs a name and a position mean is settled first (`OutputRef.means`), then when a connection can be assigned
(`Assignable`) and what it gives to the output (`Gives`).  A single attempt is then one equation
(`Generation.setAt_apply`), from which its cases are read off. -/

namespace Wirework

open Step

variable {σ α : Type}

/-! ### Attempts -/

/-- An output, as a routine speaks of it. -/
inductive OutputRef where
  | named (port : String)
  | position (index : Nat)
deriving DecidableEq

/-- The output at the position is meant. -/
def OutputRef.means {ρ : Type} (d : Definition ρ) (k : Nat) : OutputRef → Bool
  | .named port => d.outputs[k]?.any (·.name = port)
  | .position index => index = k

theorem OutputRef.means_named_iff {ρ : Type} {d : Definition ρ} {k : Nat} {port : PortSpec}
    (h : d.outputs[k]? = some port) {name : String} : (named name).means d k = true ↔ port.name = name := by
  simp only [means, h, Option.any_some, decide_eq_true_eq]

theorem OutputRef.means_position_iff {ρ : Type} {d : Definition ρ} {k index : Nat} :
    (position index).means d k = true ↔ k = index :=
  decide_eq_true_iff.trans eq_comm

/-- The output that a request assigns, if it is an assignment, and what it assigns to it. -/
def Request.assignment? : Request → Option (OutputRef × Connection)
  | .set port value => some (.named port, value)
  | .setAt index value => some (.position index, value)
  | _ => none

/-- One attempt to assign an output, where it starts and how it ends. -/
structure Assignment (σ : Type) where
  target : OutputRef
  value : Connection
  before : Running σ
  outcome : Except BuildError Unit
  after : Running σ

/-- The attempt has assigned the output at the position. -/
def Assignment.assigns {ρ : Type} (d : Definition ρ) (k : Nat) (a : Assignment σ) : Bool :=
  a.outcome.isOk && a.target.means d k

namespace Connection

/-- The connection can be assigned to the output. -/
structure Assignable (port : PortSpec) (value : Connection) : Prop where
  present : value ≠ .absent
  accepted : value.Accepted port

/-- What an output is given by a connection: the signal, or for a number the result of a constant that the body of
the module gains. -/
inductive Gives (id : ModuleId) (port : PortSpec) (d d' : Design) : Connection → Signal → Prop
  | signal {s : Signal} (typed : s.type = port.type) (same : d' = d) : Gives id port d d' (.signal s) s
  | literal {value : Int} {s : Signal} {o : OpId} (typed : s.type = port.type) (gains : d.BodyGains d' id [o])
      (holds : d'.Holds o port.type value s.value) : Gives id port d d' (.literal value) s

theorem Accepted.check_eq {port : PortSpec} {value : Connection} (h : value.Accepted port) (module : String) :
    value.check module port = .ok ⟨⟩ := by
  cases value with
  | signal s => exact if_pos h.type_eq
  | literal value => exact if_pos h.fits
  | absent => rfl

end Connection

/-! ### A single attempt -/

/-- What comes of an attempt to assign an output of the module that is made for the definition. -/
inductive Assignment.Behaves {ρ : Type} (definition : Definition ρ) (frame : Frame) (policy : ReassignPolicy)
    (a : Assignment σ) : Prop
  /-- There is no such output, or it cannot be given the value. -/
  | unsuited {e : BuildError} (outcome : a.outcome = .error e) (same : a.after = a.before)
      (unsuited : ∀ k port, a.target.means definition k = true → definition.outputs[k]? = some port →
        ¬ a.value.Assignable port)
  /-- The output has been assigned before. -/
  | denied {found : Definition (Routine σ Unit)} {k : Nat} {port : PortSpec}
      (defined : a.before.world.workspace.library.getDefinition frame.definition = .ok found)
      (outcome : a.outcome = .error (.outputReassigned found.name port.name)) (same : a.after = a.before)
      (policy : policy = .deny) (target : a.target.means definition k = true)
      (found : definition.outputs[k]? = some port) (filled : ∃ s, a.before.outputs[k]? = some (some s))
  | assigned {k : Nat} {port : PortSpec} {s : Signal} (outcome : a.outcome = .ok ⟨⟩)
      (target : a.target.means definition k = true) (found : definition.outputs[k]? = some port)
      (assignable : a.value.Assignable port) (free : policy = .deny → a.before.outputs[k]? = some none)
      (gives : a.value.Gives frame.module port a.before.world.session.design a.after.world.session.design s)
      (outputs : a.after.outputs = a.before.outputs.set k (some s))

/-- A routine is running that fills the body of a module of the definition. -/
structure Running.Fills (frame : Frame) (definition : Definition (Routine σ Unit)) (policy : ReassignPolicy)
    (r : Running σ) : Prop where
  coherent : r.world.session.Coherent
  here : r.world.session.here? = some frame.module
  policy_eq : r.world.session.config.reassign = policy
  defined : ∃ found, r.world.workspace.library.getDefinition frame.definition = .ok found ∧
    definition.Alike found
  length_eq : r.outputs.length = definition.outputs.length

theorem Running.Fills.works {frame : Frame} {definition : Definition (Routine σ Unit)} {policy : ReassignPolicy}
    {r r' : Running σ} (h : r.Fills frame definition policy) (hworks : r.Works r')
    (hlength : r'.outputs.length = r.outputs.length) : r'.Fills frame definition policy := by
  have hkeeps := (hworks.session _ (refl_of Library.Extends _)).keeps
  obtain ⟨found, hfound, halike⟩ := h.defined
  obtain ⟨found', hfound', halike'⟩ := hworks.library _ _ hfound
  exact ⟨World.Works.coherent hworks h.coherent, hkeeps.here?_eq.trans h.here,
    (congrArg Config.reassign hkeeps.config_eq).trans h.policy_eq, ⟨found', hfound', halike.trans halike'⟩,
    hlength.trans h.length_eq⟩

theorem Assignment.Behaves.length_eq {ρ : Type} {definition : Definition ρ} {frame : Frame}
    {policy : ReassignPolicy} {a : Assignment σ} (h : a.Behaves definition frame policy) :
    a.after.outputs.length = a.before.outputs.length := by
  cases h with
  | unsuited outcome same | denied defined outcome same => rw [same]
  | assigned outcome target found assignable free gives outputs => rw [outputs, List.length_set]

/-- The slots of the outputs are as they were. -/
def Running.KeepsOutputs (r r' : Running σ) : Prop :=
  r'.outputs = r.outputs

instance : IsPreorder (Running σ) Running.KeepsOutputs where
  refl _ := rfl
  trans _ _ _ h h' := h'.trans h

namespace Generation

section assign

variable {frame : Frame} {definition found : Definition (Routine σ Unit)} {policy : ReassignPolicy} {r : Running σ}

theorem apply_ownDefinition (frame : Frame) (r : Running σ) :
    (ownDefinition frame).apply r = (r.world.workspace.library.getDefinition frame.definition, r) := by
  unfold ownDefinition build
  rw [apply_zoom, Build.apply_definition]

/-- A connection that can be assigned gives the output a signal. -/
theorem outputSignal_gives {s : Session} (hs : s.Coherent) (here : s.here? = some frame.module)
    {port : PortSpec} {value : Connection} (assignable : value.Assignable port) :
    ∃ signal d', (outputSignal port value).apply s.design = (.ok (some signal), d') ∧
      value.Gives frame.module port s.design d' signal := by
  cases value with
  | signal signal => exact ⟨signal, s.design, rfl, .signal assignable.accepted.type_eq rfl⟩
  | absent => exact absurd rfl assignable.present
  | literal value =>
      have hbuilding := hs.building here
      have hnone : s.design.BodyGains s.design frame.module [] :=
        Session.LeavesBody.gains_nil (fun m hm => ⟨hm, fun _ _ _ _ => rfl⟩) hs hbuilding
      obtain ⟨signal, d', happly, happ, htype, hholds, -⟩ :=
        Edit.insertConstant_holds hbuilding ⟨value, port.type, assignable.accepted.fits⟩
      refine ⟨signal, d', ?_, .literal htype (hnone.appends happ rfl) hholds⟩
      have hconstant : Constant.ofInt? port.type value = some ⟨value, port.type, assignable.accepted.fits⟩ :=
        Constant.ofInt?_eq_some_iff.mpr ⟨rfl, rfl⟩
      unfold outputSignal Edit.constant
      simp only [hconstant, apply_bind, happly, apply_pure]

/-- What assigning an output comes down to, once there is a port at the position and a slot for it. -/
theorem setAt_apply {port : PortSpec} {present : Option Signal} {index : Nat}
    (hfound : r.world.workspace.library.getDefinition frame.definition = .ok found)
    (hport : found.outputs[index]? = some port) (hpresent : r.outputs[index]? = some present)
    {value : Connection} (assignable : value.Assignable port) :
    (setAt frame index value).apply r =
      if present.isSome ∧ r.world.session.config.reassign = .deny then
        (.error (.outputReassigned found.name port.name), r)
      else (do
        let signal ← edit (outputSignal port value)
        if present.isSome ∧ r.world.session.config.reassign = .warn then
          build (Build.compile (Compile.warn (.outputReassigned port.name found.name)))
        modify fun r => { r with outputs := r.outputs.set index signal } : Generation σ Unit).apply r := by
  unfold setAt
  simp only [apply_bind, apply_ownDefinition, hfound, hport, if_neg assignable.present, apply_ofOutcome,
    assignable.accepted.check_eq found.name, apply_get, hpresent]
  by_cases hdenied : present.isSome ∧ r.world.session.config.reassign = .deny
  · simp only [if_pos hdenied, apply_bind, apply_throw]
  · simp only [if_neg hdenied, apply_bind]

/-- A position without a port, or a connection that cannot be assigned to it, is refused. -/
theorem setAt_unsuited {index : Nat} {value : Connection}
    (hfound : r.world.workspace.library.getDefinition frame.definition = .ok found)
    (unsuited : ∀ port, found.outputs[index]? = some port → ¬ value.Assignable port) :
    ∃ e, (setAt frame index value).apply r = (.error e, r) := by
  unfold setAt
  simp only [apply_bind, apply_ownDefinition, hfound]
  cases hport : found.outputs[index]? with
  | none => exact ⟨_, rfl⟩
  | some port =>
      by_cases habsent : value = .absent
      · simp only [if_pos habsent, apply_bind, apply_throw]
        exact ⟨_, rfl⟩
      · simp only [if_neg habsent, apply_bind, apply_ofOutcome]
        cases hcheck : value.check found.name port with
        | error e => exact ⟨e, rfl⟩
        | ok _ => exact absurd ⟨habsent, found.name, hcheck⟩ (unsuited port hport)

/-- A connection that can be assigned to a slot is assigned to it. -/
theorem setAt_assigned (h : r.Fills frame definition policy) {port : PortSpec} {present : Option Signal}
    {index : Nat} (hport : definition.outputs[index]? = some port) (hpresent : r.outputs[index]? = some present)
    {value : Connection} (assignable : value.Assignable port)
    (free : ¬ (present.isSome ∧ r.world.session.config.reassign = .deny)) :
    ∃ s r', (setAt frame index value).apply r = (.ok ⟨⟩, r') ∧
      value.Gives frame.module port r.world.session.design r'.world.session.design s ∧
      r'.outputs = r.outputs.set index (some s) := by
  obtain ⟨_, hfound, halike⟩ := h.defined
  obtain ⟨parameters, rfl⟩ := halike.exists_parameters
  obtain ⟨s, d', hsignal, hgives⟩ := outputSignal_gives h.coherent h.here assignable
  have hedit : (edit (outputSignal port value)).apply r =
      (.ok (some s), { r with world.session.design := d' }) := by
    unfold edit build
    rw [apply_zoom, Build.edit_apply_ok hsignal]
  rw [setAt_apply hfound hport hpresent assignable, if_neg free]
  simp only [apply_bind, hedit]
  by_cases hwarn : present.isSome ∧ r.world.session.config.reassign = .warn
  · simp only [if_pos hwarn, apply_bind, build, Build.compile, Compile.warn, apply_zoom, apply_modify]
    exact ⟨s, _, rfl, hgives, rfl⟩
  · simp only [if_neg hwarn, apply_modify]
    exact ⟨s, _, rfl, hgives, rfl⟩

theorem setAt_behaves (h : r.Fills frame definition policy) (target : OutputRef) {index : Nat}
    (targets : ∀ k port, definition.outputs[k]? = some port → (target.means definition k = true ↔ k = index))
    (value : Connection) :
    Assignment.Behaves definition frame policy
      ⟨target, value, r, ((setAt frame index value).apply r).1, ((setAt frame index value).apply r).2⟩ := by
  obtain ⟨found, hfound, halike⟩ := h.defined
  have houtputs : found.outputs = definition.outputs := by
    obtain ⟨parameters, rfl⟩ := halike.exists_parameters
    rfl
  by_cases hsuited : ∃ port, definition.outputs[index]? = some port ∧ value.Assignable port
  case neg =>
    have hunsuited : ∀ port, definition.outputs[index]? = some port → ¬ value.Assignable port :=
      fun port hport hassignable => hsuited ⟨port, hport, hassignable⟩
    obtain ⟨e, he⟩ := setAt_unsuited (r := r) hfound (houtputs ▸ hunsuited)
    rw [he]
    refine .unsuited rfl rfl fun k port hmeans hport => ?_
    obtain rfl := (targets k port hport).mp hmeans
    exact hunsuited port hport
  obtain ⟨port, hport, assignable⟩ := hsuited
  have hmeans := (targets index port hport).mpr rfl
  obtain ⟨present, hpresent⟩ : ∃ present, r.outputs[index]? = some present := by
    have hlt := (List.getElem?_eq_some_iff.mp hport).1
    exact ⟨_, List.getElem?_eq_getElem (h.length_eq ▸ hlt)⟩
  by_cases hdenied : present.isSome ∧ r.world.session.config.reassign = .deny
  · rw [setAt_apply hfound (houtputs ▸ hport) hpresent assignable, if_pos hdenied]
    obtain ⟨s, rfl⟩ := Option.isSome_iff_exists.mp hdenied.1
    exact .denied hfound rfl rfl (h.policy_eq.symm.trans hdenied.2) hmeans hport ⟨s, hpresent⟩
  · obtain ⟨s, r', happly, hgives, hset⟩ := setAt_assigned h hport hpresent assignable hdenied
    rw [happly]
    refine .assigned rfl hmeans hport assignable (fun hpolicy => ?_) hgives hset
    cases present with
    | none => exact hpresent
    | some s => exact absurd ⟨rfl, h.policy_eq.trans hpolicy⟩ hdenied

theorem set_behaves (h : r.Fills frame definition policy) (hscanned : definition.Scanned) (name : String)
    (value : Connection) :
    Assignment.Behaves definition frame policy
      ⟨.named name, value, r, ((set frame name value).apply r).1, ((set frame name value).apply r).2⟩ := by
  obtain ⟨members, hreads⟩ := hscanned.interface
  obtain ⟨found, hfound, halike⟩ := h.defined
  have htable : found.table = definition.table := by
    obtain ⟨parameters, rfl⟩ := halike.exists_parameters
    rfl
  have hmeans : ∀ k port, definition.outputs[k]? = some port →
      ((OutputRef.named name).means definition k = true ↔ definition.table.outputIndex? name = some k) := by
    intro k port hport
    rw [hscanned.table, hreads.outputIndex?_eq_some_iff, OutputRef.means_named_iff hport]
    refine ⟨fun hname => ⟨port, hport, hname⟩, fun ⟨port', hport', hname⟩ => ?_⟩
    obtain rfl := Option.some.inj (hport.symm.trans hport')
    exact hname
  unfold set
  simp only [apply_bind, apply_ownDefinition, hfound, htable]
  cases hindex : definition.table.outputIndex? name with
  | none =>
      refine .unsuited rfl rfl fun k port htarget hport => ?_
      cases hindex.symm.trans ((hmeans k port hport).mp htarget)
  | some index =>
      refine setAt_behaves h _ (fun k port hport => ?_) value
      rw [hmeans k port hport, hindex, Option.some.injEq]
      exact eq_comm

end assign

/-! ### Other requests -/

section requests

variable {frame : Frame} {definition : Definition (Routine σ Unit)} {policy : ReassignPolicy} {r : Running σ}

theorem build_keeps (step : Build σ α) (r : Running σ) :
    (build step).Leads Running.KeepsOutputs (fun _ _ => True) r :=
  ⟨rfl, fun _ _ => trivial⟩

theorem edit_keeps (step : Edit α) (r : Running σ) :
    (edit step).Leads Running.KeepsOutputs (fun _ _ => True) r :=
  build_keeps (Build.edit step) r

/-- Only assignments change what is in the slots. -/
theorem answer_keeps (materialize : Materializer σ) (caller : Caller σ) (frame : Frame) {request : Request}
    (other : request.assignment? = none) (r : Running σ) :
    (answer materialize caller frame request).Leads Running.KeepsOutputs (fun _ _ => True) r := by
  cases request with
  | set | setAt => cases other
  | input port => exact input_leads frame port r
  | inputAt index => exact inputAt_leads frame index r
  | clock port => exact clock_leads frame port r
  | cacheSize cache => exact (leads_get r).bind fun read r₁ _ _ => pure_leads _ r₁
  | inspect => exact inspect_leads materialize caller frame r
  | constant | add | register => exact edit_keeps _ r
  | instantiate | outputOf | outputsOf | call | nameOf => exact build_keeps _ r

theorem answer_behaves (materialize : Materializer σ) (caller : Caller σ) (h : r.Fills frame definition policy)
    (hscanned : definition.Scanned) {request : Request} {target : OutputRef} {value : Connection}
    (assigns : request.assignment? = some (target, value)) :
    Assignment.Behaves definition frame policy ⟨target, value, r,
      ((answer materialize caller frame request).apply r).1.map fun _ => ⟨⟩,
      ((answer materialize caller frame request).apply r).2⟩ := by
  have hmap : ∀ outcome : Except BuildError Unit, (outcome.map fun _ => ⟨⟩) = outcome := by
    rintro (_ | _) <;> rfl
  cases request with
  | set name value =>
      obtain ⟨rfl, rfl⟩ := Prod.mk.inj (Option.some.inj assigns)
      have hset := set_behaves h hscanned name value
      rw [← hmap ((set frame name value).apply r).1] at hset
      exact hset
  | setAt index value =>
      obtain ⟨rfl, rfl⟩ := Prod.mk.inj (Option.some.inj assigns)
      have hset := setAt_behaves h (.position index) (fun _ _ _ => OutputRef.means_position_iff) value
      rw [← hmap ((setAt frame index value).apply r).1] at hset
      exact hset
  | _ => cases assigns

theorem answer_fills {materialize : Materializer σ} {caller : Caller σ} (hm : materialize.Sound) (hc : caller.Sound)
    (hscanned : definition.Scanned) (request : Request) (h : r.Fills frame definition policy) :
    ((answer materialize caller frame request).apply r).2.Fills frame definition policy := by
  have hworks := (answer_leads hm hc frame request h.coherent).state
  cases hassigns : request.assignment? with
  | none => exact h.works hworks (congrArg List.length (answer_keeps materialize caller frame hassigns r).state)
  | some assigned => exact h.works hworks (answer_behaves materialize caller h hscanned hassigns).length_eq

end requests

end Generation

end Wirework
