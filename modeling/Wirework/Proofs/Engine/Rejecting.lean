import Wirework.Proofs.Engine.Emitting
import Wirework.Proofs.Engine.Guarantees
import Wirework.Proofs.Engine.Wiring

/-! # Rejected instances

An instance is rejected in one of three stages: its connections are not accepted, its module cannot be made, or it is
refused while it is put into the body (`Build.placeInstance_cases`).

In the first two stages the body has been left alone; making a module spares all others, whether it succeeds or fails
(`World.Makes.spares`).  In the third, constants have been appended already if an operand belongs to another body, and
the instance as well if it is appended and fails its check (`Residue`).  Which of the two it is can be told from the
request: whether all signals belong to the body (`Within`), and whether they are what they are said to be
(`Conforms`).  In no stage is there a record of the instance (`rejected_instance_leaves`).

The sample has a routine that borrows the constant of another module, and asks for an instance under a name that is
not valid. -/

namespace Wirework

open Step

variable {σ : Type}

/-! ### Operations that are added -/

namespace Design

/-- The operation is a constant. -/
def IsConstant (d : Design) (o : OpId) : Prop :=
  ∃ op c, d.op? o = some op ∧ op.operation = .constant c

/-- The operation is an instance of the module. -/
def IsInstance (d : Design) (o : OpId) (module : ModuleId) : Prop :=
  ∃ op name inputs parameters, d.op? o = some op ∧
    op.operation = .instantiate module name inputs parameters

/-- The body of the module has the operations it had, as they were, and after them those listed. -/
def BodyGains (d d' : Design) (id : ModuleId) (added : List OpId) : Prop :=
  ∃ m body, d.module? id = some m ∧ m.body? = some body ∧
    d'.module? id = some { m with kind := .generated (some { body with
      ops := body.ops ++ added.toArray }) } ∧
    ∀ o ∈ body.ops, ∃ op, d.op? o = some op ∧ d'.op? o = some op

variable {d d₁ d₂ : Design} {id : ModuleId} {added : List OpId}

/-- An operation that does not end the body is gained at its end. -/
theorem BodyGains.appends (h : d.BodyGains d₁ id added) {operation : Operation ModuleId ValueId}
    (happ : d₁.Appends id operation d₂) (hgoes : operation.isTerminator = false) :
    d.BodyGains d₂ id (added ++ [d₁.nextOp]) := by
  obtain ⟨m, body, hm, hbody, hm₁, hops⟩ := h
  obtain ⟨m', body', hm', hbody', hunfinished, hm₂⟩ := happ.module?_self
  obtain rfl := Option.some.inj (hm₁.symm.trans hm')
  obtain rfl : _ = body' := Option.some.inj hbody'
  have hextended : Body.extend { body with ops := body.ops ++ added.toArray } d₁.nextOp operation =
      { body with ops := body.ops ++ (added ++ [d₁.nextOp]).toArray } := by
    have hterminated : body.terminated = false := hunfinished
    unfold Body.extend
    rw [hgoes, ← hterminated]
    simp
  refine ⟨m, body, hm, hbody, ?_, fun o ho => ?_⟩
  · rw [hm₂, ← hextended]
    rfl
  · obtain ⟨op, hop, hop₁⟩ := hops o ho
    exact ⟨op, hop, happ.op?_old hop₁⟩

theorem IsConstant.appends {o : OpId} (h : d.IsConstant o)
    {operation : Operation ModuleId ValueId} (happ : d.Appends id operation d₁) :
    d₁.IsConstant o := by
  obtain ⟨op, c, hop, hc⟩ := h
  exact ⟨op, c, happ.op?_old hop, hc⟩

theorem AddsConstants.gains (hadds : AddsConstants id d₁ d₂) (h : d.BodyGains d₁ id []) :
    ∃ constants, d.BodyGains d₂ id constants ∧ ∀ o ∈ constants, d₂.IsConstant o := by
  induction hadds with
  | refl => exact ⟨[], h, fun o ho => absurd ho List.not_mem_nil⟩
  | @tail d₂ d₃ _ hstep ih =>
      obtain ⟨c, happ⟩ := hstep
      obtain ⟨constants, hgains, hconstants⟩ := ih
      obtain ⟨op, hop, _, hoperation⟩ := happ.op?_new
      refine ⟨constants ++ [d₂.nextOp], hgains.appends happ rfl, ?_⟩
      refine List.forall_mem_append.mpr ⟨fun o ho => (hconstants o ho).appends happ, ?_⟩
      exact List.forall_mem_singleton.mpr ⟨op, c, hop, hoperation⟩

end Design

/-! ### What a request has to do with the design -/

/-- The body of the module is as it was, with the operations in it. -/
def Session.LeavesBody (s s' : Session) (id : ModuleId) : Prop :=
  ∀ m, s.design.module? id = some m → s.BodyKept s' id m

theorem Session.LeavesBody.gains_nil {s s' : Session} {id : ModuleId} (h : s.LeavesBody s' id)
    (hs : s.Coherent) (hbuilding : s.design.Building id) :
    s.design.BodyGains s'.design id [] := by
  obtain ⟨m, body, hm, hbody, _⟩ := hbuilding.unfinished
  obtain ⟨hm', hops⟩ := h m hm
  refine ⟨m, body, hm, hbody, ?_, fun o ho => ?_⟩
  · have hkind := HwModule.body?_eq_some_iff.mp hbody
    rw [Array.append_empty, ← hkind]
    exact hm'
  · obtain ⟨op, hop, _⟩ := hs.owned.inside id m body hm hbody o ho
    exact ⟨op, hop, (hops body hbody o ho).trans hop⟩

namespace InstanceRequest

/-- All signals that are bound belong to the body of the module. -/
def Within (request : InstanceRequest) (d : Design) (id : ModuleId) : Prop :=
  ∀ port signal, (port, .signal signal) ∈ request.bindings → d.owner? signal.value = some id

/-- What the check of the instance relies on, beyond what has been found out about the connections. -/
structure Conforms {ρ : Type} (request : InstanceRequest) (definition : Definition ρ) (d : Design) :
    Prop where
  named : Name.isValid (request.name.getD definition.instanceName) = true
  typed : ∀ port signal, (port, .signal signal) ∈ request.bindings →
    d.typeOf? signal.value = some signal.type
  /-- The module made for the definition has no inputs that the definition does not have. -/
  inputs : definition.moduleInputs = definition.inputPorts

end InstanceRequest

section inputs

variable {ρ : Type} {definition : Definition ρ} {request : InstanceRequest}
  {connections : List (PortSpec × Connection)} {d d' : Design} {id : ModuleId}
  {inputs : List ValueId}

theorem inputs_owned (hbind : definition.bindInputs request.bindings = .ok connections)
    (hinputs : List.Forall₂ (fun entry v => entry.2.Supplies d' id entry.1 v) connections inputs)
    (hretains : d.Retains d') (within : request.Within d id) :
    ∀ v ∈ inputs, d'.owner? v = some id := by
  intro v hv
  obtain ⟨⟨port, connection⟩, hentry, hv⟩ := exists_of_mem_right hinputs hv
  obtain ⟨_, _, hconnections⟩ := Definition.bindInputs_eq_ok hbind
  obtain ⟨_, _, _, hbound⟩ := exists_of_mem_right hconnections hentry
  cases connection with
  | signal s => exact hv ▸ hretains.owner?_eq (within _ s hbound)
  | literal | absent => exact hv.2

/-- The inputs of an instance have the types of the ports if the signals among them have the types they are said
to have. -/
theorem inputs_typed (hscanned : definition.Scanned)
    (hbind : definition.bindInputs request.bindings = .ok connections)
    (hinputs : List.Forall₂ (fun entry v => entry.2.Supplies d' id entry.1 v) connections inputs)
    (hretains : d.Retains d')
    (typed : ∀ port signal, (port, .signal signal) ∈ request.bindings →
      d.typeOf? signal.value = some signal.type) :
    List.Forall₂ (fun port v => d'.typeOf? v = some port.type) definition.inputPorts inputs := by
  obtain ⟨_, _, hconnections⟩ := Definition.bindInputs_eq_ok hbind
  have haccepted := (List.forall₂_and_left _ _).mpr
    ⟨fun entry hentry => Definition.accepted_of_bindInputs hscanned hbind hentry, hinputs⟩
  unfold Definition.inputPorts
  rw [List.forall₂_map_left_iff]
  refine forall₂_comp ?_ hconnections haccepted
  rintro port ⟨_, connection⟩ v ⟨rfl, hbound⟩ ⟨haccepted, hv⟩
  cases connection with
  | signal s =>
      obtain rfl : v = s.value := hv
      exact haccepted.type_eq ▸ hretains.typeOf?_eq (typed _ s hbound)
  | literal | absent => exact hv.1

end inputs

/-! ### What making a module leaves alone -/

theorem World.Makes.spares {d : DefId} {outcome : Except BuildError ModuleId} {w w' : World σ}
    (h : World.Makes d outcome w w') (hw : w.session.Coherent) {id : ModuleId}
    (hlive : w.session.design.IsLive id) :
    w.session.LeavesBody w'.session id ∧
      w'.session.instancesIn id = w.session.instancesIn id ∧
      w'.session.here? = w.session.here? := by
  obtain ⟨_, _, hdoes⟩ := h.does
  obtain ⟨m, hm⟩ := hlive
  refine ⟨fun m hm => hdoes.keeps.body_kept hw hm (Option.some_ne_none _), ?_, hdoes.keeps.here?_eq⟩
  exact hdoes.instancesIn_eq (Design.lt_size_of_module? hm) (by simp [Session.Task.own?])

/-! ### Stages of a rejection -/

/-- What a rejected instance has left in the body of the module. -/
inductive Residue (request : InstanceRequest) {ρ : Type} (definition : Definition ρ) (id : ModuleId)
    (s s' : Session) : Prop
  | nothing (leaves : s.LeavesBody s' id)
  /-- A signal of another body has been found out after constants had been appended. -/
  | constants {constants : List OpId} (foreign : ¬ request.Within s.design id)
      (supplied : ∃ binding ∈ request.bindings, ∀ signal, binding.2 ≠ .signal signal)
      (gains : s.design.BodyGains s'.design id constants)
      (constant : ∀ o ∈ constants, s'.design.IsConstant o)
  /-- The instance has failed its check after it had been appended. -/
  | appended {constants : List OpId} {o : OpId} {module : ModuleId}
      (unfit : ¬ request.Conforms definition s.design)
      (gains : s.design.BodyGains s'.design id (constants ++ [o]))
      (constant : ∀ o ∈ constants, s'.design.IsConstant o)
      (made : s'.moduleOf? request.definition = some module)
      (placed : s'.design.IsInstance o module)

/-- The world `w'` after an instance of the definition, requested in the body of the module, has been rejected in
the world `w`. -/
structure World.Rejects (request : InstanceRequest) (definition : Definition (Routine σ Unit))
    (id : ModuleId) (w w' : World σ) : Prop where
  /-- No instance has been recorded. -/
  records : w'.session.instancesIn id = w.session.instancesIn id
  /-- If the connections are not accepted, nothing has happened. -/
  unchecked : ∀ e, definition.bindInputs request.bindings = .error e → w' = w
  /-- If there is no module of the definition, the body is as it was. -/
  unmade : w'.session.moduleOf? request.definition = none →
    w.session.LeavesBody w'.session id
  /-- In any case the body is as it was but for constants and an instance that fails its check. -/
  residue : Residue request definition id w.session w'.session

namespace Build

/-! ### The rejection of an instance -/

section rejected

variable {materialize : Materializer σ} {request : InstanceRequest} {w w₁ w' : World σ}
  {definition : Definition (Routine σ Unit)} {id : ModuleId} {e : BuildError}

/-- What an instance leaves in the body if it is refused while it is put there. -/
theorem residue_of_emit {definition₁ : Definition (Routine σ Unit)}
    {connections : List (PortSpec × Connection)} {module : ModuleId} {name : String}
    {callee : HwModule}
    (h : (emitInstance request connections module name).apply w₁ = (.error e, w'))
    (hw : w.session.Coherent) (hbuilding : w.session.design.Building id)
    (hbuilding₁ : w₁.session.design.Building id) (hleaves : w.session.LeavesBody w₁.session id)
    (hretains : w.session.design.Retains w₁.session.design) (hscanned : definition.Scanned)
    (hbind : definition.bindInputs request.bindings = .ok connections)
    (hd : w₁.workspace.library.getDefinition request.definition = .ok definition₁)
    (hmade : w₁.session.moduleOf? request.definition = some module)
    (hcallee : w₁.session.design.module? module = some callee) (hsuits : definition.Suits callee)
    (hname : Name.isValid (request.name.getD definition.instanceName) = true →
      Name.isValid name = true) :
    (∃ d', w' = { w₁ with session := { w₁.session with design := d' } }) ∧
      Residue request definition id w.session w'.session := by
  have haccepted : ∀ entry ∈ connections, entry.2.Accepted entry.1 :=
    fun entry hentry => Definition.accepted_of_bindInputs hscanned hbind hentry
  obtain ⟨inputs, d₁, d', hadds, hinputs, hsame, hlate, rfl⟩ :=
    emit_refused hbuilding₁ hd hcallee haccepted h
  refine ⟨⟨d', rfl⟩, ?_⟩
  obtain ⟨constants, hgains, hconstants⟩ := hadds.gains (hleaves.gains_nil hw hbuilding)
  have hretains₁ := trans_of Design.Retains hretains hadds.retains
  cases hlate with
  | foreign hforeign =>
      by_cases hsignals : ∀ entry ∈ connections, ∃ s, entry.2 = .signal s
      · rw [hsame hsignals]
        exact .nothing hleaves
      · push Not at hsignals
        obtain ⟨entry, hentry, hsupplied⟩ := hsignals
        obtain ⟨_, _, hconnections⟩ := Definition.bindInputs_eq_ok hbind
        obtain ⟨port, _, _, hbound⟩ := exists_of_mem_right hconnections hentry
        exact .constants (fun within => hforeign (inputs_owned hbind hinputs hretains₁ within))
          ⟨_, hbound, hsupplied⟩ hgains hconstants
  | @unfit parameters _ howned happ hunfit =>
      obtain ⟨op, hop, _, hoperation⟩ := happ.op?_new
      refine .appended (fun conforms => hunfit ?_) (hgains.appends happ rfl)
        (fun o ho => (hconstants o ho).appends happ) hmade ⟨op, _, _, _, hop, hoperation⟩
      -- A request that conforms would have passed the check.
      obtain ⟨callee', hcallee', hheader⟩ := Design.exists_module?_of_header?
        ((happ.header?_eq module).trans (hadds.header?_eq module)) hcallee
      have hports : callee'.inputs = definition.inputPorts :=
        (congrArg HwModule.inputs hheader).trans (hsuits.inputs.trans conforms.inputs)
      refine ⟨hname conforms.named, callee', hcallee', hports ▸ ?_⟩
      exact inputs_typed hscanned hbind (hinputs.imp fun _ _ hv => hv.retained happ.retains)
        (trans_of Design.Retains hretains₁ happ.retains) conforms.typed

theorem placeInstance_rejects (hm : materialize.Sound) (hw : w.session.Coherent)
    (hsuited : w.session.Suited w.workspace.library.catalog) (here : w.session.here? = some id)
    (hscanned : definition.Scanned)
    (hd : w.workspace.library.getDefinition request.definition = .ok definition)
    (h : (placeInstance materialize request).apply w = (.error e, w')) :
    w.Rejects request definition id w' := by
  have hbuilding := hw.building here
  obtain ⟨m, body, hlive, _, _⟩ := hbuilding.unfinished
  have hmakes := hm request.definition w hw
  obtain ⟨hleaves, hrecords, here₁⟩ := hmakes.spares hw ⟨m, hlive⟩
  rcases placeInstance_cases hm hw hd h with
    ⟨-, rfl⟩ | ⟨connections, hbind, ⟨_, hfailed, -⟩ | ⟨module, w₁, block, _, name, _, hmade, -, hname, hemit⟩⟩
  · have hself : w'.session.LeavesBody w'.session id := fun m hm => ⟨hm, fun _ _ _ _ => rfl⟩
    exact ⟨rfl, fun _ _ => rfl, fun _ => hself, .nothing hself⟩
  · rw [hfailed] at hleaves hrecords
    exact ⟨hrecords, fun _ hrefused => (by cases hbind.symm.trans hrefused), fun _ => hleaves,
      .nothing hleaves⟩
  · obtain rfl : (block.uniquify _).1 = name := congrArg Prod.fst hname
    have hworks := hmakes.works
    have hfound := (materialize_leads hm request.definition hw).result module
      (congrArg Prod.fst hmade)
    rw [hmade] at hleaves hrecords here₁ hworks hfound
    have hw₁ := hworks.coherent hw
    obtain ⟨callee, hcallee⟩ := hw₁.isLive_of_made hfound.made
    obtain ⟨definition₁, hd₁, _⟩ := hworks.library _ _ hd
    have hsuits := suits_of_madeFor hworks (hworks.suited hw hsuited) hd hfound hcallee
    have hretains := (hworks.session _ (refl_of Library.Extends _)).retains
    obtain ⟨⟨d', rfl⟩, hresidue⟩ := residue_of_emit hemit hw hbuilding
      (hw₁.building (here₁.trans here)) hleaves hretains hscanned hbind hd₁ hfound.1 hcallee
      hsuits block.uniquify_valid
    refine ⟨hrecords, fun _ hrefused => (by cases hbind.symm.trans hrefused), fun hnone => ?_,
      hresidue⟩
    cases hfound.1.symm.trans hnone

end rejected

end Build

/-- **Rejected instances leave no record, and little else.**  Whatever routine is running and however an instance
that it has requested is rejected, no instance has been recorded in its module, and the body is as it was: always if
the connections are not accepted or the module cannot be made, and else unless a bound signal belongs to another
body or the instance fails its check, for its name, the type of a signal or inputs that the definition does not
have.  What is left then is constants, and after them the instance that has failed its check. -/
theorem rejected_instance_leaves {config : Config} {w : World σ} (h : Moment config w) {frame : Frame}
    (runs : w.session.Runs frame) {request : InstanceRequest} {step : Build σ Instance}
    (placing : Build.Placing request step) {spec : DefinitionSpec (Routine σ Unit)}
    {original definition : Definition (Routine σ Unit)} (made : Definition.ofSpec spec = .ok original)
    (alike : original.Alike definition)
    (hd : w.workspace.library.getDefinition request.definition = .ok definition) {e : BuildError}
    (failed : (step.apply w).1 = .error e) :
    w.Rejects request definition frame.module (step.apply w).2 := by
  obtain ⟨materialize, hm, rfl⟩ := placing.exists_materializer
  have hscanned := alike.scanned (Definition.ofSpec_eq_ok made).1
  exact Build.placeInstance_rejects hm h.coherent h.suited runs.2 hscanned hd (Prod.ext failed rfl)

/-! ### A borrowed signal -/

namespace Sample

/-- A module implemented elsewhere. -/
def gateSpec : DefinitionSpec (Routine Unit Unit) where
  name := "Gate"
  declarations := [
    ("a", .plainInput (.uint 8)),
    ("b", .plainInput (.uint 8)),
    ("y", .output (.uint 8))]

/-- A module with a constant, whose signal may get out of it. -/
def sourceSpec : DefinitionSpec (Routine Unit Unit) where
  name := "Source"
  declarations := [
    ("y", .output (.uint 8)),
    ("build", .generator (do
      Routine.set "y" (.signal (← Routine.constant (.uint 8) 7))) .unknown)]

/-- The request for a gate with a number and the constant of the other module. -/
def borrowed : InstanceRequest :=
  { definition := ⟨0⟩, bindings := [("a", .literal 1), ("b", .signal ⟨⟨0⟩, .uint 8⟩)] }

/-- The request for a gate with two numbers, under a name that is not valid. -/
def misnamed : InstanceRequest :=
  { definition := ⟨0⟩, bindings := [("a", .literal 1), ("b", .literal 2)], name := "1st" }

/-- A module that goes on after both requests have been rejected. -/
def borrowerSpec : DefinitionSpec (Routine Unit Unit) where
  name := "Borrower"
  declarations := [
    ("q", .output (.uint 8)),
    ("build", .generator (do
      discard (Program.attempt (Routine.instantiate borrowed))
      discard (Program.attempt (Routine.instantiate misnamed))
      Routine.set "q" (.literal 3)) .unknown)]

/-- The three definitions. -/
def gateWorkspace : Workspace Unit :=
  ((do
    let _ ← Supply.define gateSpec
    let _ ← Supply.define sourceSpec
    Supply.define borrowerSpec : Supply Unit DefId).apply ⟨{}, ()⟩).2

/-- The world in which the borrower begins, after the source has been made. -/
def borrowing : World Unit :=
  ((Build.prepare ⟨2⟩).apply
    ((Build.materialize ⟨1⟩).apply ⟨gateWorkspace, .ofConfig {}⟩).2).2

/-- The operations in the body of the module, in order. -/
def operations (w : World Unit) (id : ModuleId) : List (Operation ModuleId ValueId) :=
  let d := w.session.design
  let ids := (((d.module? id).bind (·.body?)).map (·.ops.toList)).getD []
  ids.filterMap fun o => (d.op? o).map (·.operation)

theorem moment_borrowing : Moment {} borrowing :=
  ((Moment.start gateWorkspace).make .materialize).prepare (by decide +kernel)

/-- The definition of the gate is found in the world of the borrower as it was made. -/
theorem exists_gate : ∃ original definition, Definition.ofSpec gateSpec = .ok original ∧
    original.Alike definition ∧
    borrowing.workspace.library.getDefinition ⟨0⟩ = .ok definition := by
  have hgate : ((Supply.define gateSpec).apply ⟨{}, ()⟩).1 = .ok ⟨0⟩ := by decide +kernel
  have hdefined : gateWorkspace = ((Supply.define sourceSpec >>= fun _ =>
      Supply.define borrowerSpec).apply ((Supply.define gateSpec).apply ⟨{}, ()⟩).2).2 := by
    unfold gateWorkspace
    rw [apply_bind, apply_eq_of_ok hgate]
  have hextends : ((Supply.define gateSpec).apply ⟨{}, ()⟩).2.Extends gateWorkspace := by
    rw [hdefined]
    exact ((Supply.define_leads sourceSpec _).bind fun _ w _ _ =>
      Supply.define_leads borrowerSpec w).state
  have hmade := (Build.materialize_sound ⟨1⟩ ⟨gateWorkspace, .ofConfig {}⟩
    (Session.coherent_ofConfig {})).library
  unfold borrowing
  rw [Build.prepare_workspace (by decide +kernel)]
  exact Supply.exists_defined hgate (trans_of Workspace.Extends hextends hmade)

end Sample

/-- A gate that is wired to the constant of another module is requested by the borrower and rejected. -/
theorem rejected_instance_leaves_borrowed :
    ((Build.placeInstance (Build.materializeWithin 2) Sample.borrowed).apply Sample.borrowing).1 =
        .error (.ir (.foreignValue "Borrower")) ∧
      ∃ definition, Sample.borrowing.Rejects Sample.borrowed definition ⟨1⟩
        ((Build.placeInstance (Build.materializeWithin 2) Sample.borrowed).apply
          Sample.borrowing).2 := by
  have hfailed : ((Build.placeInstance (Build.materializeWithin 2) Sample.borrowed).apply
      Sample.borrowing).1 = .error (.ir (.foreignValue "Borrower")) := by decide +kernel
  have hruns : Sample.borrowing.session.Runs ⟨⟨2⟩, ⟨1⟩, []⟩ := by
    unfold Session.Runs
    decide +kernel
  obtain ⟨original, definition, hspec, halike, hd⟩ := Sample.exists_gate
  exact ⟨hfailed, definition, rejected_instance_leaves Sample.moment_borrowing hruns (.within 2)
    hspec halike hd hfailed⟩

/-- Instances that are rejected leave operations in a body that had none: a constant for the number that comes before
the borrowed signal, and the instance itself, with its constants, if the name is not valid. -/
theorem rejected_instance_leaves_operations :
    Moment {} Sample.borrowing ∧ Sample.borrowing.session.Runs ⟨⟨2⟩, ⟨1⟩, []⟩ ∧
      Sample.operations Sample.borrowing ⟨1⟩ = [] ∧
      ((Build.placeInstance (Build.materializeWithin 2) Sample.borrowed).apply
        Sample.borrowing).1 = .error (.ir (.foreignValue "Borrower")) ∧
      Sample.operations ((Build.placeInstance (Build.materializeWithin 2) Sample.borrowed).apply
        Sample.borrowing).2 ⟨1⟩ = [.constant ⟨1, .uint 8, by decide⟩] ∧
      ((Build.placeInstance (Build.materializeWithin 2) Sample.misnamed).apply
        Sample.borrowing).1 = .error (.ir (.invalidName "1st")) ∧
      Sample.operations ((Build.placeInstance (Build.materializeWithin 2) Sample.misnamed).apply
          Sample.borrowing).2 ⟨1⟩ =
        [.constant ⟨1, .uint 8, by decide⟩, .constant ⟨2, .uint 8, by decide⟩,
          .instantiate ⟨2⟩ "1st" [⟨1⟩, ⟨2⟩] .empty] := by
  refine ⟨Sample.moment_borrowing, ?_, ?_⟩
  · unfold Session.Runs
    decide +kernel
  · decide +kernel

end Wirework
