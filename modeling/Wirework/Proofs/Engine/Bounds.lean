import Wirework.Proofs.Design.Lookups
import Wirework.Proofs.Engine.Clocks
import Wirework.Proofs.Engine.Outputs
import Wirework.Proofs.Engine.Printing
import Wirework.Proofs.Engine.Slots
import Wirework.Proofs.Engine.Wiring
import Wirework.Proofs.Independence.Entering

/-! # Ports are found at their indices

A port is looked up by its index among values that come from elsewhere: the block arguments of the module, the slots
of a running routine, the connections and the results of an instance.  The indices come from the interface of the
definition.  There is a value at each of them as the body has an argument for every input (`Build.enterBody_bounds`),
there are as many slots as outputs all the time that a routine runs (`Generation.requests_fill`), and the module of a
definition, even of one that copies a module and leaves its private ports out, has at least the outputs of the
definition (`Definition.length_outputs_le`).

`ports_in_bounds` puts this together: none of these look-ups fails, whatever the session and its routines do. -/

namespace Wirework

open Step

variable {ρ σ α : Type}

/-! ### Definitions -/

namespace Definition

variable {spec : DefinitionSpec ρ} {d original : Definition ρ}

theorem exists_genuine_of_ofModule {design : Design} {id : ModuleId} (h : ofModule design id = .ok d) :
    ∃ spec : DefinitionSpec ρ, spec.Genuine ∧ ofSpec spec = .ok d := by
  unfold ofModule at h
  cases himage : design.image id with
  | error e =>
      rw [himage] at h
      cases h
  | ok image =>
      rw [himage] at h
      exact ⟨importSpec image, fun _ hcopied => congrArg importSpec (Option.some.inj hcopied), h⟩

/-- Every output of the definition is one of its module. -/
theorem length_outputs_le (genuine : spec.Genuine) (made : ofSpec spec = .ok original) (alike : original.Alike d) :
    d.outputs.length ≤ d.moduleOutputs.length := by
  obtain ⟨parameters, rfl⟩ := alike.exists_parameters
  obtain ⟨hscanned, -, himage⟩ := ofSpec_eq_ok made
  have hports : original.outputPorts.length = original.outputs.length := List.length_map _
  change original.outputs.length ≤ original.moduleOutputs.length
  cases hspec : spec.image with
  | none =>
      have hexposes := hscanned.exposes (himage.trans hspec)
      exact Nat.le_of_eq (hports.symm.trans (congrArg List.length hexposes.outputs.symm))
  | some image =>
      obtain rfl := genuine image hspec
      unfold moduleOutputs
      rw [← hports, outputPorts_of_importSpec made, himage]
      exact List.length_filter_le _ _

theorem Scanned.lt_of_inputIndex? (h : d.Scanned) {name : String} {index : Nat}
    (hindex : d.table.inputIndex? name = some index) : index < d.inputs.length := by
  obtain ⟨members, hreads⟩ := h.interface
  rw [h.table, hreads.inputIndex?_eq_some_iff] at hindex
  obtain ⟨port, hport, -⟩ := hindex
  exact (List.getElem?_eq_some_iff.mp hport).1

theorem Scanned.output_index_lt (h : d.Scanned) {port : PortSpec} (hport : port ∈ d.outputs) :
    port.index < d.outputs.length := by
  obtain ⟨k, hk⟩ := List.mem_iff_getElem?.mp hport
  rw [h.index_of_output hk]
  exact (List.getElem?_eq_some_iff.mp hk).1

theorem Scanned.clocked (h : d.Scanned) : d.Clocked := by
  intro position hposition
  unfold clockPosition? at hposition
  rcases hclocks : d.interface.clocks with _ | ⟨name, _ | ⟨_, _⟩⟩
  case cons.nil =>
    rw [hclocks] at hposition
    obtain ⟨port, hport, rfl⟩ := Option.map_eq_some_iff.mp hposition
    exact h.input_index_lt (h.input?_eq_some_iff.mp hport).1
  all_goals
    rw [hclocks] at hposition
    cases hposition

end Definition

/-! ### Entering a body -/

namespace Compile

theorem edit_avoids (step : Edit α) (s : Session) : (edit step).Avoids BuildError.IsPortFault s :=
  .zoom (avoids_mapError nofun step s.design)

theorem reserveSymbol_avoids (name : String) (s : Session) :
    (reserveSymbol name).Avoids BuildError.IsPortFault s := by
  unfold reserveSymbol
  exact avoids_get_bind ((avoids_of_ok (apply_set _ s)).bind fun _ s₁ _ => avoids_pure _ s₁)

theorem createModule_avoids (definition : Definition ρ) (s : Session) :
    (createModule definition).Avoids BuildError.IsPortFault s := by
  unfold createModule
  refine .guard nofun fun _ => (reserveSymbol_avoids definition.name s).bind fun symbol s₁ _ => ?_
  refine (edit_avoids _ s₁).attempt_bind (fun id s₂ _ => ?_) fun e he s₂ => ?_
  · exact (avoids_modify _ s₂).bind fun _ s₃ _ => avoids_pure id s₃
  · exact (avoids_modify _ s₂).bind fun _ s₃ _ => avoids_throw he s₃

end Compile

namespace Build

section enter

variable {s : Session} {d : DefId} {name : String} {m : HwModule} {design : Design} {entry : ManifestEntry}
  {definition : Definition (Routine σ Unit)} {w : World σ}

/-- A body that is entered has an argument for every input, and its clock is found among them. -/
theorem enterBody_bounds (workspace : Workspace σ) (hd : workspace.library.getDefinition d = .ok definition)
    (hscanned : definition.Scanned) (fits : s.Fits name m design entry) (has : Compile.InsertsAs definition m) :
    (∃ e w', (enterBody d s.design.nextModule).apply ⟨workspace, started s d m design entry⟩ = (.error e, w') ∧
        ¬ e.IsPortFault) ∨
      ∃ frame routine w', (enterBody d s.design.nextModule).apply ⟨workspace, started s d m design entry⟩ =
          (.ok (frame, routine), w') ∧
        frame.arguments.length = definition.inputs.length := by
  rcases enterBody_begins workspace hd fits with ⟨e, hreason, he⟩ | ⟨generator, hgenerator, hkind⟩
  · refine .inl ⟨e, _, he, ?_⟩
    rcases hreason with rfl | ⟨refused, rfl⟩ <;> exact nofun
  · have hexposes := hscanned.exposes (Definition.image_eq_none (not_imported_of_begun has hkind))
    have hlength : (design.nextValues m.inputs.length).length = definition.inputs.length := by
      rw [Design.length_nextValues, has.suits.inputs, hexposes.inputs]
      exact List.length_map _
    obtain ⟨clock, hclock, -⟩ := implicitClock_ok hlength hscanned.clocked
    have happly := enterBody_apply workspace hd hgenerator fits hkind
    simp only [hclock] at happly
    exact .inr ⟨_, _, _, happly, hlength⟩

/-- Entering the body of a definition: its clock is found, and there is an argument for every input. -/
theorem prepare_bounds (hd : w.workspace.library.getDefinition d = .ok definition) (hscanned : definition.Scanned) :
    (prepare d).Avoids BuildError.IsPortFault w ∧
      ∀ frame routine w', (prepare d).apply w = (.ok (frame, routine), w') →
        frame.arguments.length = definition.inputs.length := by
  have hrefused : ∀ {e w'}, (prepare d).apply w = (.error e, w') → ¬ e.IsPortFault →
      (prepare d).Avoids BuildError.IsPortFault w ∧ ∀ frame routine w',
        (prepare d).apply w = (.ok (frame, routine), w') → frame.arguments.length = definition.inputs.length := by
    intro e w' happly he
    refine ⟨avoids_of_error happly he, fun frame routine w'' hok => ?_⟩
    cases happly.symm.trans hok
  by_cases hgenerating : w.session.isGenerating d = true
  · have happly : (prepare d).apply w = (.error (.recursiveGeneration definition.name), w) := by
      unfold prepare
      simp only [apply_bind, apply_definition, hd, apply_get, if_pos hgenerating, apply_throw]
    exact hrefused happly nofun
  cases hbound : w.session.moduleOf? d with
  | some id =>
      have happly : (prepare d).apply w = (.error (.alreadyGenerated definition.name), w) := by
        unfold prepare
        simp only [apply_bind, apply_definition, hd, apply_get, if_neg hgenerating, hbound, Option.isSome_some, if_true,
          apply_throw]
      exact hrefused happly nofun
  | none =>
      have hprepare := prepare_unbound hd (mt Session.isGenerating_iff.mpr hgenerating) hbound
      rcases Compile.createModule_cases definition w.session with
        ⟨e, design, he, -⟩ | ⟨m, design, entry, fits, has, -, hok⟩
      · rw [he] at hprepare
        exact hrefused hprepare (Compile.createModule_avoids definition w.session e (congrArg Prod.fst he))
      · rw [hok] at hprepare
        rcases enterBody_bounds w.workspace hd hscanned fits has with
          ⟨e, w', he, hfault⟩ | ⟨frame, routine, w', hok, hlength⟩
        · exact hrefused (hprepare.trans he) hfault
        · refine ⟨avoids_of_ok (hprepare.trans hok), fun frame' routine' w'' h => ?_⟩
          obtain ⟨rfl, -⟩ := Prod.mk.inj (Except.ok.inj (congrArg Prod.fst (h.symm.trans (hprepare.trans hok))))
          exact hlength

end enter

end Build

/-! ### Requests of a routine -/

/-- The request is for a port of the module that the routine builds. -/
def Request.isForPort : Request → Bool
  | .input _ | .inputAt _ | .clock _ | .set _ _ | .setAt _ _ => true
  | _ => false

namespace Generation

/-- What a routine asks for, in order, each time with the state in which it does. -/
def requests (materialize : Materializer σ) (caller : Caller σ) (frame : Frame) :
    Routine σ α → Running σ → List (Request × Running σ)
  | .done _, _ => []
  | .ask request next, r =>
    let answered := (answer materialize caller frame request).apply r
    (request, r) :: requests materialize caller frame (next answered.1) answered.2
  | .host update next, r =>
    requests materialize caller frame (next r.world.workspace.host)
      { r with world.workspace.host := update r.world.workspace.host }

section requests

variable {materialize : Materializer σ} {caller : Caller σ} {frame : Frame}
  {definition : Definition (Routine σ Unit)} {policy : ReassignPolicy} {r : Running σ}

/-- Whenever a routine asks for something, there are as many slots as outputs. -/
theorem requests_fill (hm : materialize.Sound) (hc : caller.Sound) (hscanned : definition.Scanned)
    (routine : Routine σ α) (h : r.Fills frame definition policy) :
    ∀ asked ∈ requests materialize caller frame routine r, asked.2.Fills frame definition policy := by
  induction routine generalizing r with
  | done outcome => exact fun asked hasked => absurd hasked List.not_mem_nil
  | host update next ih => exact ih _ ⟨h.coherent, h.here, h.policy_eq, h.defined, h.length_eq⟩
  | ask request next ih =>
      exact List.forall_mem_cons.mpr ⟨h, ih _ (answer_fills hm hc hscanned request h)⟩

theorem edit_avoids (step : Edit α) (r : Running σ) : (edit step).Avoids BuildError.IsPortFault r :=
  .zoom (.zoom (Compile.edit_avoids step r.world.session))

theorem own_bind_avoids (h : r.Fills frame definition policy) {next : Definition (Routine σ Unit) → Generation σ α}
    (hnext : ∀ found, found.inputs = definition.inputs → found.outputs = definition.outputs →
      found.table = definition.table → (next found).Avoids BuildError.IsPortFault r) :
    (ownDefinition frame >>= next).Avoids BuildError.IsPortFault r := by
  obtain ⟨found, hfound, halike⟩ := h.defined
  have hown : (ownDefinition frame).apply r = (.ok found, r) :=
    (apply_ownDefinition frame r).trans (congrArg (·, r) hfound)
  refine (avoids_of_ok hown).bind fun found' r' h' => ?_
  obtain ⟨hdefinition, rfl⟩ := Prod.mk.inj (hown.symm.trans h')
  obtain rfl := Except.ok.inj hdefinition
  obtain ⟨parameters, rfl⟩ := halike.exists_parameters
  exact hnext _ rfl rfl rfl

section inputs

variable (hargs : frame.arguments.length = definition.inputs.length)
include hargs

theorem argument_avoids {index : Nat} (hindex : index < definition.inputs.length) :
    (argument frame index).Avoids BuildError.IsPortFault r := by
  unfold argument
  rw [List.getElem?_eq_getElem (hargs ▸ hindex)]
  exact avoids_pure _ r

theorem inputAt_avoids (h : r.Fills frame definition policy) (index : Nat) :
    (inputAt frame index).Avoids BuildError.IsPortFault r := by
  unfold inputAt
  refine own_bind_avoids h fun found hinputs _ _ => ?_
  rw [hinputs]
  cases hport : definition.inputs[index]? with
  | none => exact avoids_throw nofun r
  | some port =>
      have hindex := (List.getElem?_eq_some_iff.mp hport).1
      exact (argument_avoids hargs hindex).bind fun value r₁ _ => avoids_pure _ r₁

theorem input_avoids (h : r.Fills frame definition policy) (port : String) :
    (input frame port).Avoids BuildError.IsPortFault r := by
  unfold input
  refine own_bind_avoids h fun found _ _ htable => ?_
  rw [htable]
  cases definition.table.inputIndex? port with
  | none => exact avoids_throw nofun r
  | some index => exact inputAt_avoids hargs h index

theorem input_apply (hscanned : definition.Scanned) (h : r.Fills frame definition policy) {port : String}
    {spec : PortSpec} (hport : definition.input? port = some spec) :
    ∃ s, (input frame port).apply r = (.ok s, r) ∧ frame.arguments[spec.index]? = some s.value := by
  obtain ⟨found, hfound, halike⟩ := h.defined
  obtain ⟨htable, hinputs⟩ : found.table = definition.table ∧ found.inputs = definition.inputs := by
    obtain ⟨parameters, rfl⟩ := halike.exists_parameters
    exact ⟨rfl, rfl⟩
  obtain ⟨index, hindex, hspec⟩ := Option.bind_eq_some_iff.mp hport
  obtain rfl := hscanned.index_of_input hspec
  have hvalue := List.getElem?_eq_getElem (hargs ▸ (List.getElem?_eq_some_iff.mp hspec).1)
  unfold input inputAt argument
  simp only [apply_bind, apply_ownDefinition, hfound, htable, hinputs, hindex, hspec, hvalue, apply_pure]
  cases definition.table.isClock spec.index with
  | true => exact ⟨_, rfl, rfl⟩
  | false => exact ⟨_, rfl, rfl⟩

theorem clock_avoids (hscanned : definition.Scanned) (h : r.Fills frame definition policy) (port : String) :
    (clock frame port).Avoids BuildError.IsPortFault r := by
  unfold clock
  refine own_bind_avoids h fun found _ _ htable => ?_
  rw [htable]
  cases hindex : definition.table.inputIndex? port with
  | none => exact avoids_throw nofun r
  | some index =>
      refine .guard nofun fun _ => (argument_avoids hargs (hscanned.lt_of_inputIndex? hindex)).bind fun value r₁ _ => ?_
      exact avoids_pure _ r₁

end inputs

theorem setAt_avoids (h : r.Fills frame definition policy) (index : Nat) (value : Connection) :
    (setAt frame index value).Avoids BuildError.IsPortFault r := by
  unfold setAt
  refine own_bind_avoids h fun found _ houtputs _ => ?_
  rw [houtputs]
  cases hport : definition.outputs[index]? with
  | none => exact avoids_throw nofun r
  | some port =>
      refine .guard_not nofun fun _ => ?_
      refine Avoids.bind (value.check_spared found.name port) fun _ r' hr' => ?_
      obtain rfl : r = r' := (Prod.mk.inj hr').2
      have hslot : index < r.outputs.length := h.length_eq ▸ (List.getElem?_eq_some_iff.mp hport).1
      refine avoids_get_bind ?_
      rw [List.getElem?_eq_getElem hslot]
      refine avoids_get_bind (.guard_not nofun fun _ => (edit_avoids _ r).bind fun signal r₁ _ => ?_)
      refine .ite (fun _ => ?_) fun _ => avoids_modify _ r₁
      exact Avoids.bind (.zoom (.zoom (avoids_modify _ _))) fun _ r₂ _ => avoids_modify _ r₂

theorem set_avoids (h : r.Fills frame definition policy) (port : String) (value : Connection) :
    (set frame port value).Avoids BuildError.IsPortFault r := by
  unfold set
  refine own_bind_avoids h fun found _ _ htable => ?_
  rw [htable]
  cases definition.table.outputIndex? port with
  | none => exact avoids_throw nofun r
  | some index => exact setAt_avoids h index value

theorem answer_avoids (hscanned : definition.Scanned) (hargs : frame.arguments.length = definition.inputs.length)
    (h : r.Fills frame definition policy) {request : Request} (forPort : request.isForPort = true) :
    (answer materialize caller frame request).Avoids BuildError.IsPortFault r := by
  cases request with
  | input port => exact input_avoids hargs h port
  | inputAt index => exact inputAt_avoids hargs h index
  | clock port => exact clock_avoids hargs hscanned h port
  | set port value => exact set_avoids h port value
  | setAt index value => exact setAt_avoids h index value
  | _ => cases forPort

end requests

end Generation

/-- While the routine of the frame runs, what belongs to a port of the definition is found at its index. -/
structure Running.PortsInBounds (materialize : Materializer σ) (caller : Caller σ) (frame : Frame)
    (definition : Definition (Routine σ Unit)) (r : Running σ) : Prop where
  /-- An input is the argument at its index. -/
  argument : ∀ port spec, definition.input? port = some spec →
    ∃ s, (Generation.input frame port).apply r = (.ok s, r) ∧ frame.arguments[spec.index]? = some s.value
  /-- There is a slot at the index of an output. -/
  slot : ∀ spec ∈ definition.outputs, spec.index < r.outputs.length
  /-- No request for a port fails for want of an argument or a slot. -/
  answered : ∀ request : Request, request.isForPort = true →
    (Generation.answer materialize caller frame request).Avoids BuildError.IsPortFault r

theorem Running.Fills.portsInBounds {materialize : Materializer σ} {caller : Caller σ} {frame : Frame}
    {definition : Definition (Routine σ Unit)} {policy : ReassignPolicy} {r : Running σ}
    (h : r.Fills frame definition policy) (hscanned : definition.Scanned)
    (hargs : frame.arguments.length = definition.inputs.length) :
    r.PortsInBounds materialize caller frame definition where
  argument _ _ hport := Generation.input_apply hargs hscanned h hport
  slot _ hspec := h.length_eq ▸ hscanned.output_index_lt hspec
  answered _ forPort := Generation.answer_avoids hscanned hargs h forPort

/-! ### Outputs of instances -/

namespace Build

variable {request : InstanceRequest} {w w' : World σ} {placed : Instance} {definition : Definition (Routine σ Unit)}

/-- An output of an instance with a result for every output. -/
theorem outputOf_bounds (hscanned : definition.Scanned)
    (hd : w.workspace.library.getDefinition placed.definition = .ok definition)
    (hlength : definition.outputs.length ≤ placed.results.length) (port : String) :
    (outputOf placed port).Avoids BuildError.IsPortFault w ∧ ∀ spec, definition.output? port = some spec →
      ∃ signal, placed.results[spec.index]? = some signal ∧ (outputOf placed port).apply w = (.ok signal, w) := by
  have hfound : ∀ spec, definition.output? port = some spec →
      ∃ signal, placed.results[spec.index]? = some signal ∧ (outputOf placed port).apply w = (.ok signal, w) := by
    intro spec hspec
    have hindex := hscanned.output_index_lt (hscanned.output?_eq_some_iff.mp hspec).1
    have hresult : placed.results[spec.index]? = some _ := List.getElem?_eq_getElem (by omega)
    exact ⟨_, hresult, outputOf_apply hd hspec hresult⟩
  refine ⟨?_, hfound⟩
  cases hspec : definition.output? port with
  | some spec =>
      obtain ⟨signal, -, happly⟩ := hfound spec hspec
      exact avoids_of_ok happly
  | none =>
      have hrefused : (outputOf placed port).apply w = (.error (.portResolution definition.name port), w) := by
        unfold outputOf
        simp only [apply_bind, apply_definition, hd, hspec, apply_throw]
      exact avoids_of_error hrefused nofun

theorem Places.length_results_le (h : Places request w placed w') (hworks : w.Works w')
    (hsuited : w'.session.Suited w'.workspace.library.catalog)
    (hd : w.workspace.library.getDefinition request.definition = .ok definition)
    (hexports : definition.outputs.length ≤ definition.moduleOutputs.length) :
    definition.outputs.length ≤ placed.results.length := by
  obtain ⟨-, _, _, module, _, -, -, hmade, -, hrealizes⟩ := h
  obtain ⟨callee, hcallee, -, htypes⟩ := hrealizes.callee
  have hsuits := suits_of_madeFor hworks hsuited hd hmade hcallee
  calc
    definition.outputs.length ≤ definition.moduleOutputs.length := hexports
    _ = callee.outputs.length := by rw [hsuits.outputs]
    _ = placed.results.length := by simpa using (congrArg List.length htypes).symm

end Build

/-! ### Sessions -/

/-- Whatever comes of a definition in the session, what belongs to a port is found at the index of the port. -/
structure World.PortsInBounds (d : DefId) (definition : Definition (Routine σ Unit)) (w : World σ) : Prop where
  /-- The argument that is the clock of the module, when its body is entered. -/
  entered : (Build.prepare d).Avoids BuildError.IsPortFault w
  /-- The arguments and the slots, wherever the routine asks for something. -/
  running : ∀ frame routine w', (Build.prepare d).apply w = (.ok (frame, routine), w') → ∀ depth,
    ∀ asked ∈ Generation.requests (Build.materializeWithin depth) (Supply.call depth) frame routine
        ⟨w', List.replicate definition.table.outputCount none⟩,
      asked.2.PortsInBounds (Build.materializeWithin depth) (Supply.call depth) frame definition
  /-- The slots of connections, in which every connection is found again. -/
  bound : ∀ bindings, definition.bindSlots bindings = definition.bindInputs bindings ∧
    Spared BuildError.IsPortFault (definition.bindSlots bindings)
  /-- The results of an instance, from when it is placed. -/
  placed : ∀ request step placed w', request.definition = d → Build.Placing request step →
    step.apply w = (.ok placed, w') → ∀ w'' : World σ, w'.workspace.Extends w''.workspace → ∀ port,
      (Build.outputOf placed port).Avoids BuildError.IsPortFault w'' ∧
        ∀ spec, definition.output? port = some spec → ∃ signal, placed.results[spec.index]? = some signal ∧
          (Build.outputOf placed port).apply w'' = (.ok signal, w'')
  /-- The operations of the module that the definition copies, in whatever design the copy is made. -/
  copied : ∀ image ∈ definition.image, ∀ design symbol,
    (Edit.importImage image symbol).Avoids IrError.IsOpFault design

/-- **Ports are found at their indices.**  For every definition that has been built or copies a module, at every point
of a session: the clock of its module is found among the block arguments; whatever its routine does, the ports it asks
for are found among the arguments and the slots; connections of an instance all have a slot; an instance has a result
for each output, also if the definition leaves out private ports of the module it copies; and copying that module
finds the operations it has made. -/
theorem ports_in_bounds {config : Config} {workspace : Workspace σ} {w : World σ}
    (h : World.Becomes ⟨workspace, .ofConfig config⟩ w) {d : DefId}
    {spec : DefinitionSpec (Routine σ Unit)} {original definition : Definition (Routine σ Unit)}
    (genuine : spec.Genuine) (made : Definition.ofSpec spec = .ok original) (alike : original.Alike definition)
    (hd : w.workspace.library.getDefinition d = .ok definition) : w.PortsInBounds d definition := by
  have hregular := World.Becomes.regular h (World.regular_start workspace config)
  have hsuited := World.Becomes.suited h (World.regular_start workspace config) (Session.suited_ofConfig config _)
  have hscanned := alike.scanned (Definition.ofSpec_eq_ok made).1
  obtain ⟨hentered, hargs⟩ := Build.prepare_bounds hd hscanned
  constructor
  case entered => exact hentered
  case running =>
    intro frame routine w' enters depth asked hasked
    have hslots : (List.replicate definition.table.outputCount (none : Option Signal)).length =
        definition.outputs.length := by
      obtain ⟨_, hreads⟩ := hscanned.interface
      rw [List.length_replicate, hscanned.table]
      exact hreads.outputCount_eq
    have hfills := Build.fills_of_prepare hregular.coherent enters hd hslots
    have hasks := Generation.requests_fill (Build.materializeWithin_sound depth) (Build.call_sound depth) hscanned
      routine hfills asked hasked
    exact hasks.portsInBounds hscanned (hargs frame routine w' enters)
  case bound =>
    intro bindings
    rw [Definition.bindSlots_eq hscanned]
    exact ⟨rfl, definition.bindInputs_spared bindings⟩
  case placed =>
    rintro request step placed w' rfl placing happly w'' grown port
    have hleads := placing.leads hregular.coherent
    have hworks := hleads.state
    have hplaces := hleads.result placed (congrArg Prod.fst happly)
    rw [happly] at hworks hplaces
    have hlength := hplaces.length_results_le hworks (hworks.suited hregular.coherent hsuited) hd
      (Definition.length_outputs_le genuine made alike)
    obtain ⟨found, hfound, halike⟩ := trans_of Workspace.Extends hworks.library grown _ _ hd
    obtain ⟨parameters, rfl⟩ := halike.exists_parameters
    exact Build.outputOf_bounds (halike.scanned hscanned) (hplaces.1 ▸ hfound) hlength port
  case copied => exact fun image _ design symbol => Edit.importImage_avoids image symbol design

/-- That holds of a module that tries an instance, reads an input, makes a register and assigns an output, and of a
definition that leaves the first output of the module it copies out. -/
theorem ports_in_bounds_hidden :
    ((((Build.prepare ⟨1⟩).apply ⟨Sample.delayWorkspace, .ofConfig {}⟩).1.map fun entered =>
        (Generation.requests (Build.materializeWithin 2) (Supply.call 2) entered.1 entered.2
          ⟨((Build.prepare ⟨1⟩).apply ⟨Sample.delayWorkspace, .ofConfig {}⟩).2, [none]⟩).map (·.1.isForPort)) =
        .ok [false, true, false, true] ∧
      ∃ definition, World.PortsInBounds ⟨1⟩ definition ⟨Sample.delayWorkspace, .ofConfig {}⟩) ∧
    ∃ definition : Definition (Routine Unit Unit), definition.outputs.map (·.name) = ["y"] ∧
      definition.moduleOutputs.map (·.name) = ["_x", "y"] ∧ (Sample.splitWorld "_x").PortsInBounds ⟨0⟩ definition := by
  refine ⟨⟨by decide +kernel, ?_⟩, ?_⟩
  · obtain ⟨original, definition, made, alike, hd⟩ := Supply.exists_defined (d := ⟨1⟩)
      (by decide +kernel) (refl_of Workspace.Extends Sample.delayWorkspace)
    exact ⟨definition, ports_in_bounds .refl (fun _ himage => by cases himage) made alike hd⟩
  · have henters : ((Build.prepare ⟨1⟩).apply ⟨Sample.splitWorkspace "_x", .ofConfig {}⟩).1.isOk = true := by
      decide +kernel
    obtain ⟨imported, definition, himport, hd, alike⟩ := Sample.exists_splitter "_x" (by decide +kernel) henters
    obtain ⟨_, _, hprepare⟩ := Build.prepare_of_isOk henters
    obtain ⟨spec, genuine, made⟩ := Definition.exists_genuine_of_ofModule himport
    have hports : (Definition.ofModule (ρ := Routine Unit Unit) (Sample.splitDesign "_x") ⟨0⟩).map (fun d =>
        (d.outputs.map (·.name), d.moduleOutputs.map (·.name))) = .ok (["y"], ["_x", "y"]) := by decide +kernel
    rw [himport] at hports
    obtain ⟨houtputs, hmodule⟩ := Prod.mk.inj (Except.ok.inj hports)
    refine ⟨definition, ?_, ?_, ports_in_bounds (.single (.prepare hprepare)) genuine made alike hd⟩
    all_goals
      obtain ⟨parameters, rfl⟩ := alike.exists_parameters
      assumption

end Wirework
