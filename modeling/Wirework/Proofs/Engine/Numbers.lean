import Wirework.Proofs.Engine.Permanence
import Wirework.Proofs.Engine.Emitting
import Wirework.Proofs.Engine.Wiring
import Wirework.Proofs.Session.Numbering

/-! # How instances are told apart

An instance that has been placed was put into the body that was being built once its module had been made
(`Placing.inserts`): it is the operation that was next then, with the parameters that its definition had at that
point, and its record is the last one.

The number in that record is meant to identify the instance among those of its session.  It does so within each body,
and in the whole session as long as no generation fails; and an instance that is placed later has a larger number
unless one of the bodies has been discarded in the meantime that were being built when the number was given
(`instance_numbers_apart`).  Otherwise a number may be given to two instances that both stay
(`instance_number_given_twice`): numbers are counted by the records there are, and discarding a body takes records
away that stand before others. -/

namespace Wirework

/-! ## What an accepted instance has put into a body -/

open Step

variable {σ : Type}

/-- The instance that has been requested is put into the body at the insertion point. -/
structure World.Inserts (request : InstanceRequest) (placed : Instance) (w w' : World σ) : Prop where
  workspace_eq : w'.workspace = w.workspace
  numbered : placed.id = ⟨w.session.instances.length⟩
  recorded : ∃ record, w.session.here? = some record.parent ∧ record.id = placed.id ∧
    w'.session.instances = w.session.instances ++ [record]
  op : ∃ module definition inputs op, w.session.MadeFor request.definition module ∧
    w.workspace.library.getDefinition request.definition = .ok definition ∧
    w'.session.design.op? placed.op = some op ∧
    op.operation = .instantiate module placed.name inputs definition.instanceParameters
  /-- It is appended, and then recorded. -/
  edits : ∃ s, w.session.Edits s ∧ s.Edits w'.session

namespace Build

section inserts

variable {request : InstanceRequest} {placed : Instance} {w w' : World σ}

theorem insertInstance_inserts {module : ModuleId} {name : String} {inputs : List ValueId}
    {definition : Definition (Routine σ Unit)} (hs : w.session.Coherent)
    (made : w.session.MadeFor request.definition module)
    (hd : w.workspace.library.getDefinition request.definition = .ok definition)
    (h : (insertInstance request module name inputs definition.instanceParameters).apply w =
      (.ok placed, w')) : w.Inserts request placed w' := by
  rcases insertInstance_cases (fun _ => hs.building) h with
    ⟨⟨_, ⟨⟩⟩, -⟩ | ⟨id, m, callee, body, here, hm, -, happ, ⟨houtcome, rfl⟩ | ⟨⟨_, ⟨⟩⟩, -⟩⟩
  obtain rfl := Except.ok.inj houtcome
  have hcallee : ∀ c, (Operation.instantiate module name inputs definition.instanceParameters :
      Operation ModuleId ValueId).callee? = some c → w.session.Made c := by
    intro c hc
    obtain rfl := Option.some.inj hc
    exact made.made
  refine ⟨rfl, rfl, ⟨⟨⟨w.session.instances.length⟩, name, module, id, w.session.design.nextOp⟩, here, rfl, rfl⟩,
    ?_, _, .append here (happ (attributesOf request)) rfl hcallee trivial,
    edits_addInstance here hm made.made body name inputs _ _ _ _⟩
  exact ⟨module, definition, inputs, _, made, hd, w.session.design.op?_append_next id body _ _ _ _, rfl⟩

/-- An instance that has been placed was put into the body after its module had been made. -/
theorem placeInstance_inserts {materialize : Materializer σ} (hm : materialize.Sound) (hs : w.session.Coherent)
    (h : (placeInstance materialize request).apply w = (.ok placed, w')) :
    ∃ w₁, w.Works w₁ ∧ w₁.Inserts request placed w' := by
  obtain ⟨_, definition, _, _, _, hd, _⟩ := (placeInstance_leads hm request hs).result placed (congrArg Prod.fst h)
  rcases placeInstance_cases hm hs hd h with
    ⟨⟨_, ⟨⟩⟩, -⟩ | ⟨connections, -, ⟨_, -, ⟨⟩⟩ | ⟨module, w₁, block, outer, name, block', hmade, hblocks, -, hemit⟩⟩
  have hworks := (hm request.definition w hs).works
  have hfound := (materialize_leads hm request.definition hs).result module (congrArg Prod.fst hmade)
  rw [hmade] at hworks hfound
  let w₂ : World σ := { w₁ with session := { w₁.session with blocks := block' :: outer } }
  have hworks₂ : w.Works w₂ := trans_of World.Works hworks (World.works_of_edits (.name hblocks))
  -- The inputs are made in the body, which leaves the modules alone.
  obtain ⟨inputs, w₃, hinputs, hinsert⟩ := apply_bind_eq_ok_iff.mp hemit
  have hleads := edit_leads (w := w₂) (leads_mapM
    (fun (entry : PortSpec × Connection) d => inputValue_leads entry.1 entry.2 d) connections _)
  have hworks₃ := hleads.state
  obtain ⟨hsame, -⟩ := hleads.result inputs (congrArg Prod.fst hinputs)
  rw [hinputs] at hworks₃ hsame
  have hworks₃ := trans_of World.Works hworks₂ hworks₃
  obtain ⟨definition₃, w₄, hdefinition, hinsert⟩ := apply_bind_eq_ok_iff.mp hinsert
  obtain ⟨hd₃, rfl⟩ := Prod.mk.inj hdefinition
  exact ⟨w₃, hworks₃, insertInstance_inserts (hworks₃.coherent hs) (hsame.madeFor hfound) hd₃ hinsert⟩

/-- The same of an instance that is placed from outside or by a routine. -/
theorem Placing.inserts {step : Build σ Instance} (placing : Placing request step) (hs : w.session.Coherent)
    (h : (step.apply w).1 = .ok placed) :
    ∃ w₁, w.Works w₁ ∧ w₁.Inserts request placed (step.apply w).2 := by
  obtain ⟨materialize, hm, rfl⟩ := placing.exists_materializer
  exact placeInstance_inserts hm hs (apply_eq_of_ok h)

theorem Placing.exists_op {step : Build σ Instance} (placing : Placing request step) (hs : w.session.Coherent)
    (h : (step.apply w).1 = .ok placed) {definition : Definition (Routine σ Unit)}
    (hd : (step.apply w).2.workspace.library.getDefinition request.definition = .ok definition) :
    ∃ module inputs op, (step.apply w).2.session.MadeFor request.definition module ∧
      (step.apply w).2.session.design.op? placed.op = some op ∧
      op.operation = .instantiate module placed.name inputs definition.instanceParameters := by
  obtain ⟨_, _, _, _, inputs, _, _, made, _, hrealizes⟩ := (placing.leads hs).result placed h
  obtain ⟨w₁, _, hinserts⟩ := placing.inserts hs h
  obtain ⟨module, definition₁, _, op, _, hd₁, hop, hoperation⟩ := hinserts.op
  rw [hinserts.workspace_eq, hd₁] at hd
  obtain rfl := Except.ok.inj hd
  obtain ⟨op₁, _, hop₁, hoperation₁, _⟩ := hrealizes.op
  obtain rfl := Option.some.inj (hop.symm.trans hop₁)
  obtain ⟨rfl, _⟩ := Operation.instantiate.inj (hoperation.symm.trans hoperation₁)
  exact ⟨module, _, op, made, hop, hoperation⟩

end inserts

end Build

/-! ## Numbers -/

theorem Session.Keeps.isLive {own : Option ModuleId} {depth : Nat} {s s' : Session} (h : Keeps own depth s s')
    {id : ModuleId} (hlive : s.design.IsLive id) : s'.design.IsLive id := by
  obtain ⟨m, hm⟩ := hlive
  obtain ⟨m', hm', _⟩ := Design.exists_module?_of_header?
    (h.header?_eq id (Design.lt_size_of_module? hm)) hm
  exact ⟨m', hm'⟩

/-- How far the numbers of instances tell them apart in the world `w`. -/
structure World.NumbersApart (w : World σ) : Prop where
  /-- Numbers increase within each body. -/
  within : w.session.instances.Pairwise fun r q => r.parent = q.parent → r.id.index < q.id.index
  /-- As long as no module has been taken out, instances are numbered from zero on. -/
  sequential : w.session.Undisturbed →
    w.session.instances.map (·.id.index) = List.range w.session.instances.length
  /-- An instance that is placed now has a smaller number than one that is placed later, if all bodies that are
  being built now are still there then. -/
  later : ∀ {request₁ request₂ : InstanceRequest} {step₁ step₂ : Build σ Instance} {placed₁ placed₂ : Instance}
    {w₂ : World σ}, Build.Placing request₁ step₁ → (step₁.apply w).1 = .ok placed₁ →
      (step₁.apply w).2.Becomes w₂ → Build.Placing request₂ step₂ → (step₂.apply w₂).1 = .ok placed₂ →
        (∀ id ∈ w.session.points, w₂.session.design.IsLive id) → placed₁.id.index < placed₂.id.index

theorem World.Regular.placed_later {w w₂ : World σ} (hw : w.Regular) {request₁ request₂ : InstanceRequest}
    {step₁ step₂ : Build σ Instance} {placed₁ placed₂ : Instance} (placing₁ : Build.Placing request₁ step₁)
    (first : (step₁.apply w).1 = .ok placed₁) (goesOn : (step₁.apply w).2.Becomes w₂)
    (placing₂ : Build.Placing request₂ step₂) (second : (step₂.apply w₂).1 = .ok placed₂)
    (live : ∀ id ∈ w.session.points, w₂.session.design.IsLive id) : placed₁.id.index < placed₂.id.index := by
  have hworks := (placing₁.leads hw.coherent).state
  have hw₁ := hworks.regular hw
  have hw₂ := goesOn.regular hw₁
  obtain ⟨w₁, _, hinserts₁⟩ := placing₁.inserts hw.coherent first
  obtain ⟨w₃, hworks₂, hinserts₂⟩ := placing₂.inserts hw₂.coherent second
  obtain ⟨record, -, -, hrecords⟩ := hinserts₁.recorded
  -- The session goes on from the first record to the point where the second one is added.
  have hdoes := hworks₂.session _ (refl_of Library.Extends _)
  have hgoes : Session.Goes _ (step₁.apply w).2.session w₃.session :=
    (goesOn.goes hw₁ hworks₂.library).trans hdoes.goes
  have hpoints := (hworks.session _ (refl_of Library.Extends _)).keeps.points_eq
  have hprefix := Session.Goes.instances_prefix hgoes hw₁.coherent fun id hid =>
    hdoes.keeps.isLive (live id (hpoints ▸ hid))
  have hlength := hprefix.length_le
  rw [hrecords, List.length_append, List.length_singleton] at hlength
  rw [hinserts₁.numbered, hinserts₂.numbered]
  exact hlength

/-- **Numbers of instances.**  In every session, however generations nest, succeed and fail, the instances of one
body have different numbers, and all instances have as long as no module has been taken out.  An instance that is
placed later has a larger number, if no body has been discarded that was being built when the first one was placed. -/
theorem instance_numbers_apart {config : Config} {workspace : Workspace σ} {w : World σ}
    (h : World.Becomes ⟨workspace, .ofConfig config⟩ w) : w.NumbersApart := by
  have hregular := h.regular (World.regular_start workspace config)
  obtain ⟨_, hnumbered⟩ := h.induct (I := Session.Numbered) (Session.numbered_ofConfig config)
    fun _ _ hs hnumbered hmoves => hnumbered.moves hs hmoves
  obtain ⟨_, hsequential⟩ := h.induct (I := fun s => s.Undisturbed → s.Sequential) (fun _ => rfl)
    fun _ _ hs hsequential hmoves => hmoves.sequential hsequential hs
  exact ⟨hnumbered.increasing, hsequential, hregular.placed_later⟩

/-! ### An instance within a generation that fails -/

namespace Sample

/-- A module with one output that is built by a routine. -/
def boxSpec (name : String) (routine : Routine Unit Unit) : DefinitionSpec (Routine Unit Unit) where
  name
  declarations := [("y", .output (.uint 8)), ("build", .generator routine .unknown)]

/-- A module implemented elsewhere, one with an instance of it, one with instances of both that fails for want of a
value of its output, and one that goes on after an instance of the third has failed. -/
def boxWorkspace : Workspace Unit :=
  ((do
    let leaf ← Supply.define { name := "Leaf", declarations := [("y", .output (.uint 8))] }
    let inner ← Supply.define (boxSpec "Inner" (do
      discard (Routine.instantiate { definition := leaf })
      Routine.set "y" (.literal 3)))
    let broken ← Supply.define (boxSpec "Broken" (do
      discard (Routine.instantiate { definition := leaf })
      discard (Routine.instantiate { definition := inner })))
    Supply.define (boxSpec "Outer" (do
      discard (Program.attempt (Routine.instantiate { definition := broken }))
      discard (Routine.instantiate { definition := leaf })
      Routine.set "y" (.literal 3))) : Supply Unit DefId).apply ⟨{}, ()⟩).2

/-- The world in which the outer module is being built and the instance in it has failed. -/
def mended : World Unit :=
  ((Build.materializeWithin 3 ⟨2⟩).apply ((Build.prepare ⟨3⟩).apply ⟨boxWorkspace, .ofConfig {}⟩).2).2

/-- An instance of the leaf. -/
def placeLeaf : Build Unit Instance :=
  Build.instantiate { definition := ⟨0⟩ }

/-- The world in which there is an instance of the leaf in the outer module. -/
def filled : World Unit :=
  (placeLeaf.apply mended).2

theorem becomes_mended : World.Becomes ⟨boxWorkspace, .ofConfig {}⟩ mended := by
  obtain ⟨_, _, hprepare⟩ := Build.prepare_of_isOk (d := ⟨3⟩) (w := ⟨boxWorkspace, .ofConfig {}⟩)
    (by decide +kernel)
  exact .tail (.single (.prepare hprepare)) (.make (.within 3))

end Sample

/-- A second instance of the leaf in the outer module is told apart from the first one by its number. -/
theorem instance_numbers_apart_outer :
    Sample.mended.NumbersApart ∧
      (Sample.placeLeaf.apply Sample.mended).1.map (·.id) = .ok ⟨1⟩ ∧
      (Sample.placeLeaf.apply Sample.filled).1.map (·.id) = .ok ⟨2⟩ ∧
      ∀ id ∈ Sample.mended.session.points, Sample.filled.session.design.IsLive id := by
  refine ⟨instance_numbers_apart Sample.becomes_mended, by decide +kernel, by decide +kernel, ?_⟩
  have hpoints : Sample.mended.session.points = [⟨0⟩] := by decide +kernel
  have hlive : (Sample.filled.session.design.module? ⟨0⟩).isSome = true := by decide +kernel
  rw [hpoints]
  exact List.forall_mem_singleton.mpr (Option.isSome_iff_exists.mp hlive)

/-- The leaf within the inner module stays although the module around it has failed, and the leaf that is placed then
in the outer module is given the same number. -/
theorem instance_number_given_twice :
    World.Becomes ⟨Sample.boxWorkspace, .ofConfig {}⟩ Sample.filled ∧
      Sample.mended.session.instances.map (fun r => (r.id, r.parent)) = [(⟨1⟩, ⟨3⟩)] ∧
      (Sample.placeLeaf.apply Sample.mended).1.map (·.id) = .ok ⟨1⟩ ∧
      Sample.filled.session.instances.map (fun r => (r.id, r.parent)) = [(⟨1⟩, ⟨3⟩), (⟨1⟩, ⟨0⟩)] :=
  ⟨.tail Sample.becomes_mended (.instantiate _), by decide +kernel⟩

end Wirework
