import Wirework.Proofs.Engine.Placing
import Wirework.Proofs.Session.Moves

/-! # What an instance puts into a body

Once the connections of an instance have been accepted and its module has been made, constants are appended for
numbers and unconnected inputs (`Build.inputValues_apply`), and then the instance itself
(`Build.insertInstance_cases`).

Only two things can go wrong by then: an operand belongs to another body, and the instance is not appended, or the
instance is appended and fails the check (`Build.emit_refused`).  Neither takes back what has been appended before.

The body is known to be unfinished and at the insertion point (`Building`), so appending a constant is never refused
(`insertConstant_holds`), and the inputs are made by induction on the ports.  The steps that follow are given names
(`recordInstance`, `insertInstance`, `emitInstance`), from the last to the first, and placing an instance is shown to
end with them (`placeInstance_eq`). -/

namespace Wirework

open Step

/-! ### A body that is being built -/

namespace Design

variable {d d' : Design} {id : ModuleId} {operation : Operation ModuleId ValueId}

/-- The module is the one at the insertion point, and its body is unfinished. -/
structure Building (d : Design) (id : ModuleId) : Prop where
  here : d.scopes.insertionPoint? = some id
  unfinished : ∃ m body, d.module? id = some m ∧ m.body? = some body ∧ body.terminated = false

theorem Building.appends (h : d.Building id) (happ : d.Appends id operation d')
    (hgoes : operation.isTerminator = false) : d'.Building id := by
  obtain ⟨m, body, _, _, _, hm'⟩ := happ.module?_self
  exact ⟨(congrArg Scopes.insertionPoint? happ.scopes_eq).trans h.here, _, _, hm', rfl, hgoes⟩

/-- Constants have been appended to the body of the module. -/
abbrev AddsConstants (id : ModuleId) : Design → Design → Prop :=
  Relation.ReflTransGen fun d d' => ∃ c, d.Appends id (.constant c) d'

theorem AddsConstants.building (h : AddsConstants id d d') (hd : d.Building id) :
    d'.Building id := by
  induction h with
  | refl => exact hd
  | tail _ hstep ih =>
      obtain ⟨c, happ⟩ := hstep
      exact ih.appends happ rfl

theorem AddsConstants.retains (h : AddsConstants id d d') : d.Retains d' := by
  induction h with
  | refl => exact refl_of Retains _
  | tail _ hstep ih =>
      obtain ⟨c, happ⟩ := hstep
      exact trans_of Retains ih happ.retains

theorem AddsConstants.header?_eq (h : AddsConstants id d d') (j : ModuleId) :
    d'.header? j = d.header? j := by
  induction h with
  | refl => rfl
  | tail _ hstep ih =>
      obtain ⟨c, happ⟩ := hstep
      exact (happ.header?_eq j).trans ih

/-- The operation is the constant of a type and a number, and `v` is its result, which has the type. -/
structure Holds (d : Design) (o : OpId) (type : HwType) (number : Int) (v : ValueId) : Prop where
  op : ∃ op c, d.op? o = some op ∧ op.operation = .constant c ∧ c.type = type ∧ c.value = number ∧
    op.results = [v]
  typed : d.typeOf? v = some type

theorem Holds.retained {o : OpId} {type : HwType} {number : Int} {v : ValueId} (h : d.Holds o type number v)
    (hr : d.Retains d') : d'.Holds o type number v := by
  obtain ⟨⟨op, c, hop, hoperation, htype, hvalue, hresults⟩, htyped⟩ := h
  obtain ⟨op', hop', _, hoperation', hresults'⟩ := hr.op o op hop
  exact ⟨⟨op', c, hop', hoperation'.trans hoperation, htype, hvalue, hresults'.trans hresults⟩,
    hr.typeOf?_eq htyped⟩

end Design

theorem Session.Coherent.building {s : Session} (h : s.Coherent) {id : ModuleId}
    (here : s.here? = some id) : s.design.Building id :=
  ⟨here, h.stacked.unfinished id (Coherent.mem_of_here? here)⟩

namespace Edit

variable {d : Design} {id : ModuleId}

theorem insertOp_apply {operation : Operation ModuleId ValueId} (h : d.Building id)
    (owned : ∀ v ∈ operation.operands, d.owner? v = some id) (types : List HwType)
    (location? : Option Location) :
    ∃ m body, d.module? id = some m ∧ m.body? = some body ∧ body.terminated = false ∧
      (insertOp operation types location?).apply d = (.ok d.nextOp,
        d.append id body operation types .empty (location?.getD d.scopes.location)) := by
  obtain ⟨m, body, hm, hbody, hunfinished⟩ := h.unfinished
  refine ⟨m, body, hm, hbody, hunfinished, ?_⟩
  unfold insertOp
  simp only [apply_bind, apply_get, h.here]
  exact appendOp_apply hm hbody hunfinished owned types .empty _

/-- An operation with one result on values of a body is appended to it, and the result is the next value. -/
theorem insertValue_apply {operation : Operation ModuleId ValueId} (h : d.Building id)
    (owned : ∀ v ∈ operation.operands, d.owner? v = some id) (type : HwType) :
    ∃ m body, d.module? id = some m ∧ m.body? = some body ∧ body.terminated = false ∧
      (insertValue operation type).apply d = (.ok ⟨⟨d.values.size⟩, type⟩,
        d.append id body operation [type] .empty d.scopes.location) := by
  obtain ⟨m, body, hm, hbody, hunfinished, happly⟩ := insertOp_apply h owned [type] none
  refine ⟨m, body, hm, hbody, hunfinished, ?_⟩
  let d' := d.append id body operation [type] .empty d.scopes.location
  have hop : d'.op? d.nextOp = _ := d.op?_append_next id body operation [type] .empty _
  have htype : d'.typeOf? ⟨d.values.size⟩ = some type := by
    have htypes : List.Forall₂ (fun type v => d'.typeOf? v = some type) [type] (d.nextValues 1) :=
      Design.typeOf?_nextValues rfl
    exact (List.forall₂_cons.mp htypes).1
  have hsignal : d'.signal ⟨d.values.size⟩ = .ok ⟨⟨d.values.size⟩, type⟩ :=
    Design.signal_eq_ok_iff.mpr ⟨htype, rfl⟩
  have hresult : d'.result d.nextOp 0 = .ok ⟨⟨d.values.size⟩, type⟩ := by
    unfold Design.result
    rw [Design.getOp_eq_ok_iff.mpr hop]
    exact hsignal
  unfold insertValue
  rw [apply_bind, happly]
  exact congrArg (·, d') hresult

/-- A constant that is inserted into a body is its next operation, and the signal is its result. -/
theorem insertConstant_holds (h : d.Building id) (c : Constant) :
    ∃ s d', (insertValue (.constant c) c.type).apply d = (.ok s, d') ∧ d.Appends id (.constant c) d' ∧
      s.type = c.type ∧ d'.Holds d.nextOp c.type c.value s.value ∧ d'.owner? s.value = some id := by
  have owned : ∀ v ∈ (Operation.constant c : Operation ModuleId ValueId).operands,
      d.owner? v = some id := fun v hv => absurd hv List.not_mem_nil
  obtain ⟨m, body, hm, hbody, hunfinished, happly⟩ := insertValue_apply h owned c.type
  let d' := d.append id body (.constant c) [c.type] .empty d.scopes.location
  have hop : d'.op? d.nextOp = _ := d.op?_append_next id body (.constant c) [c.type] .empty _
  have hvalue : d'.value? ⟨d.values.size⟩ = some ⟨c.type, .result d.nextOp 0⟩ := by
    have hvalues : d'.values = d.values ++
        [c.type].mapIdx fun index type => Value.mk type (.result d.nextOp index) := rfl
    rw [Design.value?_newValues hvalues, if_neg (Nat.lt_irrefl _), Nat.sub_self]
    rfl
  refine ⟨⟨⟨d.values.size⟩, c.type⟩, d', happly, .intro hm hbody hunfinished owned _ _ _, rfl, ⟨?_, ?_⟩, ?_⟩
  · exact ⟨_, c, hop, rfl, rfl, rfl, rfl⟩
  · exact Design.typeOf?_eq_some_iff.mpr ⟨_, hvalue, rfl⟩
  · unfold Design.owner?
    rw [hvalue, Option.bind_some]
    exact Option.map_eq_some_iff.mpr ⟨_, hop, rfl⟩

theorem instantiate_apply {module : ModuleId} {callee : HwModule} (h : d.Building id)
    (hcallee : d.module? module = some callee) (name : String) {inputs : List ValueId}
    (owned : ∀ v ∈ inputs, d.owner? v = some id) (parameters : AttributeMap) (location : Location) :
    ∃ m body, d.module? id = some m ∧ m.body? = some body ∧ body.terminated = false ∧
      (instantiate module name inputs parameters location).apply d = (.ok d.nextOp,
        d.append id body (.instantiate module name inputs parameters) (callee.outputs.map (·.type)) .empty
          location) := by
  have owned' : ∀ v ∈ (Operation.instantiate module name inputs parameters).operands,
      d.owner? v = some id := owned
  obtain ⟨m, body, hm, hbody, hunfinished, happly⟩ :=
    insertOp_apply h owned' (callee.outputs.map (·.type)) location
  refine ⟨m, body, hm, hbody, hunfinished, ?_⟩
  unfold instantiate
  simp only [apply_bind, apply_query, Design.getModule_eq_ok_iff.mpr hcallee]
  exact happly

end Edit

/-! ### The inputs of an instance -/

/-- The number that stands for a connection which is no signal. -/
def Connection.number? : Connection → Option Int
  | .signal _ => none
  | .literal value => some value
  | .absent => some 0

/-- The value is that of the signal or, if the connection is none, a new one of the type of the port. -/
def Connection.Supplies (d : Design) (id : ModuleId) (port : PortSpec) :
    Connection → ValueId → Prop
  | .signal s, v => v = s.value
  | _, v => d.typeOf? v = some port.type ∧ d.owner? v = some id

theorem Connection.Supplies.retained {d d' : Design} {id : ModuleId} {port : PortSpec}
    {connection : Connection} {v : ValueId} (h : connection.Supplies d id port v)
    (hr : d.Retains d') : connection.Supplies d' id port v := by
  cases connection with
  | signal s => exact h
  | literal | absent => exact ⟨hr.typeOf?_eq h.1, hr.owner?_eq h.2⟩

namespace Build

open Design

variable {d : Design} {id : ModuleId}

/-- An input that is bound to no signal is supplied by a constant, which is appended for it. -/
theorem inputValue_number (h : d.Building id) {port : PortSpec} {connection : Connection} {number : Int}
    (accepted : connection.Accepted port) (stands : connection.number? = some number) :
    ∃ v c d', (inputValue port connection).apply d = (.ok v, d') ∧ d.Appends id (.constant c) d' ∧
      d'.Holds d.nextOp port.type number v ∧ d'.owner? v = some id := by
  cases connection with
  | signal s => cases stands
  | literal value =>
      obtain rfl := Option.some.inj stands
      obtain ⟨s, d', happly, happ, -, hholds⟩ := Edit.insertConstant_holds h ⟨value, port.type, accepted.fits⟩
      refine ⟨s.value, _, d', ?_, happ, hholds⟩
      have hfound : Constant.ofInt? port.type value = some ⟨value, port.type, accepted.fits⟩ :=
        Constant.ofInt?_eq_some_iff.mpr ⟨rfl, rfl⟩
      unfold inputValue Edit.constant
      simp only [hfound, apply_bind, happly, apply_pure]
  | absent =>
      obtain rfl := Option.some.inj stands
      obtain ⟨s, d', happly, happ, -, hholds⟩ := Edit.insertConstant_holds h (.zero port.type)
      refine ⟨s.value, _, d', ?_, happ, hholds⟩
      have happly : (Edit.insertValue (.constant (.zero port.type)) port.type).apply d = (.ok s, d') := happly
      unfold inputValue Edit.zero
      simp only [apply_bind, happly, apply_pure]

theorem inputValue_apply (h : d.Building id) {port : PortSpec} {connection : Connection}
    (accepted : connection.Accepted port) :
    ∃ v d', (inputValue port connection).apply d = (.ok v, d') ∧ AddsConstants id d d' ∧
      connection.Supplies d' id port v ∧ ((∃ s, connection = .signal s) → d' = d) := by
  cases hnumber : connection.number? with
  | some number =>
      obtain ⟨v, c, d', happly, happ, hholds, howner⟩ := inputValue_number h accepted hnumber
      have hsupplies : connection.Supplies d' id port v := by
        cases connection with
        | signal s => cases hnumber
        | literal | absent => exact ⟨hholds.typed, howner⟩
      refine ⟨v, d', happly, .single ⟨c, happ⟩, hsupplies, ?_⟩
      rintro ⟨_, rfl⟩
      cases hnumber
  | none =>
      cases connection with
      | signal s => exact ⟨s.value, d, rfl, .refl, rfl, fun _ => rfl⟩
      | literal | absent => cases hnumber

/-- The inputs of an instance are made one after the other, and none is refused. -/
theorem inputValues_apply (h : d.Building id) {connections : List (PortSpec × Connection)}
    (accepted : ∀ entry ∈ connections, entry.2.Accepted entry.1) :
    ∃ inputs d', (connections.mapM fun (port, connection) => inputValue port connection).apply d =
        (.ok inputs, d') ∧ AddsConstants id d d' ∧
      List.Forall₂ (fun entry v => entry.2.Supplies d' id entry.1 v) connections inputs ∧
      ((∀ entry ∈ connections, ∃ s, entry.2 = .signal s) → d' = d) := by
  induction connections generalizing d with
  | nil => exact ⟨[], d, by rw [List.mapM_nil, apply_pure], .refl, .nil, fun _ => rfl⟩
  | cons entry connections ih =>
      obtain ⟨v, d₁, happly, hadds, hv, hsame⟩ :=
        inputValue_apply h (accepted entry List.mem_cons_self)
      obtain ⟨inputs, d₂, happly', hadds', hinputs, hsame'⟩ := ih (hadds.building h)
        fun entry hentry => accepted entry (List.mem_cons_of_mem _ hentry)
      refine ⟨v :: inputs, d₂, ?_, hadds.trans hadds', ?_, fun hall => ?_⟩
      · rw [List.mapM_cons]
        simp only [apply_bind, happly, happly', apply_pure]
      · exact .cons (hv.retained hadds'.retains) hinputs
      · rw [hsame' fun entry hentry => hall entry (List.mem_cons_of_mem _ hentry),
          hsame (hall entry List.mem_cons_self)]

/-! ### The instance itself -/

variable {σ : Type}

/-- The last steps of placing an instance that has passed the check. -/
def recordInstance (request : InstanceRequest) (name : String) (module : ModuleId) (op : OpId) :
    Build σ Instance := do
  if let some appId := request.appId then
    edit (Edit.setAttribute op "appid" appId.toAttribute)
  let results ← edit (query (·.results op))
  let id ← compile (Compile.registerInstance name module op)
  return { id, name, definition := request.definition, op, results }

/-- Inserts and checks an instance, once its inputs are given. -/
def insertInstance (request : InstanceRequest) (module : ModuleId) (name : String) (inputs : List ValueId)
    (parameters : AttributeMap) : Build σ Instance := do
  let op ← edit (Edit.instantiate module name inputs parameters request.location)
  edit (query (·.verify op))
  recordInstance request name module op

/-- The steps of placing an instance that change the body, once the module and the name of the instance are
given. -/
def emitInstance (request : InstanceRequest) (connections : List (PortSpec × Connection))
    (module : ModuleId) (name : String) : Build σ Instance := do
  let inputs ← edit (connections.mapM fun (port, connection) => inputValue port connection)
  let parameters := (← definition request.definition).instanceParameters
  insertInstance request module name inputs parameters

theorem placeInstance_eq {materialize : Materializer σ} {request : InstanceRequest} :
    placeInstance materialize request = (do
      let d ← Build.definition request.definition
      unless (← get).session.hasBlock do
        throw .noActiveScope
      let connections ← ofOutcome (d.bindInputs request.bindings)
      let module ← materialize request.definition
      let name ← compile (Compile.uniquifyInstanceName (request.name.getD d.instanceName))
      emitInstance request connections module name) :=
  rfl

/-- The stages of placing an instance: nothing has happened, or its module could not be made, or else it has come to
the steps that change the body, and to their outcome. -/
theorem placeInstance_cases {materialize : Materializer σ} {request : InstanceRequest} {w w' : World σ}
    {definition : Definition (Routine σ Unit)} {outcome : Except BuildError Instance} (hm : materialize.Sound)
    (hw : w.session.Coherent)
    (hd : w.workspace.library.getDefinition request.definition = .ok definition)
    (h : (placeInstance materialize request).apply w = (outcome, w')) :
    (∃ e, outcome = .error e) ∧ w' = w ∨
      ∃ connections, definition.bindInputs request.bindings = .ok connections ∧
        ((∃ e, (materialize request.definition).apply w = (.error e, w') ∧ outcome = .error e) ∨
          ∃ module w₁ block outer name block', (materialize request.definition).apply w = (.ok module, w₁) ∧
            w₁.session.blocks = block :: outer ∧
            block.uniquify (request.name.getD definition.instanceName) = (name, block') ∧
            (emitInstance request connections module name).apply
              { w₁ with session := { w₁.session with blocks := block' :: outer } } = (outcome, w')) := by
  rw [placeInstance_eq] at h
  simp only [apply_bind, apply_definition, hd, apply_get] at h
  cases hblocks : w.session.blocks with
  | nil =>
      have hnone : ¬ w.session.hasBlock = true := by
        unfold Session.hasBlock
        simp [hblocks]
      simp only [if_neg hnone, apply_bind, apply_throw] at h
      obtain ⟨rfl, rfl⟩ := Prod.mk.inj h
      exact .inl ⟨⟨_, rfl⟩, rfl⟩
  | cons block outer =>
      have hsome : w.session.hasBlock = true := by
        unfold Session.hasBlock
        simp [hblocks]
      simp only [if_pos hsome, apply_bind, apply_ofOutcome] at h
      cases hbind : definition.bindInputs request.bindings with
      | error e' =>
          rw [hbind] at h
          obtain ⟨rfl, rfl⟩ := Prod.mk.inj h
          exact .inl ⟨⟨_, rfl⟩, rfl⟩
      | ok connections =>
          refine .inr ⟨connections, rfl, ?_⟩
          simp only [hbind] at h
          rcases hmade : (materialize request.definition).apply w with ⟨e' | module, w₁⟩
          · rw [hmade] at h
            obtain ⟨rfl, rfl⟩ := Prod.mk.inj h
            exact .inl ⟨e', rfl, rfl⟩
          · rw [hmade] at h
            obtain ⟨_, _, hdoes⟩ := (hm request.definition w hw).does
            rw [hmade] at hdoes
            have hblocks₁ : w₁.session.blocks = block :: outer :=
              hdoes.keeps.blocks_eq.trans hblocks
            have hname := uniquifyInstanceName_apply
              (request.name.getD definition.instanceName) hblocks₁
            simp only [hname] at h
            exact .inr ⟨module, w₁, block, outer, _, _, rfl, hblocks₁, rfl, h⟩

/-- The attributes that the operation of an instance is given. -/
def attributesOf (request : InstanceRequest) : AttributeMap :=
  match request.appId with
  | none => .empty
  | some appId => Dict.empty.insert "appid" appId.toAttribute

/-- The session with a record of the instance that its next operation is, in the design that has it. -/
def addInstance (s : Session) (parent module : ModuleId) (name : String) (design : Design) : Session :=
  { s with
    design
    instances := s.instances ++ [⟨⟨s.instances.length⟩, name, module, parent, s.design.nextOp⟩] }

/-- The instance that the next operation of the session is. -/
def nextInstance (s : Session) (request : InstanceRequest) (name : String) (types : List HwType) :
    Instance where
  id := ⟨s.instances.length⟩
  name
  definition := request.definition
  op := s.design.nextOp
  results := s.design.nextSignals types

/-- Recording the instance that has just been appended goes on with its body. -/
theorem edits_addInstance {s : Session} {m : HwModule} (here : s.here? = some id)
    (hm : s.design.module? id = some m) {module : ModuleId} (made : s.Made module) (body : Body) (name : String)
    (inputs : List ValueId) (parameters : AttributeMap) (types : List HwType) (attributes : AttributeMap)
    (location : Location) :
    let design := s.design.append id body (.instantiate module name inputs parameters) types attributes location
    Session.Edits { s with design } (addInstance s id module name design) := by
  intro design
  have hself : design.module? id = some { m with
      kind := .generated (some (body.extend s.design.nextOp (.instantiate module name inputs parameters))) } := by
    rw [Design.module?_append, if_pos rfl, hm]
    rfl
  let record : InstanceRecord := ⟨⟨s.instances.length⟩, name, module, id, s.design.nextOp⟩
  have hedits : Session.Edits { s with design } { s with design, instances := s.instances ++ [record] } :=
    .register here (s.design.op?_append_next id body _ types attributes location) rfl
      ⟨inputs, parameters, rfl⟩ hself rfl Array.mem_push_self made rfl
  exact hedits

section record

variable (request : InstanceRequest) (name : String) (module : ModuleId) {w : World σ} (body : Body)
  (operation : Operation ModuleId ValueId) (types : List HwType) (location : Location)

theorem setAttribute_append (d : Design) (name : String) (value : Attribute) :
    (Edit.setAttribute d.nextOp name value).apply (d.append id body operation types .empty location) =
      (.ok ⟨⟩, d.append id body operation types (Dict.empty.insert name value) location) := by
  have hop := d.op?_append_next id body operation types .empty location
  unfold Edit.setAttribute
  simp only [apply_bind, apply_get, apply_query, getOp_eq_ok_iff.mpr hop, apply_set]
  unfold Design.append nextOp nextValues
  simp [Array.setIfInBounds, Array.set_push]

theorem registerInstance_append (here : w.session.here? = some id) (attributes : AttributeMap) :
    let design := w.session.design.append id body operation types attributes location
    (do
      let results ← edit (query (·.results w.session.design.nextOp))
      let id ← compile (Compile.registerInstance name module w.session.design.nextOp)
      return { id, name, definition := request.definition, op := w.session.design.nextOp, results } :
      Build σ Instance).apply { w with session := { w.session with design } } =
      (.ok (nextInstance w.session request name types),
        { w with session := addInstance w.session id module name design }) := by
  intro design
  have hresults : design.results w.session.design.nextOp = _ :=
    w.session.design.results_append id body operation types attributes location
  have hpoint : design.scopes.insertionPoint? = some id := here
  generalize design = design at hresults hpoint ⊢
  have hquery : (edit (query (·.results w.session.design.nextOp)) : Build σ (List Signal)).apply
      { w with session := { w.session with design } } =
        (.ok (w.session.design.nextSignals types), { w with session := { w.session with design } }) :=
    edit_apply_ok (by rw [apply_query, hresults])
  unfold Compile.registerInstance compile
  simp only [apply_bind, hquery, apply_zoom, apply_get, hpoint, apply_set, apply_pure]
  rfl

theorem recordInstance_apply (here : w.session.here? = some id) :
    let design attributes := w.session.design.append id body operation types attributes location
    (recordInstance request name module w.session.design.nextOp).apply
        { w with session := { w.session with design := design .empty } } =
      (.ok (nextInstance w.session request name types),
        { w with session := addInstance w.session id module name (design (attributesOf request)) }) := by
  intro design
  unfold recordInstance attributesOf
  cases request.appId with
  | none => exact registerInstance_append request name module body operation types location here .empty
  | some appId =>
      rw [apply_bind, edit_apply_ok (setAttribute_append body operation types location _ _ _)]
      exact registerInstance_append request name module body operation types location here _

end record

/-- An instance of a live module on values of the body is inserted, and it is recorded just if it passes the
check. -/
theorem insertInstance_apply {w : World σ} (h : w.session.design.Building id) {module : ModuleId}
    {callee : HwModule} (hcallee : w.session.design.module? module = some callee) (request : InstanceRequest)
    (name : String) {inputs : List ValueId} (owned : ∀ v ∈ inputs, w.session.design.owner? v = some id)
    (parameters : AttributeMap) :
    let operation : Operation ModuleId ValueId := .instantiate module name inputs parameters
    let types := callee.outputs.map (·.type)
    ∃ m body, w.session.design.module? id = some m ∧ m.body? = some body ∧ body.terminated = false ∧
      let design attributes := w.session.design.append id body operation types attributes request.location
      (design .empty).Fits operation ∧
          (insertInstance request module name inputs parameters).apply w =
            (.ok (nextInstance w.session request name types),
              { w with session := addInstance w.session id module name (design (attributesOf request)) }) ∨
        ¬ (design .empty).Fits operation ∧ ∃ e,
          (insertInstance request module name inputs parameters).apply w =
            (.error e, { w with session := { w.session with design := design .empty } }) := by
  intro operation types
  obtain ⟨m, body, hm, hbody, hunfinished, hinsert⟩ :=
    Edit.instantiate_apply h hcallee name owned parameters request.location
  refine ⟨m, body, hm, hbody, hunfinished, ?_⟩
  intro design
  have owned' : ∀ v ∈ operation.operands, w.session.design.owner? v = some id := owned
  have happ : w.session.design.Appends id operation (design .empty) :=
    .intro hm hbody hunfinished owned' _ _ _
  have hop : (design .empty).op? w.session.design.nextOp = _ :=
    w.session.design.op?_append_next id body operation types .empty request.location
  have hfits : (design .empty).verify w.session.design.nextOp = .ok ⟨⟩ ↔ (design .empty).Fits operation := by
    rw [verify_eq_ok_iff hop]
    exact and_iff_right fun v hv => exists_typeOf?_of_owner? (happ.retains.owner?_eq (owned v hv))
  unfold insertInstance
  simp only [apply_bind, edit_apply_ok hinsert]
  cases hverify : (design .empty).verify w.session.design.nextOp with
  | ok _ =>
      have hquery : (edit (query (·.verify w.session.design.nextOp)) : Build σ Unit).apply
          { w with session := { w.session with design := design .empty } } = (.ok ⟨⟩, _) :=
        edit_apply_ok (by rw [apply_query, hverify])
      rw [hquery]
      exact Or.inl ⟨hfits.mp hverify,
        recordInstance_apply request name module body operation types request.location h.here⟩
  | error e =>
      have hquery : (edit (query (·.verify w.session.design.nextOp)) : Build σ Unit).apply
          { w with session := { w.session with design := design .empty } } = (.error (.ir e), _) :=
        edit_apply_error (by rw [apply_query, hverify])
      rw [hquery]
      refine Or.inr ⟨fun h => ?_, _, rfl⟩
      cases (hfits.mpr h).symm.trans hverify

/-- An instance is not inserted at all, or it is inserted into the body at the insertion point, and then recorded or
refused by the check. -/
theorem insertInstance_cases {request : InstanceRequest} {module : ModuleId} {name : String} {inputs : List ValueId}
    {parameters : AttributeMap} {outcome : Except BuildError Instance} {w w' : World σ}
    (hbuilding : ∀ id, w.session.here? = some id → w.session.design.Building id)
    (h : (insertInstance request module name inputs parameters).apply w = (outcome, w')) :
    (∃ e, outcome = .error e) ∧ w' = w ∨
      ∃ id m callee body, w.session.here? = some id ∧ w.session.design.module? id = some m ∧
        w.session.design.module? module = some callee ∧
        let operation : Operation ModuleId ValueId := .instantiate module name inputs parameters
        let types := callee.outputs.map (·.type)
        let design attributes := w.session.design.append id body operation types attributes request.location
        (∀ attributes, w.session.design.Appends id operation (design attributes)) ∧
          (outcome = .ok (nextInstance w.session request name types) ∧
              w' = { w with session := addInstance w.session id module name (design (attributesOf request)) } ∨
            (∃ e, outcome = .error e) ∧ w' = { w with session := { w.session with design := design .empty } }) := by
  rcases Edit.instantiate_cases module name inputs parameters request.location w.session.design with
    ⟨e, he⟩ | ⟨callee, id, _, hcallee, here, happ, _⟩
  · unfold insertInstance at h
    rw [apply_bind, edit_apply_error he] at h
    obtain ⟨rfl, rfl⟩ := Prod.mk.inj h
    exact .inl ⟨⟨_, rfl⟩, rfl⟩
  · obtain ⟨m, body, hm, hbody, hunfinished, hends⟩ :=
      insertInstance_apply (hbuilding id here) hcallee request name happ.owned parameters
    refine .inr ⟨id, m, callee, body, here, hm, hcallee, fun attributes =>
      .intro hm hbody hunfinished happ.owned _ attributes _, ?_⟩
    rcases hends with ⟨-, hok⟩ | ⟨-, e, he⟩
    · obtain ⟨rfl, rfl⟩ := Prod.mk.inj (hok.symm.trans h)
      exact .inl ⟨rfl, rfl⟩
    · obtain ⟨rfl, rfl⟩ := Prod.mk.inj (he.symm.trans h)
      exact .inr ⟨⟨_, rfl⟩, rfl⟩

/-- How an instance has been refused after its module had been made, in a body whose design is `d` then and `d'`
afterwards: before or after it has been appended. -/
inductive RefusedLate (id module : ModuleId) (name : String) (inputs : List ValueId) (d : Design) :
    Design → Prop
  | foreign (foreign : ¬ ∀ v ∈ inputs, d.owner? v = some id) : RefusedLate id module name inputs d d
  | unfit {parameters : AttributeMap} {d' : Design}
      (owned : ∀ v ∈ inputs, d.owner? v = some id)
      (appends : d.Appends id (.instantiate module name inputs parameters) d')
      (unfit : ¬ d'.Fits (.instantiate module name inputs parameters)) :
      RefusedLate id module name inputs d d'

theorem emit_refused {request : InstanceRequest} {connections : List (PortSpec × Connection)}
    {module : ModuleId} {name : String} {w w' : World σ} {e : BuildError}
    {definition : Definition (Routine σ Unit)} {callee : HwModule}
    (hbuilding : w.session.design.Building id)
    (hd : w.workspace.library.getDefinition request.definition = .ok definition)
    (hcallee : w.session.design.module? module = some callee)
    (accepted : ∀ entry ∈ connections, entry.2.Accepted entry.1)
    (h : (emitInstance request connections module name).apply w = (.error e, w')) :
    ∃ inputs d₁ d', AddsConstants id w.session.design d₁ ∧
      List.Forall₂ (fun entry v => entry.2.Supplies d₁ id entry.1 v) connections inputs ∧
      ((∀ entry ∈ connections, ∃ s, entry.2 = .signal s) → d₁ = w.session.design) ∧
      RefusedLate id module name inputs d₁ d' ∧
      w' = { w with session := { w.session with design := d' } } := by
  obtain ⟨inputs, d₁, happly, hadds, hinputs, hsame⟩ := inputValues_apply hbuilding accepted
  refine ⟨inputs, d₁, ?_⟩
  have hbuilding₁ := hadds.building hbuilding
  obtain ⟨callee₁, hcallee₁, _⟩ := exists_module?_of_header? (hadds.header?_eq module) hcallee
  unfold emitInstance at h
  simp only [apply_bind, edit_apply_ok happly, apply_definition, hd] at h
  let w₁ : World σ := { w with session := { w.session with design := d₁ } }
  by_cases owned : ∀ v ∈ inputs, d₁.owner? v = some id
  case neg =>
    rcases Edit.instantiate_cases module name inputs definition.instanceParameters request.location
      d₁ with ⟨e', he⟩ | ⟨_, parent, d₂, _, here, happ, _⟩
    · unfold insertInstance at h
      rw [apply_bind, edit_apply_error (w := w₁) he] at h
      exact ⟨d₁, hadds, hinputs, hsame, .foreign owned, (Prod.mk.inj h).2.symm⟩
    · obtain rfl := Option.some.inj (here.symm.trans hbuilding₁.here)
      exact absurd happ.owned owned
  case pos =>
    obtain ⟨m, body, hm, hbody, hunfinished, ⟨_, hok⟩ | ⟨hunfit, _, hrefused⟩⟩ :=
      insertInstance_apply (w := w₁) hbuilding₁ hcallee₁ request name owned definition.instanceParameters
    · cases hok.symm.trans h
    · have owned' : ∀ v ∈ (Operation.instantiate module name inputs
          definition.instanceParameters).operands, d₁.owner? v = some id := owned
      rw [hrefused] at h
      exact ⟨_, hadds, hinputs, hsame, .unfit owned (.intro hm hbody hunfinished owned' _ _ _) hunfit,
        (Prod.mk.inj h).2.symm⟩

end Build

end Wirework
