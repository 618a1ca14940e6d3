import Wirework.Design.Edit
import Wirework.Proofs.Design.Structure
import Wirework.Proofs.Design.Traversal

/-! # What an image depicts

`d.Depicts os locals ops` says that the operations `ops` of an image depict the operations `os` of the design `d`,
where the image knows the values `locals` by their positions.  Taking an image is exactly finding operations that
depict a body (`imageOps_eq_ok_iff`), and a body in which every operand is defined before its use is always depicted
by some (`exists_depicts`).

So the images of modules are those that show them (`Design.Shows`): they have their headers, and the parameters that
an external module declares or operations that depict the body (`image_eq_ok_iff`).  A module shows one image only, as
operations are determined by what they depict.

What an image refers to stays when more is added to the tables (`Enlarges`). -/

namespace Wirework

/-- The image of a module with the given contents. -/
def HwModule.imageWith (m : HwModule) (contents : ImageContents) : ModuleImage where
  symbol := m.symbol
  inputs := m.inputs
  outputs := m.outputs
  attributes := m.attributes
  location := m.location
  contents := contents

namespace Design

variable {d d' : Design}

/-! ### Look-ups -/

theorem imageCallee_eq_ok_iff {id : ModuleId} {symbol : String} :
    d.imageCallee id = .ok symbol ↔ d.symbolOf? id = some symbol := by
  unfold imageCallee symbolOf?
  rw [bind_eq_ok_iff, Option.map_eq_some_iff]
  simp only [pure_eq_ok_iff, getModule_eq_ok_iff]

theorem imageValue_eq_ok_iff {locals : List ValueId} {v : ValueId} {position : Nat} :
    imageValue locals v = .ok position ↔ locals.idxOf? v = some position := by
  unfold imageValue
  cases locals.idxOf? v <;> simp

/-! ### Depiction -/

/-- Operations of an image depict operations of a design. -/
inductive Depicts (d : Design) : List OpId → List ValueId → List ImageOp → Prop
  | nil (locals : List ValueId) : d.Depicts [] locals []
  | cons {o : OpId} {op : Op} {os : List OpId} {locals : List ValueId} {copied : ImageOp}
      {ops : List ImageOp} (found : d.op? o = some op)
      (operation : op.operation.Corresponds (fun id symbol => d.symbolOf? id = some symbol)
        (fun v position => locals.idxOf? v = some position) copied.operation)
      (types : List.Forall₂ (fun v type => d.typeOf? v = some type) op.results copied.resultTypes)
      (attributes : copied.attributes = op.attributes) (location : copied.location = op.location)
      (rest : d.Depicts os (locals ++ op.results) ops) : d.Depicts (o :: os) locals (copied :: ops)

theorem resultTypes_eq_ok_iff {results : List ValueId} {types : List HwType} :
    (results.mapM fun value => return (← d.getValue value).type) = Except.ok types ↔
      List.Forall₂ (fun v type => d.typeOf? v = some type) results types := by
  rw [mapM_eq_ok_iff]
  unfold typeOf?
  simp only [bind_eq_ok_iff, pure_eq_ok_iff, getValue_eq_ok_iff, Option.map_eq_some_iff]

/-- An image shows exactly the operations that depict the body. -/
theorem imageOps_eq_ok_iff {os : List OpId} {locals : List ValueId} {ops : List ImageOp} :
    d.imageOps os locals = .ok ops ↔ d.Depicts os locals ops := by
  induction os generalizing locals ops with
  | nil =>
      unfold imageOps
      rw [pure_eq_ok_iff]
      constructor
      · rintro rfl
        exact .nil locals
      · intro h
        cases h
        rfl
  | cons o os ih =>
      unfold imageOps
      simp only [bind_eq_ok_iff, pure_eq_ok_iff, getOp_eq_ok_iff, Operation.traverse_eq_ok_iff,
        imageCallee_eq_ok_iff, imageValue_eq_ok_iff, resultTypes_eq_ok_iff, ih]
      constructor
      · rintro ⟨op, hop, operation, hoperation, types, htypes, rest, hrest, rfl⟩
        exact .cons hop hoperation htypes rfl rfl hrest
      · intro h
        cases h with
        | @cons _ op _ _ copied rest found operation types attributes location hrest =>
            obtain ⟨operation', types', attributes', location'⟩ := copied
            obtain rfl : attributes' = op.attributes := attributes
            obtain rfl : location' = op.location := location
            exact ⟨op, found, _, operation, _, types, rest, hrest, rfl⟩

/-! ### Bodies that can be depicted -/

theorem DefinedBefore.of_succ {body : Body} {k : Nat} {v : ValueId}
    (h : d.DefinedBefore body (k + 1) v) : d.DefinedBefore body k v ∨
      ∃ o op, body.ops[k]? = some o ∧ d.op? o = some op ∧ v ∈ op.results := by
  rcases h with h | ⟨j, hj, o, op, hget, hop, hv⟩
  · exact Or.inl (Or.inl h)
  · rcases Nat.lt_or_eq_of_le (Nat.le_of_lt_succ hj) with hj | rfl
    · exact Or.inl (Or.inr ⟨j, hj, o, op, hget, hop, hv⟩)
    · exact Or.inr ⟨o, op, hget, hop, hv⟩

/-- An operation of a body whose operands have positions is depicted by an operation of an image. -/
theorem exists_imageOp (h : d.Linked) {m : HwModule} {body : Body} (hbody : m.body? = some body)
    (hlive : ∀ c ∈ d.callees m, d.IsLive c) {o : OpId} {op : Op} (ho : o ∈ body.ops)
    (hop : d.op? o = some op) {locals : List ValueId}
    (hoperand : ∀ v ∈ op.operation.operands, ∃ position, locals.idxOf? v = some position) :
    ∃ copied : ImageOp, ∀ os ops, d.Depicts os (locals ++ op.results) ops →
      d.Depicts (o :: os) locals (copied :: ops) := by
  have hcallee : ∀ c, op.operation.callee? = some c → ∃ symbol, d.symbolOf? c = some symbol := by
    intro c hc
    obtain ⟨callee, hcallee⟩ := hlive c (mem_callees.mpr ⟨body, o, op, hbody, ho, hop, hc⟩)
    exact ⟨callee.symbol, symbolOf?_eq_some_iff.mpr ⟨callee, hcallee, rfl⟩⟩
  have htyped : ∀ v ∈ op.results, ∃ type, d.typeOf? v = some type := by
    intro v hv
    obtain ⟨i, hi⟩ := List.getElem?_of_mem hv
    obtain ⟨type, hvalue⟩ := h.result_defined o op i v hop hi
    exact ⟨type, congrArg (Option.map _) hvalue⟩
  obtain ⟨operation, hoperation⟩ := op.operation.exists_corresponds hcallee hoperand
  obtain ⟨types, htypes⟩ := exists_forall₂ htyped
  exact ⟨⟨operation, types, op.attributes, op.location⟩, fun os ops hops =>
    .cons hop hoperation htypes rfl rfl hops⟩

/-- Operands that are defined before their use have positions in the image. -/
theorem exists_depicts_suffix (h : d.Linked) {id : ModuleId} {m : HwModule} {body : Body}
    (hm : d.module? id = some m) (hbody : m.body? = some body)
    (hlive : ∀ c ∈ d.callees m, d.IsLive c) (before after : List OpId) (locals : List ValueId)
    (hsplit : body.ops.toList = before ++ after)
    (hlocals : ∀ v, d.DefinedBefore body before.length v → v ∈ locals) :
    ∃ ops, d.Depicts after locals ops := by
  have hsound := h.bodies id m body hm hbody
  induction after generalizing before locals with
  | nil => exact ⟨[], .nil locals⟩
  | cons o after ih =>
      have hget : body.ops[before.length]? = some o := by
        rw [← Array.getElem?_toList, hsplit]
        simp
      have hmem : o ∈ body.ops := Array.mem_of_getElem? hget
      obtain ⟨op, hop, _⟩ := hsound.parent o hmem
      have hoperand : ∀ v ∈ op.operation.operands, ∃ position, locals.idxOf? v = some position := by
        intro v hv
        have hdefined := hlocals v (hsound.dominated before.length o op hget hop v hv)
        exact Option.isSome_iff_exists.mp (by simpa using hdefined)
      have hlocals' : ∀ v, d.DefinedBefore body (before ++ [o]).length v →
          v ∈ locals ++ op.results := by
        intro v hv
        rw [List.length_append] at hv
        rw [List.mem_append]
        refine hv.of_succ.imp (hlocals v) fun ⟨o', op', hget', hop', hv⟩ => ?_
        rw [hget] at hget'
        obtain rfl := Option.some.inj hget'
        rw [hop] at hop'
        exact Option.some.inj hop' ▸ hv
      obtain ⟨copied, hcopied⟩ := exists_imageOp h hbody hlive hmem hop hoperand
      obtain ⟨ops, hops⟩ := ih (before ++ [o]) (locals ++ op.results) (by simp [hsplit]) hlocals'
      exact ⟨copied :: ops, hcopied after ops hops⟩

/-- The body of a module whose callees are live is depicted by some operations. -/
theorem exists_depicts (h : d.Linked) {id : ModuleId} {m : HwModule} {body : Body}
    (hm : d.module? id = some m) (hbody : m.body? = some body)
    (hlive : ∀ c ∈ d.callees m, d.IsLive c) :
    ∃ ops, d.Depicts body.ops.toList body.arguments ops := by
  refine exists_depicts_suffix h hm hbody hlive [] body.ops.toList body.arguments rfl fun v hv => ?_
  rcases hv with hv | ⟨j, hj, _⟩
  · exact hv
  · exact absurd hj (Nat.not_lt_zero j)

/-! ### Images of modules -/

theorem image_external {id : ModuleId} {m : HwModule} {parameters : List ParameterDecl}
    (hm : d.module? id = some m) (hkind : m.kind = .external parameters) :
    d.image id = .ok (m.imageWith (.external parameters)) := by
  refine bind_eq_ok_iff.mpr ⟨m, getModule_eq_ok_iff.mpr hm, ?_⟩
  rw [hkind]
  rfl

theorem image_complete {id : ModuleId} {m : HwModule} {body : Body} {ops : List ImageOp}
    (hm : d.module? id = some m) (hbody : m.body? = some body) (hterminated : body.terminated = true)
    (hops : d.Depicts body.ops.toList body.arguments ops) :
    d.image id = .ok (m.imageWith (.body ops)) := by
  refine bind_eq_ok_iff.mpr ⟨m, getModule_eq_ok_iff.mpr hm, ?_⟩
  rw [HwModule.body?_eq_some_iff.mp hbody]
  simp only [hterminated, if_true, imageOps_eq_ok_iff.mpr hops]
  rfl

/-- The image shows the module: its header, and the parameters that it declares or operations that depict its body. -/
inductive Shows (d : Design) (m : HwModule) : ModuleImage → Prop
  | external {parameters : List ParameterDecl} (kind : m.kind = .external parameters) :
      d.Shows m (m.imageWith (.external parameters))
  | complete {body : Body} {ops : List ImageOp} (begun : m.body? = some body) (terminated : body.terminated = true)
      (depicted : d.Depicts body.ops.toList body.arguments ops) : d.Shows m (m.imageWith (.body ops))

/-- The image of a module is what shows it. -/
theorem image_eq_ok_iff {id : ModuleId} {image : ModuleImage} :
    d.image id = .ok image ↔ ∃ m, d.module? id = some m ∧ d.Shows m image := by
  constructor
  case mpr =>
    rintro ⟨m, hm, hshows⟩
    cases hshows with
    | external kind => exact image_external hm kind
    | complete begun terminated depicted => exact image_complete hm begun terminated depicted
  case mp =>
    intro h
    obtain ⟨m, hm, h⟩ := bind_eq_ok_iff.mp h
    refine ⟨m, getModule_eq_ok_iff.mp hm, ?_⟩
    rcases hkind : m.kind with (_ | body) | parameters <;> simp only [hkind] at h
    case generated.none => cases h
    case external =>
      obtain rfl := pure_eq_ok_iff.mp h
      exact .external hkind
    case generated.some =>
      by_cases hterminated : body.terminated = true
      · rw [if_pos hterminated] at h
        obtain ⟨contents, hcontents, h⟩ := bind_eq_ok_iff.mp h
        obtain rfl := pure_eq_ok_iff.mp h
        cases hops : d.imageOps body.ops.toList body.arguments with
        | error e =>
            rw [hops] at hcontents
            cases hcontents
        | ok ops =>
            rw [hops] at hcontents
            cases hcontents
            exact .complete (HwModule.body?_eq_some_iff.mpr hkind) hterminated (imageOps_eq_ok_iff.mp hops)
      · rw [if_neg hterminated] at h
        cases h

theorem exists_imageWith {id : ModuleId} {image : ModuleImage} (h : d.image id = .ok image) :
    ∃ m contents, d.module? id = some m ∧ image = m.imageWith contents := by
  obtain ⟨m, hm, hshows⟩ := image_eq_ok_iff.mp h
  cases hshows <;> exact ⟨m, _, hm, rfl⟩

/-! ### More tables -/

/-- In `d'` there is all of `d`, and no module has another header. -/
structure Enlarges (d d' : Design) : Prop where
  header : ∀ id, d'.header? id = d.header? id
  op : ∀ o op, d.op? o = some op → d'.op? o = some op
  value : ∀ v value, d.value? v = some value → d'.value? v = some value

theorem Enlarges.trans {d'' : Design} (h : d.Enlarges d') (h' : d'.Enlarges d'') :
    d.Enlarges d'' where
  header id := (h'.header id).trans (h.header id)
  op o op hop := h'.op o op (h.op o op hop)
  value v value hv := h'.value v value (h.value v value hv)

theorem Enlarges.symbolOf? (h : d.Enlarges d') (id : ModuleId) :
    d'.symbolOf? id = d.symbolOf? id :=
  symbolOf?_of_header? (h.header id)

theorem Enlarges.typeOf? (h : d.Enlarges d') {v : ValueId} {type : HwType}
    (hv : d.typeOf? v = some type) : d'.typeOf? v = some type := by
  obtain ⟨value, hvalue, rfl⟩ := Option.map_eq_some_iff.mp hv
  exact Option.map_eq_some_iff.mpr ⟨value, h.value v value hvalue, rfl⟩

theorem Enlarges.yields (h : d.Enlarges d') {o : OpId} {types : List HwType} (hyields : d.Yields o types) :
    d'.Yields o types := by
  obtain ⟨op, hop, hresults⟩ := hyields
  exact ⟨op, h.op o op hop, hresults.imp fun _ _ hv => h.typeOf? hv⟩

theorem Appends.enlarges {parent : ModuleId} {operation : Operation ModuleId ValueId}
    (h : d.Appends parent operation d') : d.Enlarges d' where
  header := h.header?_eq
  op _ _ hop := h.op?_old hop
  value _ _ hv := h.value?_old hv

theorem enlarges_beginBody (d : Design) (id : ModuleId) (m : HwModule) :
    d.Enlarges (d.beginBody id m) where
  header := header?_beginBody d id m
  op _ _ hop := hop
  value := (retains_beginBody d id m).value

end Design

end Wirework
