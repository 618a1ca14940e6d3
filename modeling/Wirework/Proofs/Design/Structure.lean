import Wirework.Proofs.Design.Calls

/-! # Bodies in static single assignment form

Whatever calls have built a design, the body of each of its modules is well formed (`build_wellFormed`): it
has a block argument for each input port, its operations are its own, each of them uses only values that the
body defines before it, and an operation that ends the body is the last one.

An operand is accepted because its owner is the module that is appended to.  That its definition comes
earlier in the same body follows from what links the three tables (`Design.Linked`): a value with a live
owner is listed among the block arguments of its body, or as a result of an operation that the body
lists. -/

namespace Wirework

namespace Design

variable {d d' : Design}

/-! ### Well-formed bodies -/

/-- The value is a block argument of the body or a result of one of its first `k` operations. -/
def DefinedBefore (d : Design) (body : Body) (k : Nat) (v : ValueId) : Prop :=
  v ∈ body.arguments ∨
    ∃ j < k, ∃ o op, body.ops[j]? = some o ∧ d.op? o = some op ∧ v ∈ op.results

/-- The body of a module is well formed. -/
structure BodySound (d : Design) (id : ModuleId) (m : HwModule) (body : Body) : Prop where
  arguments_length : body.arguments.length = m.inputs.length
  argument : ∀ (i : Nat) port v, m.inputs[i]? = some port → body.arguments[i]? = some v →
    d.value? v = some ⟨port.type, .argument id i⟩
  parent : ∀ o ∈ body.ops, ∃ op, d.op? o = some op ∧ op.parent = id
  nodup : body.ops.toList.Nodup
  dominated : ∀ (k : Nat) o op, body.ops[k]? = some o → d.op? o = some op →
    ∀ v ∈ op.operation.operands, d.DefinedBefore body k v
  terminator_last : ∀ (k : Nat) o op, body.ops[k]? = some o → d.op? o = some op →
    op.operation.isTerminator = true → k + 1 = body.ops.size ∧ body.terminated = true
  terminated : body.terminated = true →
    ∃ o op, body.ops.back? = some o ∧ d.op? o = some op ∧ op.operation.isTerminator = true

/-- The bodies of live modules are well formed and have no operation in common, and operations and the
values that are their results refer to each other. -/
structure WellFormed (d : Design) : Prop where
  bodies : ∀ id m body, d.module? id = some m → m.body? = some body → d.BodySound id m body
  body_unique : ∀ a b m n A B o, d.module? a = some m → m.body? = some A → d.module? b = some n →
    n.body? = some B → o ∈ A.ops → o ∈ B.ops → a = b
  result_defined : ∀ o op (i : Nat) v, d.op? o = some op → op.results[i]? = some v →
    ∃ type, d.value? v = some ⟨type, .result o i⟩
  result_listed : ∀ v type o i, d.value? v = some ⟨type, .result o i⟩ →
    ∃ op, d.op? o = some op ∧ op.results[i]? = some v

/-- Bodies are well formed, and the three tables refer to each other: what is defined for a live module is
listed in its body. -/
structure Linked (d : Design) : Prop where
  bodies : ∀ id m body, d.module? id = some m → m.body? = some body → d.BodySound id m body
  result_defined : ∀ o op (i : Nat) v, d.op? o = some op → op.results[i]? = some v →
    ∃ type, d.value? v = some ⟨type, .result o i⟩
  result_listed : ∀ v type o i, d.value? v = some ⟨type, .result o i⟩ →
    ∃ op, d.op? o = some op ∧ op.results[i]? = some v
  argument_listed : ∀ v type id i, d.value? v = some ⟨type, .argument id i⟩ →
    id.index < d.modules.size ∧
      ∀ m, d.module? id = some m → ∃ body, m.body? = some body ∧ body.arguments[i]? = some v
  op_listed : ∀ o op, d.op? o = some op → op.parent.index < d.modules.size ∧
    ∀ m, d.module? op.parent = some m → ∃ body, m.body? = some body ∧ o ∈ body.ops
  callee_made : ∀ o op c, d.op? o = some op → op.operation.callee? = some c →
    c.index < d.modules.size

theorem Linked.wellFormed (h : d.Linked) : d.WellFormed where
  bodies := h.bodies
  body_unique a b m n A B o hm hA hn hB hoA hoB := by
    obtain ⟨op, hop, rfl⟩ := (h.bodies a m A hm hA).parent o hoA
    obtain ⟨op', hop', rfl⟩ := (h.bodies b n B hn hB).parent o hoB
    rw [hop] at hop'
    rw [Option.some.inj hop']
  result_defined := h.result_defined
  result_listed := h.result_listed

theorem Linked.empty : Design.empty.Linked where
  bodies id m body hm := by cases hm
  result_defined o op i v hop := by cases hop
  result_listed v type o i hv := by cases hv
  argument_listed v type id i hv := by cases hv
  op_listed o op hop := by cases hop
  callee_made o op c hop := by cases hop

/-- A value with a live owner is defined by the body of its owner. -/
theorem Linked.defined_of_owner (h : d.Linked) {id : ModuleId} {m : HwModule} {body : Body}
    {v : ValueId} (hm : d.module? id = some m) (hbody : m.body? = some body)
    (howner : d.owner? v = some id) : d.DefinedBefore body body.ops.size v := by
  obtain ⟨⟨type, source⟩, hv, hsource⟩ := Option.bind_eq_some_iff.mp howner
  cases source with
  | argument owner i =>
      obtain rfl := Option.some.inj hsource
      obtain ⟨body', hbody', hi⟩ := (h.argument_listed v type owner i hv).2 m hm
      rw [hbody] at hbody'
      obtain rfl := Option.some.inj hbody'
      exact Or.inl (List.mem_of_getElem? hi)
  | result o i =>
      obtain ⟨op, hop, rfl⟩ := Option.map_eq_some_iff.mp hsource
      obtain ⟨found, hfound, hi⟩ := h.result_listed v type o i hv
      rw [hop] at hfound
      obtain rfl := Option.some.inj hfound
      obtain ⟨body', hbody', ho⟩ := (h.op_listed o op hop).2 m hm
      rw [hbody] at hbody'
      obtain rfl := Option.some.inj hbody'
      obtain ⟨j, hj, hget⟩ := Array.mem_iff_getElem.mp ho
      exact Or.inr ⟨j, hj, o, op, hget ▸ Array.getElem?_eq_getElem hj, hop,
        List.mem_of_getElem? hi⟩

/-! ### Designs that retain values and operations -/

/-- In `d'` the values and operations of `d` are still there, the operations perhaps with other
attributes. -/
structure Retains (d d' : Design) : Prop where
  value : ∀ v value, d.value? v = some value → d'.value? v = some value
  op : ∀ o op, d.op? o = some op → ∃ op', d'.op? o = some op' ∧ op'.parent = op.parent ∧
    op'.operation = op.operation ∧ op'.results = op.results

theorem DefinedBefore.retained {body : Body} {k : Nat} {v : ValueId} (h : d.DefinedBefore body k v)
    (hr : d.Retains d') : d'.DefinedBefore body k v := by
  rcases h with h | ⟨j, hj, o, op, hget, hop, hv⟩
  · exact Or.inl h
  · obtain ⟨op', hop', _, _, hresults⟩ := hr.op o op hop
    exact Or.inr ⟨j, hj, o, op', hget, hop', hresults ▸ hv⟩

theorem Retains.operation_eq (hr : d.Retains d') {o : OpId} {op op' : Op} (hop : d.op? o = some op)
    (hop' : d'.op? o = some op') :
    op'.parent = op.parent ∧ op'.operation = op.operation ∧ op'.results = op.results := by
  obtain ⟨found, hfound, hlike⟩ := hr.op o op hop
  rw [hop'] at hfound
  exact Option.some.inj hfound ▸ hlike

theorem BodySound.retained {id : ModuleId} {m : HwModule} {body : Body}
    (h : d.BodySound id m body) (hr : d.Retains d') : d'.BodySound id m body where
  arguments_length := h.arguments_length
  argument i port v hport hv := hr.value v _ (h.argument i port v hport hv)
  parent o ho := by
    obtain ⟨op, hop, hparent⟩ := h.parent o ho
    obtain ⟨op', hop', hparent', _⟩ := hr.op o op hop
    exact ⟨op', hop', hparent'.trans hparent⟩
  nodup := h.nodup
  dominated k o op' hk hop' v hv := by
    obtain ⟨op, hop, _⟩ := h.parent o (Array.mem_of_getElem? hk)
    rw [(hr.operation_eq hop hop').2.1] at hv
    exact (h.dominated k o op hk hop v hv).retained hr
  terminator_last k o op' hk hop' hterm := by
    obtain ⟨op, hop, _⟩ := h.parent o (Array.mem_of_getElem? hk)
    rw [(hr.operation_eq hop hop').2.1] at hterm
    exact h.terminator_last k o op hk hop hterm
  terminated hterm := by
    obtain ⟨o, op, hback, hop, hlast⟩ := h.terminated hterm
    obtain ⟨op', hop', _, hoperation, _⟩ := hr.op o op hop
    exact ⟨o, op', hback, hop', hoperation ▸ hlast⟩

/-! ### Changes that define nothing -/

/-- Designs stay linked when modules without a body are made, modules are erased, and attributes of
operations change. -/
theorem Linked.of_retains (h : d.Linked) (hr : d.Retains d')
    (hvalue : ∀ v value, d'.value? v = some value → d.value? v = some value)
    (hop : ∀ o op', d'.op? o = some op' → ∃ op, d.op? o = some op)
    (hsize : d.modules.size ≤ d'.modules.size)
    (hmodule : ∀ id m, d'.module? id = some m →
      d.module? id = some m ∨ d.modules.size ≤ id.index ∧ m.body? = none) : d'.Linked where
  bodies id m body hm hbody := by
    rcases hmodule id m hm with hm | ⟨_, hnone⟩
    · exact (h.bodies id m body hm hbody).retained hr
    · rw [hnone] at hbody
      cases hbody
  result_defined o op' i v hop' hi := by
    obtain ⟨op, hfound⟩ := hop o op' hop'
    rw [(hr.operation_eq hfound hop').2.2] at hi
    obtain ⟨type, hv⟩ := h.result_defined o op i v hfound hi
    exact ⟨type, hr.value v _ hv⟩
  result_listed v type o i hv := by
    obtain ⟨op, hfound, hi⟩ := h.result_listed v type o i (hvalue v _ hv)
    obtain ⟨op', hop', _, _, hresults⟩ := hr.op o op hfound
    exact ⟨op', hop', hresults ▸ hi⟩
  argument_listed v type id i hv := by
    obtain ⟨hlt, hlisted⟩ := h.argument_listed v type id i (hvalue v _ hv)
    refine ⟨Nat.lt_of_lt_of_le hlt hsize, fun m hm => ?_⟩
    rcases hmodule id m hm with hm | ⟨hge, _⟩
    · exact hlisted m hm
    · exact absurd hlt (Nat.not_lt_of_le hge)
  op_listed o op' hop' := by
    obtain ⟨op, hfound⟩ := hop o op' hop'
    rw [(hr.operation_eq hfound hop').1]
    obtain ⟨hlt, hlisted⟩ := h.op_listed o op hfound
    refine ⟨Nat.lt_of_lt_of_le hlt hsize, fun m hm => ?_⟩
    rcases hmodule op.parent m hm with hm | ⟨hge, _⟩
    · exact hlisted m hm
    · exact absurd hlt (Nat.not_lt_of_le hge)
  callee_made o op' c hop' hc := by
    obtain ⟨op, hfound⟩ := hop o op' hop'
    rw [(hr.operation_eq hfound hop').2.1] at hc
    exact Nat.lt_of_lt_of_le (h.callee_made o op c hfound hc) hsize

theorem retains_of_tables (hv : d'.values = d.values) (ho : d'.ops = d.ops) : d.Retains d' where
  value v value hvalue := by unfold value? at *; rw [hv, hvalue]
  op o op hop := ⟨op, by unfold op? at *; rw [ho, hop], rfl, rfl, rfl⟩

theorem Linked.of_modules (h : d.Linked) (hv : d'.values = d.values) (ho : d'.ops = d.ops)
    (hsize : d.modules.size ≤ d'.modules.size)
    (hmodule : ∀ id m, d'.module? id = some m →
      d.module? id = some m ∨ d.modules.size ≤ id.index ∧ m.body? = none) : d'.Linked := by
  refine h.of_retains (retains_of_tables hv ho) (fun v value hvalue => ?_) (fun o op hop => ?_)
    hsize hmodule
  · unfold value? at *
    rwa [hv] at hvalue
  · unfold op? at *
    rw [ho] at hop
    exact ⟨op, hop⟩

theorem Linked.annotate (h : d.Linked) {id : OpId} {op : Op} (hid : d.op? id = some op)
    (attributes : AttributeMap) : (d.annotate id op attributes).Linked := by
  have hlook : ∀ o, o ≠ id → (d.annotate id op attributes).op? o = d.op? o := fun o ho => by
    rw [op?_annotate hid, if_neg ho]
  have hself : (d.annotate id op attributes).op? id = some { op with attributes } := by
    rw [op?_annotate hid, if_pos rfl]
  refine h.of_retains ⟨fun v value hv => hv, fun o found hfound => ?_⟩ (fun v value hv => hv)
    (fun o op' hop' => ?_) (Nat.le_refl _) fun j m hm => Or.inl hm
  · by_cases ho : o = id
    · subst ho
      rw [hid] at hfound
      obtain rfl := Option.some.inj hfound
      exact ⟨_, hself, rfl, rfl, rfl⟩
    · exact ⟨found, (hlook o ho).trans hfound, rfl, rfl, rfl⟩
  · by_cases ho : o = id
    · exact ⟨op, ho ▸ hid⟩
    · exact ⟨op', hlook o ho ▸ hop'⟩

/-! ### Beginning a body -/

section begin

variable {id : ModuleId} {m : HwModule}

theorem value?_beginBody (d : Design) (id : ModuleId) (m : HwModule) (v : ValueId) :
    (d.beginBody id m).value? v = if v.index < d.values.size then d.value? v else
      (m.inputs[v.index - d.values.size]?).map fun port =>
        ⟨port.type, .argument id (v.index - d.values.size)⟩ := by
  have hvalues : (d.beginBody id m).values = d.values ++ (m.inputs.map (·.type)).mapIdx
      fun index type => Value.mk type (.argument id index) := rfl
  rw [value?_newValues hvalues, List.getElem?_map, Option.map_map]
  rfl

theorem owner?_beginBody (d : Design) (id : ModuleId) (m : HwModule) {v : ValueId}
    (hv : v ∈ d.nextValues m.inputs.length) : (d.beginBody id m).owner? v = some id := by
  obtain ⟨i, hi, rfl⟩ := mem_nextValues.mp hv
  unfold owner?
  rw [value?_beginBody, if_neg (by simp only; omega), Nat.add_sub_cancel_left,
    List.getElem?_eq_getElem hi]
  rfl

theorem retains_beginBody (d : Design) (id : ModuleId) (m : HwModule) :
    d.Retains (d.beginBody id m) where
  value v value hv := by rw [value?_beginBody, if_pos (lt_size_of_value? hv), hv]
  op o op hop := ⟨op, hop, rfl, rfl, rfl⟩

theorem value?_beginBody_cases {v : ValueId} {value : Value}
    (h : (d.beginBody id m).value? v = some value) : d.value? v = some value ∨
      ∃ i port, m.inputs[i]? = some port ∧ (d.nextValues m.inputs.length)[i]? = some v ∧
        value = ⟨port.type, .argument id i⟩ := by
  rw [value?_beginBody] at h
  by_cases hv : v.index < d.values.size
  · rw [if_pos hv] at h
    exact Or.inl h
  · rw [if_neg hv] at h
    obtain ⟨port, hport, rfl⟩ := Option.map_eq_some_iff.mp h
    refine Or.inr ⟨_, port, hport, getElem?_nextValues.mpr ⟨?_, ?_⟩, rfl⟩
    · exact (List.getElem?_eq_some_iff.mp hport).1
    · exact ValueId.eq_of_index (by simp only; omega)

theorem bodySound_beginBody (d : Design) (id : ModuleId) (m : HwModule) (kind : ModuleKind) :
    (d.beginBody id m).BodySound id { m with kind } { arguments := d.nextValues m.inputs.length } where
  arguments_length := d.length_nextValues m.inputs.length
  argument i port v hport hv := by
    obtain ⟨hlt, rfl⟩ := getElem?_nextValues.mp hv
    rw [value?_beginBody, if_neg (by simp only; omega), Nat.add_sub_cancel_left, hport]
    rfl
  parent o ho := absurd ho (Array.not_mem_empty o)
  nodup := List.nodup_nil
  dominated k o op hk := by cases hk
  terminator_last k o op hk := by cases hk
  terminated hterm := by cases hterm

theorem Linked.beginBody (h : d.Linked) (hm : d.module? id = some m)
    (hkind : m.kind = .generated none) : (d.beginBody id m).Linked := by
  have hself : (d.beginBody id m).module? id = some { m with
      kind := .generated (some { arguments := d.nextValues m.inputs.length }) } := by
    rw [module?_beginBody, if_pos rfl, hm]
    rfl
  have hother : ∀ j, j ≠ id → (d.beginBody id m).module? j = d.module? j := fun j hj => by
    rw [module?_beginBody, if_neg hj]
  have hsize : (d.beginBody id m).modules.size = d.modules.size := Array.size_modify
  -- Nothing has been defined for the module, which has had no body until now.
  have hunbegun : ∀ body, m.body? ≠ some body := fun body hbody => by
    rw [HwModule.body?_eq_some_iff, hkind] at hbody
    cases hbody
  constructor
  case bodies =>
    intro j m' body hj hbody
    by_cases hid : j = id
    · subst hid
      rw [hself] at hj
      obtain rfl := Option.some.inj hj
      obtain rfl : { arguments := d.nextValues m.inputs.length } = body := Option.some.inj hbody
      exact bodySound_beginBody d j m _
    · rw [hother j hid] at hj
      exact (h.bodies j m' body hj hbody).retained (retains_beginBody d id m)
  case result_defined =>
    intro o op i v hop hi
    obtain ⟨type, hv⟩ := h.result_defined o op i v hop hi
    exact ⟨type, (retains_beginBody d id m).value v _ hv⟩
  case result_listed =>
    intro v type o i hv
    rcases value?_beginBody_cases hv with hv | ⟨_, _, _, _, heq⟩
    · exact h.result_listed v type o i hv
    · cases heq
  case argument_listed =>
    intro v type j i hv
    rw [hsize]
    rcases value?_beginBody_cases hv with hv | ⟨i', port, _, hi, heq⟩
    · obtain ⟨hlt, hlisted⟩ := h.argument_listed v type j i hv
      refine ⟨hlt, fun m' hm' => ?_⟩
      by_cases hid : j = id
      · subst hid
        obtain ⟨body, hbody, _⟩ := hlisted m hm
        exact absurd hbody (hunbegun body)
      · exact hlisted m' (hother j hid ▸ hm')
    · cases heq
      refine ⟨lt_size_of_module? hm, fun m' hm' => ?_⟩
      rw [hself] at hm'
      obtain rfl := Option.some.inj hm'
      exact ⟨_, rfl, hi⟩
  case op_listed =>
    intro o op hop
    obtain ⟨hlt, hlisted⟩ := h.op_listed o op hop
    refine ⟨hsize ▸ hlt, fun m' hm' => ?_⟩
    by_cases hid : op.parent = id
    · rw [hid] at hlisted
      obtain ⟨body, hbody, _⟩ := hlisted m hm
      exact absurd hbody (hunbegun body)
    · exact hlisted m' (hother op.parent hid ▸ hm')
  case callee_made =>
    intro o op c hop hc
    rw [hsize]
    exact h.callee_made o op c hop hc

end begin

/-! ### Appending an operation -/

section append

variable {parent : ModuleId} {operation : Operation ModuleId ValueId}

theorem Appends.retains (happ : d.Appends parent operation d') : d.Retains d' where
  value _ _ hv := happ.value?_old hv
  op _ op hop := ⟨op, happ.op?_old hop, rfl, rfl, rfl⟩

theorem Appends.value_cases (happ : d.Appends parent operation d') {v : ValueId} {value : Value}
    (h : d'.value? v = some value) : d.value? v = some value ∨
      ∃ op i, d'.op? d.nextOp = some op ∧ op.results[i]? = some v ∧
        value.source = .result d.nextOp i := by
  obtain ⟨op, types, hop, _, _, hresults, hvalues⟩ := happ.op_next
  rw [value?_newValues hvalues] at h
  by_cases hv : v.index < d.values.size
  · rw [if_pos hv] at h
    exact Or.inl h
  · rw [if_neg hv] at h
    obtain ⟨type, htype, rfl⟩ := Option.map_eq_some_iff.mp h
    refine Or.inr ⟨op, _, hop, ?_, rfl⟩
    rw [hresults]
    refine getElem?_nextValues.mpr ⟨(List.getElem?_eq_some_iff.mp htype).1, ?_⟩
    exact ValueId.eq_of_index (by simp only; omega)

theorem Appends.result_defined (happ : d.Appends parent operation d') {op : Op} {i : Nat}
    {v : ValueId} (hop : d'.op? d.nextOp = some op) (hi : op.results[i]? = some v) :
    ∃ type, d'.value? v = some ⟨type, .result d.nextOp i⟩ := by
  obtain ⟨found, types, hfound, _, _, hresults, hvalues⟩ := happ.op_next
  rw [hop] at hfound
  obtain rfl := Option.some.inj hfound
  rw [hresults] at hi
  obtain ⟨hlt, rfl⟩ := getElem?_nextValues.mp hi
  refine ⟨types[i], ?_⟩
  rw [value?_newValues hvalues, if_neg (by simp only; omega), Nat.add_sub_cancel_left,
    List.getElem?_eq_getElem hlt]
  rfl

theorem getElem?_extend {body : Body} {k : Nat} {o o' : OpId} :
    (body.extend o' operation).ops[k]? = some o ↔
      body.ops[k]? = some o ∨ k = body.ops.size ∧ o = o' := by
  unfold Body.extend
  rw [Array.getElem?_push]
  by_cases hk : k = body.ops.size
  · subst hk
    simp [eq_comm]
  · simp [hk]

theorem DefinedBefore.extend {body : Body} {k : Nat} {v : ValueId} (h : d.DefinedBefore body k v)
    (o : OpId) (operation : Operation ModuleId ValueId) :
    d.DefinedBefore (body.extend o operation) k v := by
  rcases h with h | ⟨j, hj, o', op, hget, hop, hv⟩
  · exact Or.inl h
  · exact Or.inr ⟨j, hj, o', op, getElem?_extend.mpr (Or.inl hget), hop, hv⟩

theorem BodySound.append (hlinked : d.Linked) (happ : d.Appends parent operation d')
    {m : HwModule} {body : Body} (hm : d.module? parent = some m) (hbody : m.body? = some body)
    (hunfinished : body.terminated = false) (kind : ModuleKind) :
    d'.BodySound parent { m with kind } (body.extend d.nextOp operation) := by
  have hold := hlinked.bodies parent m body hm hbody
  have hsound := hold.retained happ.retains
  obtain ⟨new, _, hnew, hparent, hoperation, _⟩ := happ.op_next
  have hfresh : d.nextOp ∉ body.ops := fun hmem => by
    obtain ⟨op, hop, _⟩ := hold.parent _ hmem
    exact ne_nextOp hop rfl
  constructor
  case arguments_length => exact hsound.arguments_length
  case argument => exact hsound.argument
  case parent =>
    intro o ho
    rcases Array.mem_push.mp ho with ho | rfl
    · exact hsound.parent o ho
    · exact ⟨new, hnew, hparent⟩
  case nodup =>
    unfold Body.extend
    rw [Array.toList_push]
    refine List.nodup_append.mpr ⟨hsound.nodup, by simp, fun a ha b hb => ?_⟩
    obtain rfl := List.mem_singleton.mp hb
    exact fun heq => hfresh (Array.mem_toList_iff.mp (heq ▸ ha))
  case dominated =>
    intro k o op hk hop v hv
    rcases getElem?_extend.mp hk with hk | ⟨rfl, rfl⟩
    · exact (hsound.dominated k o op hk hop v hv).extend _ _
    · rw [hnew] at hop
      obtain rfl := Option.some.inj hop
      rw [hoperation] at hv
      have hdefined := hlinked.defined_of_owner hm hbody (happ.owned v hv)
      exact (hdefined.retained happ.retains).extend _ _
  case terminator_last =>
    intro k o op hk hop hterm
    rcases getElem?_extend.mp hk with hk | ⟨rfl, rfl⟩
    · have hlast := (hsound.terminator_last k o op hk hop hterm).2
      rw [hunfinished] at hlast
      cases hlast
    · rw [hnew] at hop
      obtain rfl := Option.some.inj hop
      exact ⟨(Array.size_push _).symm, hoperation ▸ hterm⟩
  case terminated =>
    intro hterm
    exact ⟨d.nextOp, new, Array.back?_push, hnew, hoperation ▸ hterm⟩

theorem Appends.op_cases (happ : d.Appends parent operation d') {o : OpId} {op : Op}
    (hop : d'.op? o = some op) : d.op? o = some op ∨
      o = d.nextOp ∧ op.parent = parent ∧ op.operation = operation := by
  obtain ⟨new, _, hnew, hparent, hoperation, _⟩ := happ.op_next
  by_cases ho : o = d.nextOp
  · rw [ho, hnew] at hop
    obtain rfl := Option.some.inj hop
    exact Or.inr ⟨ho, hparent, hoperation⟩
  · exact Or.inl (happ.op?_ne ho ▸ hop)

theorem Appends.lists (happ : d.Appends parent operation d') {id : ModuleId} {m' : HwModule}
    (hm' : d'.module? id = some m') : ∃ m, d.module? id = some m ∧ ∀ body, m.body? = some body →
      ∃ body', m'.body? = some body' ∧ body'.arguments = body.arguments ∧
        ∀ o ∈ body.ops, o ∈ body'.ops := by
  obtain ⟨m, body, hm, hbody, _, hself⟩ := happ.module?_self
  by_cases hid : id = parent
  · rw [hid, hself] at hm'
    obtain rfl := Option.some.inj hm'
    refine ⟨m, hid ▸ hm, fun found hfound => ?_⟩
    rw [hbody] at hfound
    obtain rfl := Option.some.inj hfound
    exact ⟨_, rfl, rfl, fun o ho => Array.mem_push_of_mem _ ho⟩
  · exact ⟨m', happ.module?_ne hid ▸ hm', fun found hfound => ⟨found, hfound, rfl, fun _ ho => ho⟩⟩

theorem Linked.append (h : d.Linked) (happ : d.Appends parent operation d')
    (hcallee : ∀ c, operation.callee? = some c → d.IsLive c) : d'.Linked := by
  obtain ⟨m, body, hm, hbody, hunfinished, hself⟩ := happ.module?_self
  constructor
  case bodies =>
    intro j n B hj hB
    by_cases hid : j = parent
    · subst hid
      rw [hself] at hj
      obtain rfl := Option.some.inj hj
      obtain rfl : body.extend d.nextOp operation = B := Option.some.inj hB
      exact BodySound.append h happ hm hbody hunfinished _
    · rw [happ.module?_ne hid] at hj
      exact (h.bodies j n B hj hB).retained happ.retains
  case result_defined =>
    intro o op i v hop hi
    rcases happ.op_cases hop with hold | ⟨rfl, _⟩
    · obtain ⟨type, hv⟩ := h.result_defined o op i v hold hi
      exact ⟨type, happ.value?_old hv⟩
    · exact happ.result_defined hop hi
  case result_listed =>
    intro v type o i hv
    rcases happ.value_cases hv with hv | ⟨op, i', hop, hi, hsource⟩
    · obtain ⟨op, hop, hi⟩ := h.result_listed v type o i hv
      exact ⟨op, happ.op?_old hop, hi⟩
    · cases hsource
      exact ⟨op, hop, hi⟩
  case argument_listed =>
    intro v type j i hv
    rcases happ.value_cases hv with hv | ⟨_, _, _, _, hsource⟩
    · obtain ⟨hlt, hlisted⟩ := h.argument_listed v type j i hv
      refine ⟨happ.modules_size ▸ hlt, fun n hn => ?_⟩
      obtain ⟨n₀, hn₀, hkeep⟩ := happ.lists hn
      obtain ⟨B, hB, hi⟩ := hlisted n₀ hn₀
      obtain ⟨B', hB', harguments, _⟩ := hkeep B hB
      exact ⟨B', hB', harguments ▸ hi⟩
    · cases hsource
  case op_listed =>
    intro o op hop
    rw [happ.modules_size]
    rcases happ.op_cases hop with hold | ⟨rfl, hparent, _⟩
    · obtain ⟨hlt, hlisted⟩ := h.op_listed o op hold
      refine ⟨hlt, fun n hn => ?_⟩
      obtain ⟨n₀, hn₀, hkeep⟩ := happ.lists hn
      obtain ⟨B, hB, ho⟩ := hlisted n₀ hn₀
      obtain ⟨B', hB', _, hsub⟩ := hkeep B hB
      exact ⟨B', hB', hsub o ho⟩
    · rw [hparent]
      refine ⟨lt_size_of_module? hm, fun n hn => ?_⟩
      rw [hself] at hn
      obtain rfl := Option.some.inj hn
      exact ⟨_, rfl, Array.mem_push_self⟩
  case callee_made =>
    intro o op c hop hc
    rw [happ.modules_size]
    rcases happ.op_cases hop with hold | ⟨_, _, hoperation⟩
    · exact h.callee_made o op c hold hc
    · exact (hcallee c (hoperation ▸ hc)).lt_size

end append

/-! ### All designs -/

theorem Linked.changes (h : d.Linked) (hchange : d.Changes d') : d'.Linked := by
  cases hchange with
  | scopes scopes => exact h.of_modules rfl rfl (Nat.le_refl _) fun id m hm => Or.inl hm
  | addModule m unbegun =>
      refine h.of_modules rfl rfl (by simp) fun id m' hm' => ?_
      rw [module?_push rfl] at hm'
      by_cases hid : id = d.nextModule
      · rw [if_pos hid] at hm'
        obtain rfl := Option.some.inj hm'
        exact Or.inr ⟨hid ▸ Nat.le_refl _, unbegun⟩
      · rw [if_neg hid] at hm'
        exact Or.inl hm'
  | eraseModule id =>
      refine h.of_modules rfl rfl (by simp) fun j m hm => ?_
      rw [module?_erase rfl] at hm
      by_cases hj : j = id
      · rw [if_pos hj] at hm
        cases hm
      · rw [if_neg hj] at hm
        exact Or.inl hm
  | beginBody live unbegun => exact h.beginBody live unbegun
  | append appends callee => exact h.append appends callee
  | annotate found attributes => exact h.annotate found attributes

theorem Reached.linked (h : d.Reached) : d.Linked :=
  h.induct Linked.empty fun _ _ h hchange => h.changes hchange

end Design

/-- **Every design that can be built is well formed**, whatever has been called. -/
theorem build_wellFormed (calls : List DesignCall) : (Design.build calls).WellFormed :=
  (Design.Reached.linked ⟨calls, rfl⟩).wellFormed

end Wirework
