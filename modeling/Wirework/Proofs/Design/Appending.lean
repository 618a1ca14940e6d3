import Mathlib.Logic.Relation
import Wirework.Design.Edit
import Wirework.Proofs.Design.Tables
import Wirework.Proofs.Steps

/-! # Appending operations

A step that inserts an operation either is refused and leaves the design alone, or appends exactly that operation to
the body at the insertion point (`insertOp_cases`).  `Appends d parent operation d'` is the second outcome; what it
changes is read off by `Appends.module?_self`, `Appends.op?_new` and their like, so that nothing later unfolds the
step again.

The steps that compute within a body insert operations of one kind each, of which none is an instance and none ends
the body (`Computes`); a sequence of them is a preorder on designs (`Grows`).  The two remaining kinds, an instance
and the operation that ends the body, have lemmas of their own (`instantiate_cases`, `output_cases`), since more is
checked before the one and after the other. -/

namespace Wirework

/-- The body after an operation has been put at its end. -/
def Body.extend (body : Body) (id : OpId) (operation : Operation ModuleId ValueId) : Body :=
  { body with ops := body.ops.push id, terminated := operation.isTerminator }

namespace Design

/-! ### A design with one more operation -/

/-- The design after an operation has been appended to the body of a module. -/
def append (d : Design) (parent : ModuleId) (body : Body) (operation : Operation ModuleId ValueId)
    (types : List HwType) (attributes : AttributeMap) (location : Location) : Design :=
  { d with
    modules := d.modules.modify parent.index (Option.map fun m =>
      { m with kind := .generated (some (body.extend ⟨d.ops.size⟩ operation)) })
    values := d.values ++ types.mapIdx fun index type => Value.mk type (.result ⟨d.ops.size⟩ index)
    ops := d.ops.push
      { parent, operation, attributes, location
        results := (List.range types.length).map fun index => ⟨d.values.size + index⟩ } }

theorem module?_append (d : Design) (parent : ModuleId) (body : Body)
    (operation : Operation ModuleId ValueId) (types : List HwType) (attributes : AttributeMap)
    (location : Location) (j : ModuleId) :
    (d.append parent body operation types attributes location).module? j =
      if j = parent then (d.module? parent).map fun m =>
        { m with kind := .generated (some (body.extend ⟨d.ops.size⟩ operation)) }
      else d.module? j :=
  module?_modify rfl rfl j

theorem op?_append_next (d : Design) (parent : ModuleId) (body : Body)
    (operation : Operation ModuleId ValueId) (types : List HwType) (attributes : AttributeMap)
    (location : Location) :
    (d.append parent body operation types attributes location).op? d.nextOp =
      some { parent, operation, attributes, location, results := d.nextValues types.length } := by
  let d' := d.append parent body operation types attributes location
  have hops : d'.ops = d.ops.push
      { parent, operation, attributes, location, results := d.nextValues types.length } := rfl
  exact (op?_push hops d.nextOp).trans (if_pos rfl)

theorem yields_append (d : Design) (parent : ModuleId) (body : Body)
    (operation : Operation ModuleId ValueId) (types : List HwType) (attributes : AttributeMap)
    (location : Location) :
    (d.append parent body operation types attributes location).Yields d.nextOp types :=
  ⟨_, op?_append_next d parent body operation types attributes location, typeOf?_nextValues rfl⟩

theorem results_append (d : Design) (parent : ModuleId) (body : Body)
    (operation : Operation ModuleId ValueId) (types : List HwType) (attributes : AttributeMap)
    (location : Location) : (d.append parent body operation types attributes location).results d.nextOp =
      .ok (d.nextSignals types) := by
  let d' := d.append parent body operation types attributes location
  have htypes : List.Forall₂ (fun type v => d'.typeOf? v = some type) types
      (d.nextValues types.length) := typeOf?_nextValues rfl
  refine results_eq_ok_iff.mpr ⟨_, op?_append_next d parent body operation types attributes location, ?_⟩
  refine forall₂_zipWith (fun type v htype => ⟨htype, rfl⟩) htypes

/-- The design `d'` is `d` with an operation appended to the unfinished body of a module that owns the
operands. -/
inductive Appends (d : Design) (parent : ModuleId) (operation : Operation ModuleId ValueId) :
    Design → Prop
  | intro {m : HwModule} {body : Body} (live : d.module? parent = some m)
      (begun : m.body? = some body) (unfinished : body.terminated = false)
      (owned : ∀ v ∈ operation.operands, d.owner? v = some parent) (types : List HwType)
      (attributes : AttributeMap) (location : Location) :
      Appends d parent operation (d.append parent body operation types attributes location)

namespace Appends

variable {d d' : Design} {parent : ModuleId} {operation : Operation ModuleId ValueId}

theorem scopes_eq (h : d.Appends parent operation d') : d'.scopes = d.scopes := by
  cases h; rfl

theorem owned (h : d.Appends parent operation d') :
    ∀ v ∈ operation.operands, d.owner? v = some parent := by
  cases h with
  | intro live begun unfinished owned types attributes location => exact owned

theorem modules_size (h : d.Appends parent operation d') : d'.modules.size = d.modules.size := by
  cases h
  exact Array.size_modify

/-- The module appended to, before and after. -/
theorem module?_self (h : d.Appends parent operation d') :
    ∃ m body, d.module? parent = some m ∧ m.body? = some body ∧ body.terminated = false ∧
      d'.module? parent = some { m with kind := .generated (some (body.extend ⟨d.ops.size⟩ operation)) } := by
  cases h with
  | @intro m body live begun unfinished owned types attributes location =>
      refine ⟨m, body, live, begun, unfinished, ?_⟩
      rw [module?_append, if_pos rfl, live]
      rfl

theorem module?_ne (h : d.Appends parent operation d') {j : ModuleId} (hj : j ≠ parent) :
    d'.module? j = d.module? j := by
  cases h
  rw [module?_append, if_neg hj]

theorem header?_eq (h : d.Appends parent operation d') (id : ModuleId) :
    d'.header? id = d.header? id := by
  by_cases hid : id = parent
  · obtain ⟨m, body, hm, _, _, hm'⟩ := h.module?_self
    unfold header?
    rw [hid, hm', hm]
    rfl
  · exact header?_congr (h.module?_ne hid)

theorem symbolOf?_eq (h : d.Appends parent operation d') (id : ModuleId) :
    d'.symbolOf? id = d.symbolOf? id :=
  symbolOf?_of_header? (h.header?_eq id)

theorem op_next (h : d.Appends parent operation d') :
    ∃ (op : Op) (types : List HwType), d'.op? d.nextOp = some op ∧ op.parent = parent ∧ op.operation = operation ∧
      op.results = d.nextValues types.length ∧
      d'.values = d.values ++ types.mapIdx fun index type => Value.mk type (.result d.nextOp index) := by
  cases h with
  | @intro m body live begun unfinished owned types attributes location =>
      exact ⟨_, types, op?_append_next d parent body operation types attributes location, rfl, rfl,
        rfl, rfl⟩

theorem op?_new (h : d.Appends parent operation d') :
    ∃ op, d'.op? ⟨d.ops.size⟩ = some op ∧ op.parent = parent ∧ op.operation = operation := by
  obtain ⟨op, _, hop, hparent, hoperation, _⟩ := h.op_next
  exact ⟨op, hop, hparent, hoperation⟩

theorem op?_ne (h : d.Appends parent operation d') {o : OpId} (ho : o ≠ ⟨d.ops.size⟩) :
    d'.op? o = d.op? o := by
  cases h
  rw [op?_push (d := d) rfl, if_neg ho]

theorem op?_old (h : d.Appends parent operation d') {o : OpId} {op : Op} (ho : d.op? o = some op) :
    d'.op? o = some op := by
  rw [h.op?_ne fun he => ?_, ho]
  have := lt_size_of_op? ho
  rw [he] at this
  exact Nat.lt_irrefl _ this

theorem value?_old (h : d.Appends parent operation d') {v : ValueId} {value : Value}
    (hv : d.value? v = some value) : d'.value? v = some value := by
  obtain ⟨_, _, _, _, _, _, hvalues⟩ := h.op_next
  exact value?_of_newValues hvalues hv

theorem result_owned {types : List HwType} (h : d.Appends parent operation d')
    (hvalues : d'.values = d.values ++
      types.mapIdx fun index type => Value.mk type (.result d.nextOp index)) :
    ∀ v ∈ d.nextValues types.length, d'.owner? v = some parent := by
  intro v hv
  obtain ⟨i, hi, rfl⟩ := mem_nextValues.mp hv
  obtain ⟨op, _, hop, hparent, _⟩ := h.op_next
  unfold owner?
  rw [value?_newValues hvalues, if_neg (by simp only; omega), Nat.add_sub_cancel_left,
    List.getElem?_eq_getElem hi]
  exact Option.map_eq_some_iff.mpr ⟨op, hop, hparent⟩

end Appends

end Design

namespace Edit

open Step

variable {d : Design}

/-! ### When an operation is appended -/

theorem checkOperand_apply {parent : ModuleId} {value : ValueId}
    (h : d.owner? value = some parent) : (checkOperand parent value).apply d = (.ok ⟨⟩, d) := by
  unfold checkOperand
  simp only [apply_bind, apply_get, h, if_true, apply_pure]

theorem checkOperand_refused {parent : ModuleId} {value : ValueId}
    (h : d.owner? value ≠ some parent) : ∃ e, (checkOperand parent value).apply d = (.error e, d) := by
  unfold checkOperand
  simp only [apply_bind, apply_get]
  cases howner : d.owner? value with
  | none => exact ⟨_, rfl⟩
  | some owner =>
      have hne : owner ≠ parent := fun he => h (he ▸ howner)
      simp only [if_neg hne, apply_bind, apply_query]
      cases d.getModule parent with
      | error e => exact ⟨_, rfl⟩
      | ok m => exact ⟨_, rfl⟩

theorem checkOperands_apply {parent : ModuleId} {values : List ValueId}
    (h : ∀ v ∈ values, d.owner? v = some parent) :
    (values.forM (checkOperand parent)).apply d = (.ok ⟨⟩, d) := by
  induction values with
  | nil => rfl
  | cons v values ih =>
      rw [List.forM_eq_forM, List.forM_cons]
      simp only [apply_bind, checkOperand_apply (h v List.mem_cons_self)]
      exact ih fun w hw => h w (List.mem_cons_of_mem v hw)

theorem checkOperands_refused {parent : ModuleId} {values : List ValueId}
    (h : ¬ ∀ v ∈ values, d.owner? v = some parent) :
    ∃ e, (values.forM (checkOperand parent)).apply d = (.error e, d) := by
  induction values with
  | nil => exact absurd (fun v hv => absurd hv List.not_mem_nil) h
  | cons v values ih =>
      rw [List.forM_eq_forM, List.forM_cons]
      simp only [apply_bind]
      by_cases hv : d.owner? v = some parent
      · rw [checkOperand_apply hv]
        refine ih fun hvalues => h fun w hw => ?_
        rcases List.mem_cons.mp hw with rfl | hw
        · exact hv
        · exact hvalues w hw
      · obtain ⟨e, he⟩ := checkOperand_refused hv
        rw [he]
        exact ⟨e, rfl⟩

theorem appendOp_apply {parent : ModuleId} {m : HwModule} {body : Body}
    {operation : Operation ModuleId ValueId} (live : d.module? parent = some m)
    (begun : m.body? = some body) (unfinished : body.terminated = false)
    (owned : ∀ v ∈ operation.operands, d.owner? v = some parent) (types : List HwType)
    (attributes : AttributeMap) (location : Location) :
    (appendOp parent operation types attributes location).apply d =
      (.ok d.nextOp, d.append parent body operation types attributes location) := by
  unfold appendOp
  simp only [apply_bind, checkOperands_apply owned, apply_query, Design.getModule_eq_ok_iff.mpr live, begun,
    unfinished, Bool.false_eq_true, if_false, apply_pure, apply_get, apply_modify, apply_set, setBody,
    newValues]
  rfl

theorem appendOp_cases (parent : ModuleId) (operation : Operation ModuleId ValueId)
    (types : List HwType) (attributes : AttributeMap) (location : Location) (d : Design) :
    (∃ e, (appendOp parent operation types attributes location).apply d = (.error e, d)) ∨
      ∃ d', d.Appends parent operation d' ∧ d'.Yields d.nextOp types ∧
        (appendOp parent operation types attributes location).apply d = (.ok d.nextOp, d') := by
  by_cases owned : ∀ v ∈ operation.operands, d.owner? v = some parent
  case neg =>
    obtain ⟨e, he⟩ := checkOperands_refused owned
    unfold appendOp
    simp only [apply_bind, he]
    exact Or.inl ⟨e, rfl⟩
  cases hm : d.module? parent with
  | none =>
      have hget : d.getModule parent = .error (.invalidModule parent) := by
        unfold Design.getModule
        rw [hm]
      unfold appendOp
      simp only [apply_bind, checkOperands_apply owned, apply_query, hget]
      exact Or.inl ⟨_, rfl⟩
  | some m =>
      cases hb : m.body? with
      | none =>
          unfold appendOp
          simp only [apply_bind, checkOperands_apply owned, apply_query, Design.getModule_eq_ok_iff.mpr hm, hb,
            apply_throw]
          exact Or.inl ⟨_, rfl⟩
      | some body =>
          by_cases ht : body.terminated = true
          · unfold appendOp
            simp only [apply_bind, checkOperands_apply owned, apply_query, Design.getModule_eq_ok_iff.mpr hm, hb,
              if_pos ht, apply_throw]
            exact Or.inl ⟨_, rfl⟩
          · rw [Bool.not_eq_true] at ht
            exact Or.inr ⟨_, .intro hm hb ht owned types attributes location,
              d.yields_append parent body operation types attributes location,
              appendOp_apply hm hb ht owned types attributes location⟩

theorem insertOp_cases (operation : Operation ModuleId ValueId) (types : List HwType)
    (location? : Option Location) (d : Design) :
    (∃ e, (insertOp operation types location?).apply d = (.error e, d)) ∨
      ∃ parent d', d.scopes.insertionPoint? = some parent ∧ d.Appends parent operation d' ∧
        d'.Yields d.nextOp types ∧
          (insertOp operation types location?).apply d = (.ok d.nextOp, d') := by
  unfold insertOp
  simp only [apply_bind, apply_get]
  cases hp : d.scopes.insertionPoint? with
  | none => exact Or.inl ⟨_, rfl⟩
  | some parent =>
      rcases appendOp_cases parent operation types .empty
        (location?.getD d.scopes.location) d with ⟨e, he⟩ | ⟨d', hd', hyields, hok⟩
      · exact Or.inl ⟨e, he⟩
      · exact Or.inr ⟨parent, d', rfl, hd', hyields, hok⟩

end Edit

/-! ### Steps that compute within a body -/

/-- If the operation is a register, there is a clock and it is that of the register. -/
def Operation.ClockedBy {μ : Type} (clock? : Option Clock) : Operation μ ValueId → Prop
  | .register _ clock => clock? = some ⟨clock⟩
  | _ => True

namespace Design

/-- An operation that neither instantiates a module nor ends the body has been appended at the insertion
point; a register has the clock in scope. -/
def Computes (d d' : Design) : Prop :=
  ∃ parent operation, d.scopes.insertionPoint? = some parent ∧ d.Appends parent operation d' ∧
    operation.isTerminator = false ∧ operation.callee? = none ∧ operation.ClockedBy d.scopes.clock?

/-- Some such operations have been appended one after another. -/
abbrev Grows : Design → Design → Prop :=
  Relation.ReflTransGen Computes

instance : IsPreorder Design Grows where
  refl _ := .refl
  trans _ _ _ := .trans

end Design

namespace Edit

open Step

variable {d : Design}

theorem insertValue_leads {operation : Operation ModuleId ValueId} (type : HwType)
    (ht : operation.isTerminator = false) (hc : operation.callee? = none) {d : Design}
    (hclock : operation.ClockedBy d.scopes.clock?) :
    (insertValue operation type).Leads Design.Grows (fun _ _ => True) d := by
  have hinsert : (insertOp operation [type] none).Leads Design.Grows (fun _ _ => True) d := by
    rcases insertOp_cases operation [type] none d with ⟨e, he⟩ | ⟨parent, d', hp, happ, _, hok⟩
    · exact ⟨by rw [he], fun _ _ => trivial⟩
    · refine leads_of_apply hok (.single ⟨parent, operation, hp, happ, ht, hc, hclock⟩) fun _ _ => trivial
  refine hinsert.bind fun op d' _ _ => ?_
  exact (leads_query _ d').forget

theorem constant_leads (type : HwType) (value : Int) (d : Design) :
    (constant type value).Leads Design.Grows (fun _ _ => True) d := by
  unfold constant
  cases Constant.ofInt? type value with
  | none => exact leads_throw _ _ d
  | some c => exact insertValue_leads type rfl rfl trivial

theorem zero_leads (type : HwType) (d : Design) :
    (zero type).Leads Design.Grows (fun _ _ => True) d :=
  insertValue_leads type rfl rfl trivial

theorem add_leads (lhs rhs : Signal) (d : Design) :
    (add lhs rhs).Leads Design.Grows (fun _ _ => True) d := by
  unfold add
  refine Leads.guard fun _ => Leads.guard fun _ => ?_
  exact insertValue_leads lhs.type rfl rfl trivial

theorem register_leads (input : Signal) (d : Design) :
    (register input).Leads Design.Grows (fun _ _ => True) d := by
  unfold register registerWith
  refine (leads_get d).bind fun d₀ d' _ hread => ?_
  obtain ⟨rfl, rfl⟩ := hread
  cases hclock : d₀.scopes.clock? with
  | none => exact leads_throw _ _ d₀
  | some clock => exact insertValue_leads input.type rfl rfl hclock

end Edit

/-! ### Instances and the end of a body -/

namespace Design

/-- The design with other attributes for an operation. -/
def annotate (d : Design) (id : OpId) (op : Op) (attributes : AttributeMap) : Design :=
  { d with ops := d.ops.setIfInBounds id.index { op with attributes } }

theorem op?_annotate {d : Design} {id : OpId} {op : Op} (h : d.op? id = some op)
    (attributes : AttributeMap) (o : OpId) :
    (d.annotate id op attributes).op? o = if o = id then some { op with attributes } else d.op? o :=
  op?_set rfl (lt_size_of_op? h) o

end Design

namespace Edit

open Step

theorem instantiate_cases (module : ModuleId) (name : String) (inputs : List ValueId)
    (parameters : AttributeMap) (location : Location) (d : Design) :
    (∃ e, (instantiate module name inputs parameters location).apply d = (.error e, d)) ∨
      ∃ callee parent d', d.module? module = some callee ∧
        d.scopes.insertionPoint? = some parent ∧
        d.Appends parent (.instantiate module name inputs parameters) d' ∧
        d'.Yields d.nextOp (callee.outputs.map (·.type)) ∧
        (instantiate module name inputs parameters location).apply d = (.ok d.nextOp, d') := by
  unfold instantiate
  simp only [apply_bind, apply_query]
  cases hm : d.getModule module with
  | error e => exact Or.inl ⟨e, rfl⟩
  | ok m =>
      refine (insertOp_cases _ _ _ d).imp_right fun ⟨parent, d', hinsert⟩ => ?_
      exact ⟨m, parent, d', Design.getModule_eq_ok_iff.mp hm, hinsert⟩

theorem setAttribute_cases (id : OpId) (name : String) (value : Attribute) (d : Design) :
    (∃ e, (setAttribute id name value).apply d = (.error e, d)) ∨
      ∃ op, d.op? id = some op ∧ (setAttribute id name value).apply d =
        (.ok ⟨⟩, d.annotate id op (op.attributes.insert name value)) := by
  unfold setAttribute Design.getOp
  simp only [apply_bind, apply_get, apply_query]
  cases d.op? id with
  | none => exact Or.inl ⟨_, rfl⟩
  | some op => exact Or.inr ⟨op, rfl, rfl⟩

theorem checkOutputs_keeps (symbol : String) (bindings : List (Port × Signal)) (d : Design) :
    ((bindings.forM fun (port, value) => checkOutput symbol port value).apply d).2 = d := by
  induction bindings with
  | nil => rfl
  | cons binding bindings ih =>
      rw [List.forM_eq_forM, List.forM_cons]
      unfold checkOutput at ih ⊢
      by_cases h : binding.1.type = binding.2.type
      · simp only [apply_bind, if_pos h, apply_pure]
        exact ih
      · simp only [apply_bind, if_neg h, apply_throw]

theorem output_cases (values : List Signal) (d : Design) :
    (∃ e, (output values).apply d = (.error e, d)) ∨
      ∃ parent d', d.scopes.insertionPoint? = some parent ∧
        d.Appends parent (.output (values.map (·.value))) d' ∧
        (output values).apply d = (.ok ⟨⟩, d') := by
  unfold output
  simp only [apply_bind, apply_get]
  cases hp : d.scopes.insertionPoint? with
  | none => exact Or.inl ⟨_, rfl⟩
  | some parent =>
      simp only [apply_bind, apply_query]
      cases d.getModule parent with
      | error e => exact Or.inl ⟨e, rfl⟩
      | ok m =>
          by_cases hl : m.outputs.length = values.length
          · have hkeep := checkOutputs_keeps m.symbol (m.outputs.zip values) d
            simp only [if_pos hl, apply_bind]
            rcases hcheck : Step.apply ((m.outputs.zip values).forM fun (port, value) =>
              checkOutput m.symbol port value) d with ⟨e | a, d₁⟩
            · rw [hcheck] at hkeep
              exact Or.inl ⟨e, by rw [← hkeep]⟩
            · rw [hcheck] at hkeep
              subst hkeep
              simp only [apply_discard]
              rcases insertOp_cases (.output (values.map (·.value))) [] none d₁ with
                ⟨e, he⟩ | ⟨parent', d', hp', happ, _, hok⟩
              · rw [he]
                exact Or.inl ⟨e, rfl⟩
              · rw [hok]
                rw [hp] at hp'
                obtain rfl := Option.some.inj hp'
                exact Or.inr ⟨parent, d', rfl, happ, rfl⟩
          · exact Or.inl ⟨.outputCount m.symbol m.outputs.length values.length, by
              simp only [if_neg hl, apply_bind, apply_throw]⟩

end Edit

end Wirework
