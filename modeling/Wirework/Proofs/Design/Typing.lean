import Wirework.Proofs.Design.Structure

/-! # Types of operations

Whatever is called, the values and operations of a design stay in its tables, with their types and their places
(`Evolves.retains`), and a module that is still live has the header with which it was made, since its position in the
module table is not used again (`Evolves.module?_eq_some`).

An operation is well typed if its operands have the recorded types it takes and its results those it gives
(`WellTyped`).  As types are not changed once they are recorded, an operation that is well typed stays so, and only
what a call appends has to be looked at.  Some steps check the type that a signal claims to have, others the recorded
type of a value, and some check nothing.  If every signal tells the truth and every clock is one, then all operations
of all bodies are well typed nevertheless (`TypeSound.after`): a call adds at most operations that are well typed, and
what has been recorded stays (`TypeSound.of_evolves`). -/

namespace Wirework

/-! ## What stays in the tables -/

namespace Design

variable {d d' : Design}

/-! ### Values and operations -/

instance : IsPreorder Design Retains where
  refl _ := retains_of_tables rfl rfl
  trans d d' d'' h h' := by
    refine ⟨fun v value hv => h'.value v value (h.value v value hv), fun o op hop => ?_⟩
    obtain ⟨op', hop', hparent, hoperation, hresults⟩ := h.op o op hop
    obtain ⟨op'', hop'', hparent', hoperation', hresults'⟩ := h'.op o op' hop'
    exact ⟨op'', hop'', hparent'.trans hparent, hoperation'.trans hoperation,
      hresults'.trans hresults⟩

theorem Retains.congr {d₁ : Design} (h : d.Retains d₁) (hv : d'.values = d₁.values)
    (ho : d'.ops = d₁.ops) : d.Retains d' :=
  trans_of Retains h (retains_of_tables hv ho)

theorem Retains.typeOf?_eq (h : d.Retains d') {v : ValueId} {type : HwType}
    (hv : d.typeOf? v = some type) : d'.typeOf? v = some type := by
  obtain ⟨value, hvalue, htype⟩ := typeOf?_eq_some_iff.mp hv
  exact typeOf?_eq_some_iff.mpr ⟨value, h.value v value hvalue, htype⟩

theorem Retains.owner?_eq (h : d.Retains d') {v : ValueId} {id : ModuleId}
    (hv : d.owner? v = some id) : d'.owner? v = some id := by
  unfold owner? at hv ⊢
  obtain ⟨value, hvalue, hsource⟩ := Option.bind_eq_some_iff.mp hv
  rw [h.value v value hvalue, Option.bind_some]
  cases hs : value.source with
  | argument module index =>
      rw [hs] at hsource
      exact hsource
  | result o index =>
      rw [hs] at hsource
      obtain ⟨op, hop, hparent⟩ := Option.map_eq_some_iff.mp hsource
      obtain ⟨op', hop', hparent', _⟩ := h.op o op hop
      exact Option.map_eq_some_iff.mpr ⟨op', hop', hparent'.trans hparent⟩

theorem Takes.retains {slot : Option HwModule} (h : d.Takes slot d') : d.Retains d' :=
  ⟨h.value_old, fun o op hop => ⟨op, h.op_old o op hop, rfl, rfl, rfl⟩⟩

theorem retains_annotate {id : OpId} {op : Op} (hid : d.op? id = some op)
    (attributes : AttributeMap) : d.Retains (d.annotate id op attributes) := by
  refine ⟨fun v value hv => hv, fun o found hfound => ?_⟩
  rw [op?_annotate hid]
  by_cases ho : o = id
  · subst ho
    rw [hid] at hfound
    obtain rfl := Option.some.inj hfound
    exact ⟨_, if_pos rfl, rfl, rfl, rfl⟩
  · exact ⟨found, (if_neg ho).trans hfound, rfl, rfl, rfl⟩

theorem Changes.retains (h : d.Changes d') : d.Retains d' := by
  cases h with
  | scopes | addModule | eraseModule => exact retains_of_tables rfl rfl
  | beginBody => exact retains_beginBody d _ _
  | append appends callee => exact appends.retains
  | annotate found attributes => exact retains_annotate found attributes

/-- Values and operations stay in the tables. -/
theorem Evolves.retains (h : d.Evolves d') : d.Retains d' := by
  induction h with
  | refl => exact refl_of Retains d
  | tail _ hchange ih => exact trans_of Retains ih hchange.retains

/-! ### Headers -/

theorem Changes.size_le (h : d.Changes d') : d.modules.size ≤ d'.modules.size := by
  cases h with
  | scopes | annotate => exact Nat.le_refl _
  | addModule => simp
  | eraseModule => simp
  | beginBody => exact Nat.le_of_eq Array.size_modify.symm
  | append appends callee => exact Nat.le_of_eq appends.modules_size.symm

theorem Changes.header?_eq (h : d.Changes d') {c : ModuleId} (hc : c.index < d.modules.size)
    {m' : HwModule} (hm' : d'.module? c = some m') : d'.header? c = d.header? c := by
  cases h with
  | scopes | annotate => exact header?_congr rfl
  | addModule m unbegun => exact header?_congr ((module?_push rfl c).trans (if_neg (ne_nextModule hc)))
  | eraseModule id =>
      rw [module?_erase rfl] at hm'
      by_cases hid : c = id
      · rw [if_pos hid] at hm'
        cases hm'
      · exact header?_congr ((module?_erase rfl c).trans (if_neg hid))
  | beginBody => exact header?_beginBody d _ _ c
  | append appends callee => exact appends.header?_eq c

/-- A module that is still live has the header with which it was made. -/
theorem Evolves.module?_eq_some (h : d.Evolves d') {c : ModuleId} (hc : c.index < d.modules.size)
    {m' : HwModule} (hm' : d'.module? c = some m') :
    ∃ m, d.module? c = some m ∧ m.header = m'.header := by
  suffices hkept : ∀ d', d.Evolves d' → d.modules.size ≤ d'.modules.size ∧
      ∀ m', d'.module? c = some m' → d'.header? c = d.header? c by
    have hheader := (hkept d' h).2 m' hm'
    exact header?_eq_some_iff.mp (hheader.symm.trans (header?_eq_some_iff.mpr ⟨m', hm', rfl⟩))
  intro d' h
  induction h with
  | refl => exact ⟨Nat.le_refl _, fun _ _ => rfl⟩
  | tail _ hchange ih =>
      obtain ⟨hsize, hheader⟩ := ih
      refine ⟨Nat.le_trans hsize hchange.size_le, fun m' hm' => ?_⟩
      have hlast := hchange.header?_eq (Nat.lt_of_lt_of_le hc hsize) hm'
      obtain ⟨m, hm, -⟩ := header?_eq_some_iff.mp (hlast.symm.trans (header?_eq_some_iff.mpr ⟨m', hm', rfl⟩))
      exact hlast.trans (hheader m hm)

end Design

/-! ## Types of operations -/

namespace Design

variable {d d' : Design} {outputs : List Port} {operation : Operation ModuleId ValueId}
  {types : List HwType}

/-! ### Well-typed operations -/

/-- In a body with the given output ports the operation takes its operands, as far as it does not leave them to
the check of an instance, and it has results of the given types. -/
inductive WellTyped (d : Design) (outputs : List Port) :
    Operation ModuleId ValueId → List HwType → Prop
  | constant (c : Constant) (fits : c.type.Fits c.value) : WellTyped d outputs (.constant c) [c.type]
  | add {lhs rhs : ValueId} {type : HwType} (arithmetic : type.isArithmetic = true)
      (left : d.typeOf? lhs = some type) (right : d.typeOf? rhs = some type) :
      WellTyped d outputs (.add lhs rhs) [type]
  | register {input clock : ValueId} {type : HwType} (fed : d.typeOf? input = some type)
      (clocked : d.typeOf? clock = some .clock) : WellTyped d outputs (.register input clock) [type]
  | instantiate (module : ModuleId) (name : String) (inputs : List ValueId) (parameters : AttributeMap)
      (types : List HwType) : WellTyped d outputs (.instantiate module name inputs parameters) types
  | output {values : List ValueId}
      (driven : List.Forall₂ (fun port v => d.typeOf? v = some port.type) outputs values) :
      WellTyped d outputs (.output values) []

/-- The operation is well typed, and its results have the recorded types accordingly. -/
def OpTyped (d : Design) (outputs : List Port) (op : Op) : Prop :=
  ∃ types, d.WellTyped outputs op.operation types ∧
    List.Forall₂ (fun type v => d.typeOf? v = some type) types op.results

theorem WellTyped.retained (h : d.WellTyped outputs operation types) (hr : d.Retains d') :
    d'.WellTyped outputs operation types := by
  cases h with
  | constant c fits => exact .constant c fits
  | add arithmetic left right => exact .add arithmetic (hr.typeOf?_eq left) (hr.typeOf?_eq right)
  | register fed clocked => exact .register (hr.typeOf?_eq fed) (hr.typeOf?_eq clocked)
  | instantiate => exact .instantiate _ _ _ _ _
  | output driven => exact .output (driven.imp fun _ _ hv => hr.typeOf?_eq hv)

theorem OpTyped.retained {op op' : Op} (h : d.OpTyped outputs op) (hr : d.Retains d')
    (hoperation : op'.operation = op.operation) (hresults : op'.results = op.results) :
    d'.OpTyped outputs op' := by
  obtain ⟨types, htyped, hgives⟩ := h
  refine ⟨types, ?_, ?_⟩
  · rw [hoperation]
    exact htyped.retained hr
  · rw [hresults]
    exact hgives.imp fun _ _ hv => hr.typeOf?_eq hv

/-! ### Designs with well-typed bodies -/

/-- The operations of all bodies are well typed, and the clocks in scope are clocks. -/
structure TypeSound (d : Design) : Prop where
  linked : d.Linked
  ops : ∀ id m body, d.module? id = some m → m.body? = some body → ∀ o ∈ body.ops,
    ∃ op, d.op? o = some op ∧ d.OpTyped m.outputs op
  clocks : ∀ clock, some clock ∈ d.scopes.clocks → d.typeOf? clock.value = some .clock

theorem TypeSound.empty : Design.empty.TypeSound where
  linked := Linked.empty
  ops id m body hm := by cases hm
  clocks clock hclock := absurd hclock List.not_mem_nil

theorem Linked.evolves (h : d.Linked) (he : d.Evolves d') : d'.Linked := by
  induction he with
  | refl => exact h
  | tail _ hchange ih => exact ih.changes hchange

/-- It is enough that the new operations are well typed, and that the new clocks are clocks. -/
theorem TypeSound.of_evolves (h : d.TypeSound) (he : d.Evolves d')
    (hops : ∀ o op m, d.op? o = none → d'.op? o = some op → d'.module? op.parent = some m →
      d'.OpTyped m.outputs op)
    (hclocks : ∀ clock, some clock ∈ d'.scopes.clocks →
      some clock ∈ d.scopes.clocks ∨ d'.typeOf? clock.value = some .clock) : d'.TypeSound := by
  have hlinked := h.linked.evolves he
  refine ⟨hlinked, fun id m' body' hm' hbody' o ho => ?_, fun clock hclock => ?_⟩
  · obtain ⟨op', hop', rfl⟩ := (hlinked.bodies id m' body' hm' hbody').parent o ho
    refine ⟨op', hop', ?_⟩
    cases hop : d.op? o with
    | none => exact hops o op' m' hop hop' hm'
    | some op =>
        -- An operation that was there is listed by the module that lists it now.
        obtain ⟨hparent, hoperation, hresults⟩ := he.retains.operation_eq hop hop'
        obtain ⟨hlt, hlisted⟩ := h.linked.op_listed o op hop
        rw [hparent] at hm'
        obtain ⟨m, hm, hheader⟩ := he.module?_eq_some hlt hm'
        obtain ⟨body, hbody, hmem⟩ := hlisted m hm
        obtain ⟨found, hfound, htyped⟩ := h.ops op.parent m body hm hbody o hmem
        rw [hop] at hfound
        obtain rfl := Option.some.inj hfound
        have houtputs : m.outputs = m'.outputs := congrArg (·.outputs) hheader
        exact houtputs ▸ htyped.retained he.retains hoperation hresults
  · exact (hclocks clock hclock).elim (fun hold => he.retains.typeOf?_eq (h.clocks clock hold)) id

theorem TypeSound.of_ops (h : d.TypeSound) (he : d.Evolves d') (hops : d'.ops = d.ops)
    (hclocks : ∀ clock, clock ∈ d'.scopes.clocks → clock ∈ d.scopes.clocks) : d'.TypeSound := by
  refine h.of_evolves he (fun o op m hnone hop _ => ?_) fun clock hclock => Or.inl (hclocks _ hclock)
  unfold op? at hnone hop
  rw [hops, hnone] at hop
  cases hop

/-- An operation has been added. -/
theorem TypeSound.append (h : d.TypeSound) {parent : ModuleId}
    (happ : d.Appends parent operation d')
    (hcallee : ∀ c, operation.callee? = some c → d.IsLive c) (hyields : d'.Yields d.nextOp types)
    (htyped : ∀ m, d.module? parent = some m → d.WellTyped m.outputs operation types) :
    d'.TypeSound := by
  have he : d.Evolves d' := .single (.append happ hcallee)
  refine h.of_evolves he (fun o op m' hnone hop hm' => ?_) fun clock hclock => Or.inl ?_
  · rcases happ.op_cases hop with hold | ⟨rfl, rfl, rfl⟩
    · rw [hnone] at hold
      cases hold
    · obtain ⟨found, hfound, hgives⟩ := hyields
      rw [hop] at hfound
      obtain rfl := Option.some.inj hfound
      obtain ⟨m, hm, hheader⟩ := exists_module?_of_header? (happ.header?_eq op.parent).symm hm'
      have houtputs : m.outputs = m'.outputs := congrArg (·.outputs) hheader
      exact houtputs ▸ ⟨types, (htyped m hm).retained happ.retains, hgives⟩
  · rwa [happ.scopes_eq] at hclock

end Design

/-! ### Calls that tell the truth -/

/-- The signal has the recorded type of its value, if there is one. -/
def Signal.Truthful (d : Design) (s : Signal) : Prop :=
  ∀ type, d.typeOf? s.value = some type → s.type = type

/-- The signals of the call are truthful and its clocks are clocks.  Whether a copy is right depends on
where the image has been taken. -/
def DesignCall.Truthful (d : Design) : DesignCall → Prop
  | add lhs rhs => lhs.Truthful d ∧ rhs.Truthful d
  | register input => input.Truthful d
  | registerWith input clock => input.Truthful d ∧ d.typeOf? clock.value = some .clock
  | pushClock clock => ∀ c, clock = some c → d.typeOf? c.value = some .clock
  | output values => ∀ s ∈ values, s.Truthful d
  | importImage _ _ => False
  | _ => True

theorem Signal.Truthful.typeOf?_eq {d d' : Design} {s : Signal} (h : s.Truthful d) {parent : ModuleId}
    {operation : Operation ModuleId ValueId} (happ : d.Appends parent operation d')
    (hs : s.value ∈ operation.operands) : d.typeOf? s.value = some s.type := by
  obtain ⟨type, htype⟩ := Design.exists_typeOf?_of_owner? (happ.owned s.value hs)
  exact htype.trans (congrArg some (h type htype).symm)

namespace Edit

open Step

variable {d d' : Design}

/-! ### Steps that append an operation -/

theorem insertValue_typeSound (h : d.TypeSound) {operation : Operation ModuleId ValueId} {type : HwType}
    (hcallee : operation.callee? = none)
    (htyped : ∀ parent d', d.Appends parent operation d' →
      ∀ outputs, d.WellTyped outputs operation [type]) :
    ((insertValue operation type).apply d).2.TypeSound := by
  unfold insertValue
  rw [apply_bind]
  rcases insertOp_cases operation [type] none d with ⟨e, he⟩ | ⟨parent, d', _, happ, hyields, hok⟩
  · rw [he]
    exact h
  · rw [hok]
    simp only [apply_query]
    exact h.append happ (fun c hc => by rw [hcallee] at hc; cases hc) hyields
      fun m _ => htyped parent d' happ m.outputs

theorem constant_typeSound (h : d.TypeSound) (type : HwType) (value : Int) :
    ((constant type value).apply d).2.TypeSound := by
  unfold constant
  cases hc : Constant.ofInt? type value with
  | none => exact h
  | some c =>
      obtain ⟨rfl, -⟩ := Constant.ofInt?_eq_some_iff.mp hc
      exact insertValue_typeSound h rfl fun _ _ _ _ => .constant c c.fits

theorem add_typeSound (h : d.TypeSound) {lhs rhs : Signal} (hl : lhs.Truthful d)
    (hr : rhs.Truthful d) : ((add lhs rhs).apply d).2.TypeSound := by
  unfold add
  by_cases hsame : lhs.type = rhs.type
  case neg => rw [if_neg hsame]; exact h
  rw [if_pos hsame]
  by_cases harithmetic : lhs.type.isArithmetic = true
  case neg => rw [if_neg harithmetic]; exact h
  rw [if_pos harithmetic]
  refine insertValue_typeSound h rfl fun parent d' happ outputs => ?_
  have hright := hr.typeOf?_eq happ (List.mem_cons_of_mem _ List.mem_cons_self)
  exact .add harithmetic (hl.typeOf?_eq happ List.mem_cons_self) (hsame ▸ hright)

theorem registerWith_typeSound (h : d.TypeSound) {input : Signal} (hinput : input.Truthful d)
    {clock : Clock} (hclock : d.typeOf? clock.value = some .clock) :
    ((registerWith input clock).apply d).2.TypeSound := by
  refine insertValue_typeSound h rfl fun parent d' happ outputs => ?_
  exact .register (hinput.typeOf?_eq happ List.mem_cons_self) hclock

theorem register_typeSound (h : d.TypeSound) {input : Signal} (hinput : input.Truthful d) :
    ((register input).apply d).2.TypeSound := by
  unfold register
  simp only [apply_bind, apply_get]
  cases hclock : d.scopes.clock? with
  | none => exact h
  | some clock =>
      refine registerWith_typeSound h hinput (h.clocks clock ?_)
      obtain ⟨_, hhead, rfl⟩ := Option.bind_eq_some_iff.mp hclock
      exact List.mem_of_head? hhead

theorem instantiate_typeSound (h : d.TypeSound) (module : ModuleId) (name : String)
    (inputs : List ValueId) (parameters : AttributeMap) (location : Location) :
    ((instantiate module name inputs parameters location).apply d).2.TypeSound := by
  rcases instantiate_cases module name inputs parameters location d with
    ⟨e, he⟩ | ⟨callee, parent, d', hcallee, _, happ, hyields, hok⟩
  · rw [he]
    exact h
  · rw [hok]
    refine h.append happ (fun c hc => ?_) hyields fun _ _ => .instantiate _ _ _ _ _
    exact Option.some.inj hc ▸ ⟨callee, hcallee⟩

theorem checkOutputs_passed {symbol : String} {bindings : List (Port × Signal)}
    (h : (bindings.forM fun (port, value) => checkOutput symbol port value).apply d = (.ok ⟨⟩, d')) :
    ∀ binding ∈ bindings, binding.1.type = binding.2.type := by
  induction bindings generalizing d with
  | nil => exact fun binding hb => absurd hb List.not_mem_nil
  | cons binding bindings ih =>
      rw [List.forM_eq_forM, List.forM_cons] at h
      obtain ⟨_, d₁, hfirst, hrest⟩ := apply_bind_eq_ok_iff.mp h
      refine List.forall_mem_cons.mpr ⟨?_, ih hrest⟩
      by_contra hne
      simp only [checkOutput, if_neg hne] at hfirst
      cases hfirst

/-- A body is ended with values of the types that its output ports have. -/
theorem output_passed {values : List Signal} (h : (output values).apply d = (.ok ⟨⟩, d')) :
    ∃ parent m, d.module? parent = some m ∧
      List.Forall₂ (fun (port : Port) (s : Signal) => port.type = s.type) m.outputs values ∧
      d.Appends parent (.output (values.map (·.value))) d' ∧ d'.Yields d.nextOp [] := by
  unfold output at h
  obtain ⟨_, _, hget, h⟩ := apply_bind_eq_ok_iff.mp h
  cases hget
  cases hparent : d.scopes.insertionPoint? with
  | none => rw [hparent] at h; cases h
  | some parent =>
      rw [hparent] at h
      obtain ⟨m, _, hquery, hcheck⟩ := apply_bind_eq_ok_iff.mp h
      obtain ⟨hm, rfl⟩ := apply_query_eq_ok_iff.mp hquery
      by_cases hlength : m.outputs.length = values.length
      case neg => rw [if_neg hlength] at hcheck; cases hcheck
      rw [if_pos hlength] at hcheck
      obtain ⟨_, d₁, hpassed, hinsert⟩ := apply_bind_eq_ok_iff.mp hcheck
      have htypes := checkOutputs_passed hpassed
      have hkeep := checkOutputs_keeps m.symbol (m.outputs.zip values) d
      rw [hpassed] at hkeep
      obtain rfl : d₁ = d := hkeep
      rcases insertOp_cases (.output (values.map (·.value))) [] none d₁ with
        ⟨e, he⟩ | ⟨parent', d₂, hparent', happ, hyields, hok⟩
      · rw [apply_discard, he] at hinsert
        cases hinsert
      · rw [apply_discard, hok] at hinsert
        obtain rfl : d₂ = d' := (Prod.mk.inj hinsert).2
        obtain rfl := Option.some.inj (hparent.symm.trans hparent')
        refine ⟨parent, m, Design.getModule_eq_ok_iff.mp hm, ?_, happ, hyields⟩
        exact List.forall₂_iff_zip.mpr ⟨hlength, fun hb => htypes _ hb⟩

theorem output_typeSound (h : d.TypeSound) {values : List Signal}
    (hvalues : ∀ s ∈ values, s.Truthful d) : ((output values).apply d).2.TypeSound := by
  rcases houtput : (output values).apply d with ⟨e | ⟨⟩, d'⟩
  · rcases output_cases values d with ⟨e', he⟩ | ⟨_, _, _, _, hok⟩
    · rw [houtput] at he
      obtain rfl : d' = d := (Prod.mk.inj he).2
      exact h
    · rw [houtput] at hok
      cases hok
  · obtain ⟨parent, m, hm, htypes, happ, hyields⟩ := output_passed houtput
    refine h.append happ (fun c hc => by cases hc) hyields fun m' hm' => .output ?_
    obtain rfl := Option.some.inj (hm.symm.trans hm')
    rw [List.forall₂_map_right_iff]
    obtain ⟨hlength, htypes⟩ := List.forall₂_iff_zip.mp htypes
    refine List.forall₂_iff_zip.mpr ⟨hlength, fun {port s} hb => ?_⟩
    have hs := (List.of_mem_zip hb).2
    have hrecorded := (hvalues s hs).typeOf?_eq happ (List.mem_map_of_mem hs)
    exact hrecorded.trans (congrArg some (htypes hb).symm)

/-! ### Steps that append nothing -/

theorem addModule_typeSound (h : d.TypeSound) {m : HwModule} (unbegun : m.body? = none) :
    ((addModule m).apply d).2.TypeSound := by
  have he := (addModule_evolves m unbegun d).state
  rcases addModule_cases m d with ⟨e, hrefused⟩ | ⟨_, hok⟩
  · rw [hrefused]
    exact h
  · rw [hok] at he ⊢
    exact h.of_ops he rfl fun _ hc => hc

theorem addEntryBlock_typeSound (h : d.TypeSound) (id : ModuleId) :
    ((addEntryBlock id).apply d).2.TypeSound := by
  have he := (addEntryBlock_evolves id d).state
  rcases addEntryBlock_cases id d with ⟨e, hrefused⟩ | ⟨m, _, _, hok⟩
  · rw [hrefused]
    exact h
  · rw [hok] at he ⊢
    exact h.of_ops he rfl fun _ hc => hc

theorem setAttribute_typeSound (h : d.TypeSound) (id : OpId) (name : String) (value : Attribute) :
    ((setAttribute id name value).apply d).2.TypeSound := by
  have he := (setAttribute_evolves id name value d).state
  rcases setAttribute_cases id name value d with ⟨e, hrefused⟩ | ⟨op, hop, hok⟩
  · rw [hrefused]
    exact h
  · rw [hok] at he ⊢
    refine h.of_evolves he (fun o found m hnone hfound _ => ?_) fun _ hc => Or.inl hc
    rw [Design.op?_annotate hop, hnone] at hfound
    by_cases ho : o = id
    · rw [ho, hop] at hnone
      cases hnone
    · rw [if_neg ho] at hfound
      cases hfound

theorem pushInsertionPoint_typeSound (h : d.TypeSound) (id : ModuleId) :
    ((pushInsertionPoint id).apply d).2.TypeSound := by
  unfold pushInsertionPoint
  rw [apply_bind, apply_query]
  cases d.getModule id with
  | error e => exact h
  | ok m =>
      simp only
      by_cases hbody : m.body?.isNone = true
      · rw [if_pos hbody]
        exact h
      · rw [if_neg hbody]
        exact h.of_ops (.single (.scopes _)) rfl fun _ hc => hc

end Edit

namespace Design

/-- A truthful call leaves every body well typed. -/
theorem TypeSound.after {d : Design} (h : d.TypeSound) {call : DesignCall} (hcall : call.Truthful d) :
    (d.after call).TypeSound := by
  have hdiscard : ∀ {α : Type} {step : Edit α}, (step.apply d).2.TypeSound →
      ((discard step : Edit Unit).apply d).2.TypeSound := by
    intro α step hstep
    rw [Step.apply_discard]
    exact hstep
  have hscopes : ∀ scopes : Scopes, (∀ clock, clock ∈ scopes.clocks → clock ∈ d.scopes.clocks) →
      ({ d with scopes } : Design).TypeSound :=
    fun scopes hclocks => h.of_ops (.single (.scopes scopes)) rfl hclocks
  cases call with
  | newModule => exact hdiscard (Edit.addModule_typeSound h rfl)
  | newExternalModule => exact hdiscard (Edit.addModule_typeSound h rfl)
  | eraseModule id => exact h.of_ops (.single (.eraseModule id)) rfl fun _ hc => hc
  | addEntryBlock id => exact hdiscard (Edit.addEntryBlock_typeSound h id)
  | pushInsertionPoint id => exact Edit.pushInsertionPoint_typeSound h id
  | popInsertionPoint => exact hscopes _ fun _ hc => hc
  | pushLocation location => exact hscopes _ fun _ hc => hc
  | popLocation => exact hscopes _ fun _ hc => hc
  | pushClock clock =>
      refine h.of_evolves (.single (.scopes _)) (fun o op m hnone hop _ => ?_) fun c hc => ?_
      · exact absurd (hnone.symm.trans hop) nofun
      · rcases List.mem_cons.mp hc with heq | hc
        · exact Or.inr (hcall c heq.symm)
        · exact Or.inl hc
  | popClock => exact hscopes _ fun _ hc => List.mem_of_mem_tail hc
  | constant type value => exact hdiscard (Edit.constant_typeSound h type value)
  | zero type =>
      exact hdiscard (Edit.insertValue_typeSound h rfl fun _ _ _ _ => .constant (.zero type) (Constant.fits _))
  | add lhs rhs => exact hdiscard (Edit.add_typeSound h hcall.1 hcall.2)
  | register input => exact hdiscard (Edit.register_typeSound h hcall)
  | registerWith input clock => exact hdiscard (Edit.registerWith_typeSound h hcall.1 hcall.2)
  | instantiate module name inputs parameters location =>
      exact hdiscard (Edit.instantiate_typeSound h module name inputs parameters location)
  | setAttribute id name value => exact Edit.setAttribute_typeSound h id name value
  | output values => exact Edit.output_typeSound h hcall
  | importImage image symbol => exact hcall.elim

end Design

end Wirework
