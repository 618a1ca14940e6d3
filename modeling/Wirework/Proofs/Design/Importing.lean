import Wirework.Design.Edit
import Wirework.Proofs.Design.Appending
import Wirework.Proofs.Design.Traversal

/-! # Adding modules

A design gets a new module as an empty signature (`addModule_cases`) or as a copy of an image (`importImage_cases`).
Either way everything there was stays as it is, and what is new belongs to the new module: `d.Takes slot d'` says so
for the position taken by the new module, which is empty again if the copy has failed.

A copy is made by beginning a body and appending operations to it.  Each of these is one of the image with its
references resolved (`Resolves`): values by their positions, and callees by their symbols, in the design as it is
then, which has the new module already.  Whatever beginning a body and appending such operations preserves is
preserved by making a copy (`importBody_leads`); the induction over the operations is done once for all such
properties (`importOps_leads`). -/

namespace Wirework

namespace Design

/-! ### New bodies -/

/-- The design after the body of a module has been begun. -/
def beginBody (d : Design) (id : ModuleId) (m : HwModule) : Design :=
  { d with
    modules := d.modules.modify id.index (Option.map fun found =>
      { found with kind := .generated (some { arguments := d.nextValues m.inputs.length }) })
    values := d.values ++
      (m.inputs.map (·.type)).mapIdx fun index type => Value.mk type (.argument id index) }

theorem module?_beginBody (d : Design) (id : ModuleId) (m : HwModule) (j : ModuleId) :
    (d.beginBody id m).module? j = if j = id then (d.module? id).map fun found =>
      { found with kind := .generated (some { arguments := d.nextValues m.inputs.length }) }
      else d.module? j :=
  module?_modify rfl rfl j

theorem header?_beginBody (d : Design) (id : ModuleId) (m : HwModule) (j : ModuleId) :
    (d.beginBody id m).header? j = d.header? j := by
  by_cases hj : j = id
  · unfold header?
    rw [module?_beginBody, if_pos hj, hj, Option.map_map]
    rfl
  · exact header?_congr (by rw [module?_beginBody, if_neg hj])

/-! ### New modules -/

/-- The design `d'` is `d` with one more position in its module table, and with operations for it. -/
structure Takes (d : Design) (slot : Option HwModule) (d' : Design) : Prop where
  scopes_eq : d'.scopes = d.scopes
  size_eq : d'.modules.size = d.modules.size + 1
  module?_next : d'.module? d.nextModule = slot
  module?_old : ∀ id, id ≠ d.nextModule → d'.module? id = d.module? id
  op_old : ∀ o op, d.op? o = some op → d'.op? o = some op
  op_new : ∀ o op, d'.op? o = some op → d.op? o = some op ∨ op.parent = d.nextModule
  value_old : ∀ v value, d.value? v = some value → d'.value? v = some value
  owned : ∀ m body, slot = some m → m.body? = some body →
    ∀ o ∈ body.ops, ∃ op, d'.op? o = some op ∧ op.parent = d.nextModule

namespace Takes

variable {d d' d'' : Design} {slot : Option HwModule} {m : HwModule}

theorem push {m : HwModule} (h : d'.modules = d.modules.push (some m)) (hs : d'.scopes = d.scopes)
    (ho : d'.ops = d.ops) (hv : d'.values = d.values)
    (hb : ∀ body, m.body? = some body → body.ops = #[]) : d.Takes (some m) d' where
  scopes_eq := hs
  size_eq := by rw [h, Array.size_push]
  module?_next := by rw [module?_push h, if_pos rfl]
  module?_old id hid := by rw [module?_push h, if_neg hid]
  op_old o op hop := by unfold op? at hop ⊢; rw [ho]; exact hop
  op_new o op hop := by unfold op? at hop ⊢; rw [ho] at hop; exact Or.inl hop
  value_old v value hvalue := by unfold value? at hvalue ⊢; rw [hv]; exact hvalue
  owned m' body hm hbody o hmem := by
    obtain rfl := Option.some.inj hm
    rw [hb body hbody] at hmem
    exact absurd hmem (Array.not_mem_empty o)

theorem erase (h : d.Takes slot d')
    (hm : d''.modules = d'.modules.setIfInBounds d.nextModule.index none)
    (hs : d''.scopes = d'.scopes) (ho : d''.ops = d'.ops) (hv : d''.values = d'.values) :
    d.Takes none d'' where
  scopes_eq := hs.trans h.scopes_eq
  size_eq := by rw [hm, Array.size_setIfInBounds, h.size_eq]
  module?_next := by rw [module?_erase hm, if_pos rfl]
  module?_old id hid := by rw [module?_erase hm, if_neg hid, h.module?_old id hid]
  op_old o op hop := by unfold op?; rw [ho]; exact h.op_old o op hop
  op_new o op hop := by unfold op? at hop; rw [ho] at hop; exact h.op_new o op hop
  value_old v value hvalue := by unfold value?; rw [hv]; exact h.value_old v value hvalue
  owned m body hslot := by cases hslot

/-- The body of the new module is begun. -/
theorem begin {arguments : List ValueId} {types : List HwType} {source : Nat → ValueSource}
    (h : d.Takes (some m) d')
    (hm : d''.modules = d'.modules.modify d.nextModule.index
      (Option.map fun m => { m with kind := .generated (some { arguments }) }))
    (hs : d''.scopes = d'.scopes) (ho : d''.ops = d'.ops)
    (hv : d''.values = d'.values ++ types.mapIdx fun index type => Value.mk type (source index)) :
    d.Takes (some { m with kind := .generated (some { arguments }) }) d'' where
  scopes_eq := hs.trans h.scopes_eq
  size_eq := by rw [hm, Array.size_modify, h.size_eq]
  module?_next := by rw [module?_modify hm rfl, if_pos rfl, h.module?_next]; rfl
  module?_old id hid := by rw [module?_modify hm rfl, if_neg hid, h.module?_old id hid]
  op_old o op hop := by unfold op?; rw [ho]; exact h.op_old o op hop
  op_new o op hop := by unfold op? at hop; rw [ho] at hop; exact h.op_new o op hop
  value_old v value hvalue := value?_of_newValues hv (h.value_old v value hvalue)
  owned m' body hslot hbody o hmem := by
    obtain rfl := Option.some.inj hslot
    obtain rfl : { arguments } = body := Option.some.inj hbody
    exact absurd hmem (Array.not_mem_empty o)

/-- An operation is appended to the body of the new module. -/
theorem append {operation : Operation ModuleId ValueId} (h : d.Takes (some m) d')
    (happ : d'.Appends d.nextModule operation d'') :
    ∃ m', d.Takes (some m') d'' ∧ m'.header = m.header := by
  obtain ⟨m₁, body, hm₁, hbody, _, hm'⟩ := happ.module?_self
  rw [h.module?_next] at hm₁
  obtain rfl := Option.some.inj hm₁
  obtain ⟨new, hnew, hparent, _⟩ := happ.op?_new
  refine ⟨_, ⟨happ.scopes_eq.trans h.scopes_eq, by rw [happ.modules_size, h.size_eq], hm',
    fun id hid => (happ.module?_ne hid).trans (h.module?_old id hid),
    fun o op hop => happ.op?_old (h.op_old o op hop), ?_,
    fun v value hv => happ.value?_old (h.value_old v value hv), ?_⟩, rfl⟩
  · intro o op hop
    by_cases ho : o = ⟨d'.ops.size⟩
    · rw [ho, hnew] at hop
      exact Or.inr (Option.some.inj hop ▸ hparent)
    · rw [happ.op?_ne ho] at hop
      exact h.op_new o op hop
  · intro m' body' hslot hbody' o hmem
    obtain rfl := Option.some.inj hslot
    obtain rfl : body.extend ⟨d'.ops.size⟩ operation = body' := Option.some.inj hbody'
    rcases Array.mem_push.mp hmem with hold | rfl
    · obtain ⟨op, hop, hp⟩ := h.owned m body rfl hbody o hold
      exact ⟨op, happ.op?_old hop, hp⟩
    · exact ⟨new, hnew, hparent⟩

end Takes

/-- Whatever the new module of `d₀` was in `d`, it has become a module of the same header in `d'`, and
nothing else has changed. -/
def Develops (d₀ d d' : Design) : Prop :=
  ∀ m, d₀.Takes (some m) d → ∃ m', d₀.Takes (some m') d' ∧ m'.header = m.header

instance (d₀ : Design) : IsPreorder Design d₀.Develops where
  refl _ m h := ⟨m, h, rfl⟩
  trans _ _ _ h h' m hm := by
    obtain ⟨m', hm', hs⟩ := h m hm
    obtain ⟨m'', hm'', hs'⟩ := h' m' hm'
    exact ⟨m'', hm'', hs'.trans hs⟩

end Design

/-- The header of a copy of the image under a symbol. -/
def ModuleImage.headerAs (image : ModuleImage) (symbol : String) : HwModule where
  symbol := symbol
  inputs := image.inputs
  outputs := image.outputs
  attributes := image.attributes
  kind := .generated none
  location := image.location

/-- The module that a copy of the image under a symbol begins with. -/
def ModuleImage.blankAs (image : ModuleImage) (symbol : String) : HwModule :=
  match image.contents with
  | .external parameters => { image.headerAs symbol with kind := .external parameters }
  | .body _ => image.headerAs symbol

theorem ModuleImage.blankAs_header (image : ModuleImage) (symbol : String) :
    (image.blankAs symbol).header = image.headerAs symbol := by
  unfold blankAs
  cases image.contents <;> rfl

theorem ModuleImage.blankAs_symbol (image : ModuleImage) (symbol : String) :
    (image.blankAs symbol).symbol = symbol :=
  congrArg (·.symbol) (image.blankAs_header symbol)

theorem ModuleImage.blankAs_inputs (image : ModuleImage) (symbol : String) :
    (image.blankAs symbol).inputs = image.inputs :=
  congrArg (·.inputs) (image.blankAs_header symbol)

theorem ModuleImage.blankAs_outputs (image : ModuleImage) (symbol : String) :
    (image.blankAs symbol).outputs = image.outputs :=
  congrArg (·.outputs) (image.blankAs_header symbol)

theorem ModuleImage.blankAs_body? (image : ModuleImage) (symbol : String) :
    (image.blankAs symbol).body? = none := by
  unfold blankAs
  cases image.contents <;> rfl

namespace Edit

open Step

variable {d : Design}

/-! ### New modules and bodies -/

theorem addModule_apply {m : HwModule} (hvalid : Name.isValid m.symbol = true)
    (hfresh : d.find? m.symbol = none) :
    (addModule m).apply d = (.ok d.nextModule, { d with modules := d.modules.push (some m) }) := by
  unfold addModule
  simp only [apply_bind, apply_get, if_pos hvalid, hfresh, Option.isSome_none, Bool.false_eq_true,
    if_false, apply_set, apply_pure]
  rfl

theorem addModule_cases (m : HwModule) (d : Design) :
    (∃ e, (addModule m).apply d = (.error e, d)) ∨
      Name.isValid m.symbol = true ∧ (addModule m).apply d =
        (.ok d.nextModule, { d with modules := d.modules.push (some m) }) := by
  unfold addModule
  simp only [apply_bind, apply_get]
  by_cases hv : Name.isValid m.symbol = true
  · by_cases hf : (d.find? m.symbol).isSome = true
    · exact Or.inl ⟨.moduleNameConflict m.symbol, by
        simp only [if_pos hv, if_pos hf, apply_bind, apply_throw]⟩
    · rw [Bool.not_eq_true, Option.isSome_eq_false_iff, Option.isNone_iff_eq_none] at hf
      refine Or.inr ⟨hv, ?_⟩
      have happly := addModule_apply hv hf
      unfold addModule at happly
      exact happly
  · exact Or.inl ⟨.invalidName m.symbol, by simp only [if_neg hv, apply_bind, apply_throw]⟩

theorem addModule_fresh {m : HwModule} {id : ModuleId} {d' : Design}
    (h : (addModule m).apply d = (.ok id, d')) : d.find? m.symbol = none := by
  rw [← Option.not_isSome_iff_eq_none]
  intro hfound
  unfold addModule at h
  simp only [apply_bind, apply_get] at h
  by_cases hvalid : Name.isValid m.symbol = true
  · simp only [if_pos hvalid, if_pos hfound, apply_bind, apply_throw] at h
    cases h
  · simp only [if_neg hvalid, apply_bind, apply_throw] at h
    cases h

theorem addEntryBlock_apply {id : ModuleId} {m : HwModule} (hm : d.module? id = some m)
    (hkind : m.kind = .generated none) :
    (addEntryBlock id).apply d = (.ok (d.nextValues m.inputs.length), d.beginBody id m) := by
  unfold addEntryBlock
  simp only [apply_bind, apply_query, Design.getModule_eq_ok_iff.mpr hm, hkind, newValues, apply_get, apply_set,
    apply_pure, setBody, apply_modify, List.length_map]
  rfl

/-- The body of a module that has none is begun, or nothing is changed. -/
theorem addEntryBlock_cases (id : ModuleId) (d : Design) :
    (∃ e, (addEntryBlock id).apply d = (.error e, d)) ∨
      ∃ m, d.module? id = some m ∧ m.kind = .generated none ∧
        (addEntryBlock id).apply d = (.ok (d.nextValues m.inputs.length), d.beginBody id m) := by
  cases hm : d.getModule id with
  | error e =>
      unfold addEntryBlock
      simp only [apply_bind, apply_query, hm]
      exact Or.inl ⟨e, rfl⟩
  | ok m =>
      cases hkind : m.kind with
      | external parameters =>
          unfold addEntryBlock
          simp only [apply_bind, apply_query, hm, hkind]
          exact Or.inl ⟨_, rfl⟩
      | generated body =>
          cases body with
          | some body =>
              unfold addEntryBlock
              simp only [apply_bind, apply_query, hm, hkind]
              exact Or.inl ⟨_, rfl⟩
          | none =>
              have hm' := Design.getModule_eq_ok_iff.mp hm
              exact Or.inr ⟨m, hm', hkind, addEntryBlock_apply hm' hkind⟩

/-! ### Resolving references -/

/-- The value at a position of the image. -/
def valueAt (locals : List ValueId) (position : Nat) : Except IrError ValueId :=
  match locals[position]? with
  | some value => .ok value
  | none => .error (.invalidValue ⟨position⟩)

/-- The module found by a symbol. -/
def moduleNamed (d : Design) (symbol : String) : Except IrError ModuleId :=
  match d.find? symbol with
  | some id => .ok id
  | none => .error (.unknownModule symbol)

theorem valueAt_eq_ok_iff {locals : List ValueId} {position : Nat} {v : ValueId} :
    valueAt locals position = .ok v ↔ locals[position]? = some v := by
  unfold valueAt
  cases locals[position]? <;> simp

theorem moduleNamed_eq_ok_iff {symbol : String} {id : ModuleId} :
    moduleNamed d symbol = .ok id ↔ d.find? symbol = some id := by
  unfold moduleNamed
  cases d.find? symbol <;> simp

/-- The operation is the one of the image with its references resolved in the design. -/
def Resolves (d : Design) (locals : List ValueId) (copied : Operation String Nat)
    (operation : Operation ModuleId ValueId) : Prop :=
  copied.Corresponds (fun symbol id => d.find? symbol = some id)
    (fun position v => locals[position]? = some v) operation

theorem traverse_apply (copied : Operation String Nat) (locals : List ValueId) (d : Design) :
    (copied.traverse importedCallee (importedValue locals)).apply d =
      (copied.traverse (moduleNamed d) (valueAt locals), d) := by
  refine Operation.apply_traverse (fun symbol => ?_) (fun position => ?_) copied
  · unfold importedCallee moduleNamed
    simp only [apply_bind, apply_get]
    cases d.find? symbol <;> rfl
  · unfold importedValue valueAt
    cases locals[position]? <;> rfl

theorem traverse_eq_ok_iff {copied : Operation String Nat} {locals : List ValueId}
    {operation : Operation ModuleId ValueId} :
    copied.traverse (moduleNamed d) (valueAt locals) = .ok operation ↔
      Resolves d locals copied operation := by
  simp only [Operation.traverse_eq_ok_iff, moduleNamed_eq_ok_iff, valueAt_eq_ok_iff, Resolves]

theorem traverse_leads {R : Design → Design → Prop} [IsPreorder Design R]
    (copied : Operation String Nat) (locals : List ValueId) (d : Design) :
    (copied.traverse importedCallee (importedValue locals)).Leads R
      (fun operation d' => d' = d ∧ Resolves d locals copied operation) d :=
  leads_of_apply (traverse_apply copied locals d) (refl_of R d) fun _ h =>
    ⟨rfl, traverse_eq_ok_iff.mp h⟩

/-! ### Copied bodies -/

section

variable {R : Design → Design → Prop} [IsPreorder Design R] {id : ModuleId}

/-- Copying operations leads where appending each of them leads. -/
theorem importOps_leads {ops : List ImageOp}
    (happend : ∀ op ∈ ops, ∀ d locals operation d', Resolves d locals op.operation operation →
      d.Appends id operation d' → R d d') (locals : List ValueId) (d : Design) :
    (importOps id ops locals).Leads R (fun _ _ => True) d := by
  induction ops generalizing locals d with
  | nil => exact (leads_pure _ d).forget
  | cons op ops ih =>
      unfold importOps
      refine (traverse_leads op.operation locals d).bind fun operation d₁ _ h => ?_
      obtain ⟨rfl, hoperation⟩ := h
      have hfirst : (appendOp id operation op.resultTypes op.attributes op.location).Leads R
          (fun _ _ => True) d₁ := by
        rcases appendOp_cases id operation op.resultTypes op.attributes op.location d₁ with
          ⟨e, he⟩ | ⟨d₂, happ, _, hok⟩
        · exact leads_of_refused he _
        · exact leads_of_apply hok
            (happend op List.mem_cons_self d₁ locals operation d₂ hoperation happ) fun _ _ => trivial
      refine hfirst.bind fun o d₂ _ _ => ?_
      refine Leads.bind (leads_query _ d₂) fun _ d₃ _ _ => ?_
      refine Leads.bind (leads_query _ d₃) fun inserted d₄ _ _ => ?_
      exact ih (fun op hop => happend op (List.mem_cons_of_mem _ hop)) _ d₄

/-- A copied body is complete. -/
theorem importBody_leads {ops : List ImageOp}
    (hbegin : ∀ d m, d.module? id = some m → m.kind = .generated none → R d (d.beginBody id m))
    (happend : ∀ op ∈ ops, ∀ d locals operation d', Resolves d locals op.operation operation →
      d.Appends id operation d' → R d d') (symbol : String) (d : Design) :
    (importBody id symbol ops).Leads R
      (fun _ d' => ∀ m, d'.module? id = some m → m.isComplete = true) d := by
  have hfirst : (addEntryBlock id).Leads R (fun _ _ => True) d := by
    rcases addEntryBlock_cases id d with ⟨e, he⟩ | ⟨m, hm, hkind, hok⟩
    · exact leads_of_refused he _
    · exact leads_of_apply hok (hbegin d m hm hkind) fun _ _ => trivial
  unfold importBody
  refine hfirst.bind fun arguments d₁ _ _ => ?_
  refine (importOps_leads happend arguments d₁).bind fun _ d₂ _ _ => ?_
  refine (leads_get d₂).bind fun d₃ d₄ _ h => ?_
  obtain ⟨rfl, rfl⟩ := h
  by_cases hc : (d₃.module? id).any (·.isComplete) = true
  · rw [if_pos hc]
    refine (leads_pure _ d₃).mono (fun _ h => h) fun _ d' _ h m hm => ?_
    obtain ⟨rfl, -⟩ := h
    rw [hm] at hc
    exact hc
  · rw [if_neg hc]
    exact leads_throw _ _ d₃

end

theorem importBody_develops (d₀ : Design) (symbol : String) (ops : List ImageOp) (d : Design) :
    (importBody d₀.nextModule symbol ops).Leads d₀.Develops
      (fun _ d' => ∀ m, d'.module? d₀.nextModule = some m → m.isComplete = true) d := by
  refine importBody_leads (fun d m _ _ m' hm' => ?_) (fun op _ d locals operation d' _ happ m hm => ?_)
    symbol d
  · exact ⟨_, hm'.begin rfl rfl rfl rfl, rfl⟩
  · exact hm.append happ

/-- A body that has been copied was begun, and its operations were copied. -/
theorem importOps_of_importBody {id : ModuleId} {symbol : String} {ops : List ImageOp} {d d' : Design}
    (h : (importBody id symbol ops).apply d = (.ok ⟨⟩, d')) :
    ∃ m, d.module? id = some m ∧
      (importOps id ops (d.nextValues m.inputs.length)).apply (d.beginBody id m) = (.ok ⟨⟩, d') := by
  unfold importBody at h
  simp only [apply_bind_eq_ok_iff] at h
  obtain ⟨arguments, d₁, hbegin, _, d₂, hops, _, _, hget, hdone⟩ := h
  obtain rfl : d₂ = d' := by
    cases hget
    split at hdone
    · exact (Prod.mk.inj hdone).2
    · cases hdone
  rcases addEntryBlock_cases id d with ⟨e, he⟩ | ⟨m, hm, _, hok⟩
  · rw [he] at hbegin
    cases hbegin
  rw [hok] at hbegin
  cases hbegin
  exact ⟨m, hm, hops⟩

/-! ### Copies of images -/

/-- A copy of an image is refused, or the module that it begins with is added and the body copied into it; a copy
whose body fails is removed again. -/
theorem importImage_apply (image : ModuleImage) (symbol : String) (d : Design) :
    (∃ e, (importImage image symbol).apply d = (.error e, d)) ∨
      (importImage image symbol).apply d =
        let blank : Design := { d with modules := d.modules.push (some (image.blankAs symbol)) }
        match image.contents with
        | .external _ => (.ok d.nextModule, blank)
        | .body ops =>
          match (importBody d.nextModule symbol ops).apply blank with
          | (.ok ⟨⟩, d') => (.ok d.nextModule, d')
          | (.error e, d') =>
            (.error e, { d' with modules := d'.modules.setIfInBounds d.nextModule.index none }) := by
  have hadd := addModule_cases (image.blankAs symbol) d
  unfold importImage
  unfold ModuleImage.blankAs at hadd ⊢
  cases hcontents : image.contents with
  | external parameters =>
      rw [hcontents] at hadd
      exact hadd.imp_right And.right
  | body ops =>
      rw [hcontents] at hadd
      simp only [apply_bind]
      rcases hadd with ⟨e, he⟩ | ⟨_, hok⟩
      · have hnew : (newModule symbol image.inputs image.outputs image.attributes image.location).apply d =
            (.error e, d) := he
        exact Or.inl ⟨e, by rw [hnew]⟩
      · have hnew : (newModule symbol image.inputs image.outputs image.attributes image.location).apply d =
            (.ok d.nextModule, { d with modules := d.modules.push (some (image.headerAs symbol)) }) := hok
        refine Or.inr ?_
        simp only [hnew, apply_tryCatch]
        rcases (importBody d.nextModule symbol ops).apply _ with ⟨e | ⟨⟩, d'⟩ <;> rfl

theorem importImage_fresh {image : ModuleImage} {symbol : String} {id : ModuleId} {d d' : Design}
    (h : (importImage image symbol).apply d = (.ok id, d')) : d.find? symbol = none := by
  unfold importImage at h
  cases hcontents : image.contents with
  | external parameters =>
      rw [hcontents] at h
      exact addModule_fresh (m := { image.headerAs symbol with kind := .external parameters }) h
  | body ops =>
      rw [hcontents] at h
      obtain ⟨_, _, hnew, -⟩ := apply_bind_eq_ok_iff.mp h
      exact addModule_fresh (m := image.headerAs symbol) hnew

/-- A copy of an image that has been made is an external module, or its body has been copied. -/
theorem importBody_of_importImage {image : ModuleImage} {symbol : String} {id : ModuleId} {d d' : Design}
    (h : (importImage image symbol).apply d = (.ok id, d')) :
    let blank : Design := { d with modules := d.modules.push (some (image.blankAs symbol)) }
    id = d.nextModule ∧ ((∃ parameters, image.contents = .external parameters ∧ d' = blank) ∨
      ∃ ops, image.contents = .body ops ∧ (importBody d.nextModule symbol ops).apply blank = (.ok ⟨⟩, d')) := by
  intro blank
  rcases importImage_apply image symbol d with ⟨e, he⟩ | happly
  · cases he.symm.trans h
  rw [happly] at h
  cases hcontents : image.contents with
  | external parameters =>
      simp only [hcontents, Prod.mk.injEq, Except.ok.injEq] at h
      exact ⟨h.1.symm, Or.inl ⟨parameters, rfl, h.2.symm⟩⟩
  | body ops =>
      simp only [hcontents] at h
      rcases himport : (importBody d.nextModule symbol ops).apply blank with ⟨e | ⟨⟩, d₁⟩
      · rw [himport] at h
        cases h
      · rw [himport] at h
        cases h
        exact ⟨rfl, Or.inr ⟨ops, rfl, himport⟩⟩

/-- A copy of an image is a settled module with the header of the image; a copy that fails leaves nothing but an
empty position. -/
theorem importImage_cases (image : ModuleImage) (symbol : String) (d : Design) :
    (∃ e d', (importImage image symbol).apply d = (.error e, d') ∧ (d' = d ∨ d.Takes none d')) ∨
      ∃ m d', (importImage image symbol).apply d = (.ok d.nextModule, d') ∧ d.Takes (some m) d' ∧
        m.header = image.headerAs symbol ∧ m.IsSettled ∧
        ∀ declared, m.kind = .external declared → image.contents = .external declared := by
  rcases importImage_apply image symbol d with ⟨e, he⟩ | happly
  · exact Or.inl ⟨e, d, he, Or.inl rfl⟩
  have htakes : d.Takes (some (image.blankAs symbol))
      { d with modules := d.modules.push (some (image.blankAs symbol)) } :=
    .push rfl rfl rfl rfl fun body hbody => by
      rw [image.blankAs_body? symbol] at hbody
      cases hbody
  rw [happly]
  cases hcontents : image.contents with
  | external parameters =>
      have hkind : (image.blankAs symbol).kind = .external parameters := by
        unfold ModuleImage.blankAs
        rw [hcontents]
      refine Or.inr ⟨image.blankAs symbol, _, rfl, htakes, image.blankAs_header symbol, Or.inl ?_, ?_⟩
      · unfold HwModule.isExternal
        rw [hkind]
      · intro declared hdeclared
        exact congrArg ImageContents.external (ModuleKind.external.inj (hkind.symm.trans hdeclared))
  | body ops =>
      have hbody := importBody_develops d symbol ops
        { d with modules := d.modules.push (some (image.blankAs symbol)) }
      obtain ⟨m', hm', hheader⟩ := hbody.state _ htakes
      have hresult := hbody.result
      rw [image.blankAs_header symbol] at hheader
      dsimp only
      rcases himport : (importBody d.nextModule symbol ops).apply
        { d with modules := d.modules.push (some (image.blankAs symbol)) } with ⟨e | _, d'⟩
      · rw [himport] at hm'
        exact Or.inl ⟨e, _, rfl, Or.inr (hm'.erase rfl rfl rfl rfl)⟩
      · rw [himport] at hm' hresult
        have hcomplete := hresult _ rfl m' hm'.module?_next
        refine Or.inr ⟨m', d', rfl, hm', hheader, Or.inr hcomplete, fun declared hdeclared => ?_⟩
        unfold HwModule.isComplete HwModule.body? at hcomplete
        rw [hdeclared] at hcomplete
        cases hcomplete

theorem importImage_takes {image : ModuleImage} {symbol : String} {id : ModuleId} {d d' : Design}
    (h : (importImage image symbol).apply d = (.ok id, d')) :
    id = d.nextModule ∧ ∃ m, d.Takes (some m) d' := by
  rcases importImage_cases image symbol d with ⟨e, _, he, _⟩ | ⟨m, _, hok, htakes, _⟩
  · cases he.symm.trans h
  · cases hok.symm.trans h
    exact ⟨rfl, m, htakes⟩

end Edit

end Wirework
