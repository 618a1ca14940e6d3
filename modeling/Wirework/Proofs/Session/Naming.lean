import Wirework.Proofs.Names
import Wirework.Proofs.Session.Coherence
import Wirework.Proofs.Session.Moves

/-! # Names of instances

The instances in a body have names that were taken from the scope of names which was begun with the body.  As there is
one such scope for each body under construction, the innermost for the innermost body, no name that is in use there is
given out again, and the names within a body are pairwise different (`Session.Named`).

Each change of a session preserves this but for an instance that is appended: its name must be one that the scope has
just given out and that no instance in the body has yet (`Spare`, `Named.place`).  Between the two, constants may be
appended, which have no names (`Named.grows`).  Bodies that are copied are left out: their instances have the names
that the image has for them. -/

namespace Wirework

/-- The name that an operation gives to an instance. -/
def Operation.instanceName? {μ ν : Type} : Operation μ ν → Option String
  | .instantiate _ name _ _ => some name
  | _ => none

theorem Operation.instanceName?_of_callee? {μ ν : Type} {operation : Operation μ ν}
    (h : operation.callee? = none) : operation.instanceName? = none := by
  cases operation with
  | instantiate => cases h
  | _ => rfl

namespace Design

/-! ### Names within a body -/

/-- The operations in the body of a module, in order. -/
def opsIn (d : Design) (id : ModuleId) : List OpId :=
  ((d.module? id).bind (·.body?)).elim [] (·.ops.toList)

/-- Names of the instances in the body of a module, in order. -/
def instanceNames (d : Design) (id : ModuleId) : List String :=
  (d.opsIn id).filterMap fun o => (d.op? o).bind (·.operation.instanceName?)

variable {d d' : Design} {id : ModuleId}

theorem mem_opsIn_iff {o : OpId} :
    o ∈ d.opsIn id ↔ ∃ m body, d.module? id = some m ∧ m.body? = some body ∧ o ∈ body.ops := by
  unfold opsIn
  cases hm : d.module? id with
  | none => simp
  | some m =>
      cases hbody : m.body? with
      | none => simp [hbody]
      | some body => simp [hbody]

theorem instanceNames_eq_nil (h : ∀ m, d.module? id = some m → ∀ body, m.body? = some body → body.ops = #[]) :
    d.instanceNames id = [] := by
  have hnil : d.opsIn id = [] := by
    refine List.eq_nil_iff_forall_not_mem.mpr fun o ho => ?_
    obtain ⟨m, body, hm, hbody, ho⟩ := mem_opsIn_iff.mp ho
    rw [h m hm body hbody] at ho
    exact absurd ho (Array.not_mem_empty o)
  unfold instanceNames
  rw [hnil]
  rfl

theorem instanceNames_congr (hmodule : d'.module? id = d.module? id) (hops : d'.ops = d.ops) :
    d'.instanceNames id = d.instanceNames id := by
  unfold instanceNames opsIn op?
  rw [hmodule, hops]

theorem Retains.filterMap_instanceName?_eq (h : d.Retains d') {ops : List OpId}
    (found : ∀ o ∈ ops, ∃ op, d.op? o = some op) :
    (ops.filterMap fun o => (d'.op? o).bind (·.operation.instanceName?)) =
      ops.filterMap fun o => (d.op? o).bind (·.operation.instanceName?) := by
  refine List.filterMap_congr fun o ho => ?_
  obtain ⟨op, hop⟩ := found o ho
  obtain ⟨op', hop', _, hoperation, _⟩ := h.op o op hop
  simp only [hop, hop', Option.bind_some, hoperation]

theorem Owned.exists_op_of_mem_opsIn (h : d.Owned) {o : OpId} (ho : o ∈ d.opsIn id) : ∃ op, d.op? o = some op := by
  obtain ⟨m, body, hm, hbody, ho⟩ := mem_opsIn_iff.mp ho
  obtain ⟨op, hop, _⟩ := h.inside id m body hm hbody o ho
  exact ⟨op, hop⟩

theorem Retains.instanceNames_eq (h : d.Retains d') (owned : d.Owned) (same : d'.module? id = d.module? id) :
    d'.instanceNames id = d.instanceNames id := by
  have hops : d'.opsIn id = d.opsIn id := by
    unfold opsIn
    rw [same]
  unfold instanceNames
  rw [hops]
  exact h.filterMap_instanceName?_eq fun o ho => owned.exists_op_of_mem_opsIn ho

theorem Appends.instanceNames_eq {operation : Operation ModuleId ValueId} (h : d.Appends id operation d')
    (owned : d.Owned) : d'.instanceNames id = d.instanceNames id ++ operation.instanceName?.toList := by
  obtain ⟨m, body, hm, hbody, _, hm'⟩ := h.module?_self
  obtain ⟨op, _, hop, _, hoperation, _⟩ := h.op_next
  have hops : d'.opsIn id = d.opsIn id ++ [d.nextOp] := by
    unfold opsIn
    simp only [hm, hm', hbody, Option.bind_some, Option.elim_some]
    exact Array.toList_push
  have hnew : ([d.nextOp].filterMap fun o => (d'.op? o).bind (·.operation.instanceName?)) =
      operation.instanceName?.toList := by
    simp only [List.filterMap_cons, hop, Option.bind_some, hoperation]
    cases operation.instanceName? <;> rfl
  unfold instanceNames
  rw [hops, List.filterMap_append, hnew,
    h.retains.filterMap_instanceName?_eq fun o ho => owned.exists_op_of_mem_opsIn ho]

theorem Appends.instanceNames_of_other {parent : ModuleId} {operation : Operation ModuleId ValueId}
    (h : d.Appends parent operation d') (owned : d.Owned) (other : operation.instanceName? = none) (id : ModuleId) :
    d'.instanceNames id = d.instanceNames id := by
  by_cases hid : id = parent
  · subst hid
    rw [h.instanceNames_eq owned, other]
    exact List.append_nil _
  · exact h.retains.instanceNames_eq owned (h.module?_ne hid)

end Design

namespace Session

/-! ### Named sessions -/

/-- Within each body that is not copied the names of the instances are distinct, and the names within a body under
construction are in use in its scope of names. -/
structure Named (imported : DefId → Prop) (s : Session) : Prop where
  distinct : ∀ d id, (d, id) ∈ s.modules → ¬ imported d → (s.design.instanceNames id).Nodup
  used : List.Forall₂ (fun block id => s.design.instanceNames id ⊆ block.used) s.blocks s.points

theorem named_ofConfig (config : Config) (imported : DefId → Prop) : (ofConfig config).Named imported where
  distinct _ _ hmem := absurd hmem List.not_mem_nil
  used := .nil

/-- The name has been given out in the body at the insertion point, and no instance in it has it yet. -/
def Spare (name : String) (s : Session) : Prop :=
  ∃ block outer id ids, s.blocks = block :: outer ∧ s.points = id :: ids ∧ name ∈ block.used ∧
    name ∉ s.design.instanceNames id

namespace Named

variable {imported imported' : DefId → Prop} {s s' : Session}

theorem mono (h : s.Named imported) (himported : ∀ d, imported d → imported' d) : s.Named imported' where
  distinct d id hmem horiginal := h.distinct d id hmem fun hd => horiginal (himported d hd)
  used := h.used

theorem transport (h : s.Named imported) (hblocks : s'.blocks = s.blocks) (hpoints : s'.points = s.points)
    (hmodules : ∀ d id, (d, id) ∈ s'.modules →
      (d, id) ∈ s.modules ∨ imported d ∨ s'.design.instanceNames id = [])
    (hnames : ∀ id, (∃ d, (d, id) ∈ s.modules) ∨ id ∈ s.points →
      (s'.design.instanceNames id).Sublist (s.design.instanceNames id)) : s'.Named imported where
  distinct d id hmem horiginal := by
    rcases hmodules d id hmem with hold | himported | hnil
    · exact (h.distinct d id hold horiginal).sublist (hnames id (.inl ⟨d, hold⟩))
    · exact absurd himported horiginal
    · rw [hnil]
      exact List.nodup_nil
  used := by
    rw [hblocks, hpoints]
    have hused := (List.forall₂_and_left _ _).mpr ⟨fun id hid => hnames id (.inr hid), h.used.flip⟩
    exact (hused.imp fun _ _ hid => List.Subset.trans hid.1.subset hid.2).flip

/-! ### Going on with a body -/

section body

variable {parent : ModuleId} {operation : Operation ModuleId ValueId} {design : Design}

/-- An operation that is no instance has been appended. -/
theorem append (h : s.Named imported) (hs : s.Coherent) (happ : s.design.Appends parent operation design)
    (other : operation.instanceName? = none) : Named imported { s with design } := by
  refine h.transport rfl (congrArg Scopes.insertionPoints happ.scopes_eq) (fun _ _ hmem => .inl hmem) fun id _ => ?_
  exact happ.instanceNames_of_other hs.owned other id ▸ List.Sublist.refl _

/-- An instance has been appended that has a spare name. -/
theorem place {name : String} (h : s.Named imported) (hs : s.Coherent) (here : s.here? = some parent)
    (happ : s.design.Appends parent operation design) (named : operation.instanceName? = some name)
    (spare : Spare name s) : Named imported { s with design } := by
  obtain ⟨block, outer, id, ids, hblocks, hpoints, hused, hfresh⟩ := spare
  obtain rfl : id = parent := by
    have hhead : s.points.head? = some parent := here
    rw [hpoints] at hhead
    exact Option.some.inj hhead
  have hself : design.instanceNames id = s.design.instanceNames id ++ [name] := by
    rw [happ.instanceNames_eq hs.owned, named]
    rfl
  have hother : ∀ j, j ≠ id → design.instanceNames j = s.design.instanceNames j :=
    fun j hj => happ.retains.instanceNames_eq hs.owned (happ.module?_ne hj)
  have hids : id ∉ ids := by
    have hnodup := hs.stacked.points_nodup
    rw [hpoints] at hnodup
    exact (List.nodup_cons.mp hnodup).1
  constructor
  case distinct =>
    intro d j hmem horiginal
    have hdistinct := h.distinct d j hmem horiginal
    by_cases hj : j = id
    · subst hj
      rw [hself, ← List.concat_eq_append]
      exact hdistinct.concat hfresh
    · exact hother j hj ▸ hdistinct
  case used =>
    have hall := h.used
    have hpoints' : Session.points { s with design } = id :: ids :=
      (congrArg Scopes.insertionPoints happ.scopes_eq).trans hpoints
    rw [hblocks, hpoints] at hall
    obtain ⟨hhead, htail⟩ := List.forall₂_cons.mp hall
    rw [hpoints', show Session.blocks { s with design } = block :: outer from hblocks]
    refine .cons ?_ ?_
    · rw [hself]
      exact List.append_subset.mpr ⟨hhead, List.cons_subset.mpr ⟨hused, List.nil_subset _⟩⟩
    · have hne : ∀ j ∈ ids, j ≠ id := fun j hj he => hids (he ▸ hj)
      have htail := (List.forall₂_and_left _ _).mpr ⟨hne, htail.flip⟩
      refine (htail.imp fun j block hj => ?_).flip
      change design.instanceNames j ⊆ block.used
      rw [hother j hj.1]
      exact hj.2

theorem take {block block' : NameScope} {outer : List NameScope} {requested name : String}
    (h : s.Named imported) (hblocks : s.blocks = block :: outer)
    (taken : block.uniquify requested = (name, block')) :
    Named imported { s with blocks := block' :: outer } ∧ Spare name { s with blocks := block' :: outer } := by
  obtain rfl : (block.uniquify requested).1 = name := congrArg Prod.fst taken
  obtain rfl : (block.uniquify requested).2 = block' := congrArg Prod.snd taken
  have hall := h.used
  rw [hblocks] at hall
  obtain ⟨id, ids, hhead, htail, hpoints⟩ := List.forall₂_cons_left_iff.mp hall
  constructor
  · refine ⟨h.distinct, ?_⟩
    rw [show Session.points { s with blocks := (block.uniquify requested).2 :: outer } = id :: ids from hpoints]
    exact .cons (List.Subset.trans hhead (List.subset_cons_self _ _)) htail
  · exact ⟨_, outer, id, ids, rfl, hpoints, List.mem_cons_self, fun hmem =>
      block.uniquify_not_mem requested (hhead hmem)⟩

theorem grows (h : s.Named imported) (hs : s.Coherent) (hgrows : s.design.Grows design) :
    Coherent { s with design } ∧ Named imported { s with design } ∧
      ∀ name, s.Spare name → Spare name { s with design } := by
  induction hgrows with
  | refl => exact ⟨hs, h, fun _ hspare => hspare⟩
  | @tail design design' _ hstep ih =>
      obtain ⟨parent, operation, here, happ, hgoes, hcallee, _⟩ := hstep
      obtain ⟨hs₁, h₁, hspare₁⟩ := ih
      have other := Operation.instanceName?_of_callee? hcallee
      refine ⟨hs₁.append here happ hgoes, h₁.append hs₁ happ other, fun name hspare => ?_⟩
      obtain ⟨block, outer, id, ids, hblocks, hpoints, hused, hfresh⟩ := hspare₁ name hspare
      refine ⟨block, outer, id, ids, hblocks, ?_, hused, ?_⟩
      · exact (congrArg Scopes.insertionPoints happ.scopes_eq).trans hpoints
      · exact (happ.instanceNames_of_other hs₁.owned other id).symm ▸ hfresh

end body

/-! ### New modules -/

section enroll

variable {d : DefId} {name : String} {m : HwModule} {design : Design} {entry : ManifestEntry}

theorem instanceNames_of_old (hs : s.Coherent) {m? : Option HwModule} (takes : s.design.Takes m? design)
    {id : ModuleId} (hid : (∃ d, (d, id) ∈ s.modules) ∨ id ∈ s.points) :
    design.instanceNames id = s.design.instanceNames id := by
  have hne : id ≠ s.design.nextModule := by
    rcases hid with hlisted | hbuilt
    · exact (hs.isLive_iff.mpr hlisted).ne_nextModule
    · exact (hs.isLive_of_mem_points hbuilt).ne_nextModule
  exact takes.retains.instanceNames_eq hs.owned (takes.module?_old id hne)

theorem spoil (h : s.Named imported) (hs : s.Coherent) (takes : s.design.Takes none design)
    (warnings : List Warning) : Named imported { s with design, warnings } := by
  refine h.transport rfl (congrArg Scopes.insertionPoints takes.scopes_eq) (fun _ _ hmem => .inl hmem)
    fun id hid => ?_
  exact instanceNames_of_old hs takes hid ▸ List.Sublist.refl _

theorem instanceNames_of_takes (takes : s.design.Takes (some m) design)
    (hnone : ∀ body, m.body? = some body → body.ops = #[]) : design.instanceNames s.design.nextModule = [] := by
  refine Design.instanceNames_eq_nil fun m' hm' => ?_
  obtain rfl := Option.some.inj (takes.module?_next.symm.trans hm')
  exact hnone

theorem enroll (h : s.Named imported) (hs : s.Coherent) (fits : s.Fits name m design entry)
    (harmless : imported d ∨ ∀ body, m.body? = some body → body.ops = #[]) :
    (s.enroll d m design entry).Named imported := by
  refine h.transport rfl (congrArg Scopes.insertionPoints fits.takes.scopes_eq) (fun e id hmem => ?_)
    fun id hid => ?_
  · rcases List.mem_cons.mp hmem with hnew | hold
    · obtain ⟨rfl, rfl⟩ := Prod.mk.inj hnew
      exact .inr (harmless.imp_right fun hnone => instanceNames_of_takes fits.takes hnone)
    · exact .inl hold
  · exact instanceNames_of_old hs fits.takes hid ▸ List.Sublist.refl _

theorem opens {catalog : Catalog} (h : s.Named imported) (hs : s.Coherent) (opens : s.Opens catalog d name s') :
    s'.Named imported := by
  cases opens with
  | @intro m design entry arguments idle unbound original fits begun suits location clock =>
      have hempty : ∀ body, m.body? = some body → body.ops = #[] := by
        intro body hbody
        obtain rfl := Option.some.inj (begun.symm.trans hbody)
        rfl
      have henrolled := h.enroll hs fits (d := d) (.inr hempty)
      refine ⟨henrolled.distinct, .cons ?_ henrolled.used⟩
      have hnames := instanceNames_of_takes fits.takes hempty
      exact hnames ▸ List.nil_subset _

end enroll

/-! ### Finished and discarded modules -/

theorem leave (h : s.Named imported) (d : DefId) : (s.leave d).Named imported where
  distinct := h.distinct
  used := by
    have hall := h.used
    change List.Forall₂ (fun block id => s.design.instanceNames id ⊆ block.used) s.blocks.tail s.points.tail
    generalize s.blocks = blocks, s.points = points at hall ⊢
    cases hall with
    | nil => exact .nil
    | cons hhead htail => exact htail

theorem drop (h : s.Named imported) (d : DefId) (name : String) (id : ModuleId) :
    (s.drop d name id).Named imported := by
  refine h.transport rfl rfl (fun _ _ hmem => .inl (List.mem_filter.mp hmem).1) fun j _ => ?_
  have hmodule := s.module?_drop d name id j
  by_cases hj : j = id
  · rw [if_pos hj] at hmodule
    rw [Design.instanceNames_eq_nil fun m hm => by cases hmodule.symm.trans hm]
    exact List.nil_sublist _
  · rw [if_neg hj] at hmodule
    exact (Design.instanceNames_congr hmodule rfl) ▸ List.Sublist.refl _

theorem finish (h : s.Named imported) (hs : s.Coherent) {id : ModuleId} {values : List ValueId} {design : Design}
    (ends : s.design.Appends id (.output values) design) (d : DefId) :
    (Session.leave { s with design } d).Named imported :=
  (h.append hs ends rfl).leave d

end Named

end Session

end Wirework
