import Wirework.Proofs.Design.Ownership
import Wirework.Proofs.Session.Frame
import Wirework.Proofs.Session.Roster

/-! # Coherent sessions

A session is coherent if its tables agree with its design and the running generators with its insertion points: they
correspond one to one, each of them to a module whose body is unfinished, and all other modules are settled.

Every change that a task consists of preserves this, and so does the task as a whole (`Does.coherent`).  The changes
are those of `Session.Does`: an operation is appended or annotated, a module is made and its body entered (`opens`), a
body is finished (`finish`), and a module whose body has failed is dropped (`drop`).  The last is the longest, since
each table has to forget the module, and nothing that stays may refer to it: the module is unfinished, and no recorded
instance is one of an unfinished module. -/

namespace Wirework

/-! ### Instances -/

/-- The recorded instance stands in the body of its parent. -/
structure Design.Places (d : Design) (r : InstanceRecord) : Prop where
  callee : d.IsLive r.module
  parent : ∃ m body, d.module? r.parent = some m ∧ m.body? = some body ∧ r.op ∈ body.ops
  op : ∃ op inputs parameters, d.op? r.op = some op ∧ op.parent = r.parent ∧
    op.operation = .instantiate r.module r.name inputs parameters

namespace Design

variable {d d' : Design} {r : InstanceRecord}

theorem Places.widen (h : d.Places r) (hw : d.Widens d') : d'.Places r where
  callee := hw.isLive h.callee
  parent := by
    obtain ⟨m, body, hm, hbody, hmem⟩ := h.parent
    obtain ⟨m', hm', _, hbodies⟩ := hw.modules r.parent m hm
    obtain ⟨body', hbody', hops⟩ := hbodies body hbody
    exact ⟨m', body', hm', hbody', hops r.op hmem⟩
  op := by
    obtain ⟨op, inputs, parameters, hop, hparent, hoperation⟩ := h.op
    obtain ⟨op', hop', hparent', hoperation'⟩ := hw.ops r.op op hop
    exact ⟨op', inputs, parameters, hop', hparent'.trans hparent, hoperation'.trans hoperation⟩

theorem Places.erase (h : d.Places r) {id : ModuleId}
    (hm : d'.modules = d.modules.setIfInBounds id.index none) (ho : d'.ops = d.ops)
    (hcallee : r.module ≠ id) (hparent : r.parent ≠ id) : d'.Places r where
  callee := by
    obtain ⟨m, hm₀⟩ := h.callee
    exact ⟨m, by rw [module?_erase hm, if_neg hcallee, hm₀]⟩
  parent := by
    obtain ⟨m, body, hm₀, hbody, hmem⟩ := h.parent
    exact ⟨m, body, by rw [module?_erase hm, if_neg hparent, hm₀], hbody, hmem⟩
  op := by
    obtain ⟨op, inputs, parameters, hop, hrest⟩ := h.op
    exact ⟨op, inputs, parameters, by unfold op? at hop ⊢; rw [ho, hop], hrest⟩

end Design

namespace Session

/-! ### Running generators -/

/-- The insertion points are the modules of the running generators, and just these are unfinished. -/
structure Stacked (s : Session) : Prop where
  running : List.Forall₂ (fun d id => (d, id) ∈ s.modules) s.generating s.points
  generating_nodup : s.generating.Nodup
  points_nodup : s.points.Nodup
  unfinished : ∀ id ∈ s.points, ∃ m body,
    s.design.module? id = some m ∧ m.body? = some body ∧ body.terminated = false
  settled : ∀ id m, s.design.module? id = some m → id ∉ s.points → m.IsSettled

/-- Tables, design and running generators agree. -/
structure Coherent (s : Session) : Prop where
  roster : Roster s.modules s.records s.symbols.used s.design.symbolOf?
  owned : s.design.Owned
  placed : ∀ r ∈ s.instances, s.design.Places r ∧ r.module ∉ s.points
  stacked : s.Stacked

theorem coherent_ofConfig (config : Config) : (ofConfig config).Coherent where
  roster := .congr .empty fun _ => rfl
  owned := .empty
  placed r hr := absurd hr List.not_mem_nil
  stacked := {
    running := .nil
    generating_nodup := List.nodup_nil
    points_nodup := List.nodup_nil
    unfinished := fun id hid => absurd hid List.not_mem_nil
    settled := fun id m hm => by cases hm }

variable {s s' : Session} {d : DefId} {id : ModuleId}

theorem Stacked.transport (h : s.Stacked) (hgenerating : s'.generating = s.generating)
    (hpoints : s'.points = s.points) (hmodules : s.modules ⊆ s'.modules)
    (unfinished : ∀ id ∈ s.points, ∃ m body,
      s'.design.module? id = some m ∧ m.body? = some body ∧ body.terminated = false)
    (settled : ∀ id m, s'.design.module? id = some m → id ∉ s.points → m.IsSettled) :
    s'.Stacked where
  running := by
    rw [hgenerating, hpoints]
    exact h.running.imp fun _ _ hmem => hmodules hmem
  generating_nodup := by rw [hgenerating]; exact h.generating_nodup
  points_nodup := by rw [hpoints]; exact h.points_nodup
  unfinished := by rw [hpoints]; exact unfinished
  settled := by rw [hpoints]; exact settled

namespace Coherent

theorem mem_of_here? (h : s.here? = some id) : id ∈ s.points :=
  List.mem_of_mem_head? h

theorem moduleOf?_eq_some_iff (h : s.Coherent) : s.moduleOf? d = some id ↔ (d, id) ∈ s.modules :=
  lookup_eq_some_iff_mem h.roster.definitions_nodup

theorem isLive_iff (h : s.Coherent) : s.design.IsLive id ↔ ∃ d, (d, id) ∈ s.modules := by
  have hmem := h.roster.mem_modules id
  rw [List.mem_map] at hmem
  constructor
  · rintro ⟨m, hm⟩
    obtain ⟨⟨d, _⟩, hd, rfl⟩ := hmem.mpr ⟨m.symbol, Design.symbolOf?_eq_some_iff.mpr ⟨m, hm, rfl⟩⟩
    exact ⟨d, hd⟩
  · rintro ⟨d, hd⟩
    obtain ⟨symbol, hsymbol⟩ := hmem.mp ⟨(d, id), hd, rfl⟩
    obtain ⟨m, hm, _⟩ := Design.symbolOf?_eq_some_iff.mp hsymbol
    exact ⟨m, hm⟩

theorem not_mem_points (h : s.Coherent) (hmade : s.Made id) : id ∉ s.points := by
  obtain ⟨d, hd, hidle⟩ := hmade
  intro hmem
  obtain ⟨i, hi, hget⟩ := List.mem_iff_getElem.mp hmem
  have hlength := h.stacked.running.length_eq
  have hrun := List.forall₂_iff_get.mp h.stacked.running
  have hmem' := hrun.2 i (by omega) hi
  simp only [List.get_eq_getElem, hget] at hmem'
  have heq := h.roster.definition_inj (h.moduleOf?_eq_some_iff.mp hd) hmem'
  rw [heq] at hidle
  exact hidle (List.getElem_mem _)

theorem isLive_of_made (h : s.Coherent) (hmade : s.Made id) : s.design.IsLive id := by
  obtain ⟨d, hd, _⟩ := hmade
  exact h.isLive_iff.mpr ⟨d, h.moduleOf?_eq_some_iff.mp hd⟩

/-! ### Going on with a body -/

theorem append (h : s.Coherent) {parent : ModuleId} {operation : Operation ModuleId ValueId}
    {design : Design} (here : s.here? = some parent)
    (happ : s.design.Appends parent operation design) (hgoes : operation.isTerminator = false) :
    Coherent { s with design } := by
  obtain ⟨m, body, hm, hbody, _, hm'⟩ := happ.module?_self
  have hpoints : Session.points { s with design } = s.points :=
    congrArg Scopes.insertionPoints happ.scopes_eq
  constructor
  case roster => exact h.roster.congr happ.symbolOf?_eq
  case owned => exact h.owned.appends happ
  case placed =>
    intro r hr
    rw [hpoints]
    exact ⟨(h.placed r hr).1.widen happ.widens, (h.placed r hr).2⟩
  case stacked =>
    refine h.stacked.transport rfl hpoints (List.Subset.refl _) ?unfinished ?settled
    case unfinished =>
      intro id hid
      by_cases hself : id = parent
      · exact ⟨_, _, by rw [hself]; exact hm', rfl, hgoes⟩
      · obtain ⟨m, body, hm, hrest⟩ := h.stacked.unfinished id hid
        exact ⟨m, body, (happ.module?_ne hself).trans hm, hrest⟩
    case settled =>
      intro id m hid hnot
      have hself : id ≠ parent := by
        rintro rfl
        exact hnot (mem_of_here? here)
      exact h.stacked.settled id m ((happ.module?_ne hself).symm.trans hid) hnot

theorem annotate (h : s.Coherent) {o : OpId} {op : Op} (found : s.design.op? o = some op)
    (attributes : AttributeMap) :
    Coherent { s with design := s.design.annotate o op attributes } where
  roster := h.roster
  owned := h.owned.annotate found attributes
  placed r hr :=
    ⟨(h.placed r hr).1.widen (Design.widens_annotate found attributes), (h.placed r hr).2⟩
  stacked := { h.stacked with }

theorem edits (h : s.Coherent) (he : s.Edits s') : s'.Coherent := by
  cases he with
  | append here appends goesOn callee => exact h.append here appends goesOn
  | annotate here found own attributes => exact h.annotate found attributes
  | name blocks => exact { h with stacked := { h.stacked with } }
  | warn warnings => exact { h with stacked := { h.stacked with } }
  | @register record op m body here found own instantiates parent begun inside callee =>
      refine { h with stacked := { h.stacked with }, placed := ?_ }
      intro r hr
      rcases List.mem_append.mp hr with hold | hnew
      · exact h.placed r hold
      · obtain rfl := List.mem_singleton.mp hnew
        obtain ⟨inputs, parameters, hoperation⟩ := instantiates
        exact ⟨⟨h.isLive_of_made callee, ⟨m, body, parent, begun, inside⟩,
          ⟨op, inputs, parameters, found, own, hoperation⟩⟩, h.not_mem_points callee⟩

/-! ### New modules -/

theorem isLive_of_mem_points (h : s.Coherent) (hid : id ∈ s.points) : s.design.IsLive id := by
  obtain ⟨m, _, hm, _⟩ := h.stacked.unfinished id hid
  exact ⟨m, hm⟩

theorem spoil (h : s.Coherent) {design : Design} (takes : s.design.Takes none design)
    (warnings : List Warning) : Coherent { s with design, warnings } := by
  have hpoints : Session.points { s with design, warnings } = s.points :=
    congrArg Scopes.insertionPoints takes.scopes_eq
  have hmodule : ∀ id, design.module? id = s.design.module? id := by
    intro id
    by_cases hid : id = s.design.nextModule
    · rw [hid, takes.module?_next, s.design.module?_nextModule]
    · exact takes.module?_old id hid
  constructor
  case roster => exact h.roster.congr fun id => Design.symbolOf?_congr (hmodule id)
  case owned => exact h.owned.takes takes
  case placed =>
    intro r hr
    rw [hpoints]
    exact ⟨(h.placed r hr).1.widen takes.widens, (h.placed r hr).2⟩
  case stacked =>
    refine h.stacked.transport rfl hpoints (List.Subset.refl _) ?unfinished ?settled
    case unfinished =>
      intro id hid
      change ∃ m body, design.module? id = some m ∧ _
      rw [hmodule]
      exact h.stacked.unfinished id hid
    case settled =>
      intro id m hid hnot
      exact h.stacked.settled id m ((hmodule id).symm.trans hid) hnot

section enroll

variable {name : String} {m : HwModule} {design : Design} {entry : ManifestEntry}

theorem enroll_roster (h : s.Coherent) (unbound : s.moduleOf? d = none)
    (fits : s.Fits name m design entry) :
    Roster (s.enroll d m design entry).modules (s.enroll d m design entry).records
      (s.enroll d m design entry).symbols.used design.symbolOf? := by
  have hfresh := s.symbols.uniquify_not_mem name
  rw [← fits.symbol_eq] at hfresh
  refine h.roster.add ?_ ?_ hfresh ?_ fits.entry_eq fun j => ?_
  · intro hmem
    obtain ⟨⟨_, id⟩, hentry, rfl⟩ := List.mem_map.mp hmem
    rw [h.moduleOf?_eq_some_iff.mpr hentry] at unbound
    cases unbound
  · unfold Design.symbolOf?
    rw [s.design.module?_nextModule]
    rfl
  · rw [fits.symbol_eq]
    exact s.symbols.uniquify_valid fits.valid
  · unfold Design.symbolOf?
    by_cases hj : j = s.design.nextModule
    · rw [if_pos hj, hj, fits.takes.module?_next]
      rfl
    · rw [if_neg hj, fits.takes.module?_old j hj]

theorem leaf (h : s.Coherent) (unbound : s.moduleOf? d = none) (fits : s.Fits name m design entry)
    (settled : m.IsSettled) : (s.enroll d m design entry).Coherent := by
  have hpoints : (s.enroll d m design entry).points = s.points :=
    congrArg Scopes.insertionPoints fits.takes.scopes_eq
  constructor
  case roster => exact h.enroll_roster unbound fits
  case owned => exact h.owned.takes fits.takes
  case placed =>
    intro r hr
    rw [hpoints]
    exact ⟨(h.placed r hr).1.widen fits.takes.widens, (h.placed r hr).2⟩
  case stacked =>
    refine h.stacked.transport rfl hpoints (List.subset_cons_self _ _) ?unfinished ?settled
    case unfinished =>
      intro id hid
      have hne := (h.isLive_of_mem_points hid).ne_nextModule
      obtain ⟨m, body, hm, hrest⟩ := h.stacked.unfinished id hid
      exact ⟨m, body, (fits.takes.module?_old id hne).trans hm, hrest⟩
    case settled =>
      intro id m' hid hnot
      by_cases hnext : id = s.design.nextModule
      · subst hnext
        obtain rfl := Option.some.inj (fits.takes.module?_next.symm.trans hid)
        exact settled
      · exact h.stacked.settled id m' ((fits.takes.module?_old id hnext).symm.trans hid) hnot

end enroll

theorem opens (h : s.Coherent) {catalog : Catalog} {name : String}
    (opens : s.Opens catalog d name s') : s'.Coherent := by
  have hpoints := opens.points_eq
  cases opens with
  | @intro m design entry arguments idle unbound original fits begun suits location clock =>
      have hwidens : s.design.Widens
          ((s.enroll d m design entry).enter d s.design.nextModule location clock).design := by
        have hw := fits.takes.widens
        exact ⟨hw.modules, hw.ops⟩
      have hnew : s.design.nextModule ∉ s.points :=
        fun hmem => (h.isLive_of_mem_points hmem).ne_nextModule rfl
      constructor
      case roster => exact (h.enroll_roster unbound fits).congr fun _ => rfl
      case owned => exact (h.owned.takes fits.takes).congr rfl rfl
      case placed =>
        intro r hr
        refine ⟨(h.placed r hr).1.widen hwidens, ?_⟩
        rw [hpoints]
        exact List.not_mem_cons_of_ne_of_not_mem (h.placed r hr).1.callee.ne_nextModule
          (h.placed r hr).2
      case stacked =>
        constructor
        case running =>
          rw [hpoints]
          exact .cons List.mem_cons_self
            (h.stacked.running.imp fun _ _ hmem => List.mem_cons_of_mem _ hmem)
        case generating_nodup => exact List.nodup_cons.mpr ⟨idle, h.stacked.generating_nodup⟩
        case points_nodup =>
          rw [hpoints]
          exact List.nodup_cons.mpr ⟨hnew, h.stacked.points_nodup⟩
        case unfinished =>
          intro id hid
          rw [hpoints] at hid
          rcases List.mem_cons.mp hid with rfl | hold
          · exact ⟨m, _, fits.takes.module?_next, begun, rfl⟩
          · have hne := (h.isLive_of_mem_points hold).ne_nextModule
            obtain ⟨m, body, hm, hrest⟩ := h.stacked.unfinished id hold
            exact ⟨m, body, (fits.takes.module?_old id hne).trans hm, hrest⟩
        case settled =>
          intro id m' hid hnot
          rw [hpoints] at hnot
          have hne : id ≠ s.design.nextModule := List.ne_of_not_mem_cons hnot
          exact h.stacked.settled id m' ((fits.takes.module?_old id hne).symm.trans hid)
            (List.not_mem_of_not_mem_cons hnot)

/-! ### Finished and discarded modules -/

section leave

variable {ds : List DefId} {ids : List ModuleId}

theorem outer (h : s.Coherent) (hd : s.generating = d :: ds) (hid : s.points = id :: ids) :
    (d, id) ∈ s.modules ∧ List.Forall₂ (fun d id => (d, id) ∈ s.modules) ds ids ∧
      d ∉ ds ∧ ds.Nodup ∧ id ∉ ids ∧ ids.Nodup := by
  have hrunning := h.stacked.running
  have hds := h.stacked.generating_nodup
  have hids := h.stacked.points_nodup
  rw [hd, hid] at hrunning
  rw [hd, List.nodup_cons] at hds
  rw [hid, List.nodup_cons] at hids
  obtain ⟨hmem, houter⟩ := List.forall₂_cons.mp hrunning
  exact ⟨hmem, houter, hds.1, hds.2, hids.1, hids.2⟩

theorem generating_leave (hd : s.generating = d :: ds) (hnot : d ∉ ds) :
    (s.leave d).generating = ds := by
  change s.generating.filter (· ≠ d) = ds
  rw [hd]
  exact filter_idle hnot

theorem points_leave (hid : s.points = id :: ids) : (s.leave d).points = ids := by
  change s.points.tail = ids
  rw [hid]
  rfl

/-- The body at the insertion point has been finished and left. -/
theorem finish (h : s.Coherent) (hd : s.generating = d :: ds) (hid : s.points = id :: ids)
    {values : List ValueId} {design : Design} (happ : s.design.Appends id (.output values) design) :
    (Session.leave { s with design } d).Coherent := by
  obtain ⟨hmem, houter, hnotd, hnodupd, hnotid, hnodupid⟩ := h.outer hd hid
  obtain ⟨m, body, hm, hbody, _, hm'⟩ := happ.module?_self
  have hgenerating : (Session.leave { s with design } d).generating = ds :=
    generating_leave (s := { s with design }) hd hnotd
  have hpoints : (Session.leave { s with design } d).points = ids :=
    points_leave ((congrArg Scopes.insertionPoints happ.scopes_eq).trans hid)
  constructor
  case roster => exact h.roster.congr happ.symbolOf?_eq
  case owned => exact (h.owned.appends happ).congr rfl rfl
  case placed =>
    intro r hr
    obtain ⟨hplaces, hnot⟩ := h.placed r hr
    rw [hid] at hnot
    rw [hpoints]
    exact ⟨(hplaces.widen happ.widens).widen (Design.widens_congr rfl rfl),
      List.not_mem_of_not_mem_cons hnot⟩
  case stacked =>
    constructor
    case running => rw [hgenerating, hpoints]; exact houter
    case generating_nodup => rw [hgenerating]; exact hnodupd
    case points_nodup => rw [hpoints]; exact hnodupid
    case unfinished =>
      intro j hj
      rw [hpoints] at hj
      have hne : j ≠ id := fun he => hnotid (he ▸ hj)
      obtain ⟨m, body, hm, hrest⟩ := h.stacked.unfinished j (by
        rw [hid]
        exact List.mem_cons_of_mem _ hj)
      exact ⟨m, body, (happ.module?_ne hne).trans hm, hrest⟩
    case settled =>
      intro j m' hj hnot
      rw [hpoints] at hnot
      by_cases hself : j = id
      · subst hself
        obtain rfl := Option.some.inj (hm'.symm.trans hj)
        exact Or.inr rfl
      · refine h.stacked.settled j m' ((happ.module?_ne hself).symm.trans hj) ?_
        rw [hid]
        exact List.not_mem_cons_of_ne_of_not_mem hself hnot

/-- The body at the insertion point has been left and its module removed. -/
theorem drop (h : s.Coherent) (hd : s.generating = d :: ds) (hid : s.points = id :: ids)
    (name : String) : ((s.leave d).drop d name id).Coherent := by
  obtain ⟨hmem, houter, hnotd, hnodupd, hnotid, hnodupid⟩ := h.outer hd hid
  have hpoint : id ∈ s.points := by
    rw [hid]
    exact List.mem_cons_self
  obtain ⟨m, hm⟩ := h.isLive_of_mem_points hpoint
  have hgenerating : ((s.leave d).drop d name id).generating = ds := generating_leave hd hnotd
  have hpoints : ((s.leave d).drop d name id).points = ids := points_leave (d := d) hid
  have hmodule := (s.leave d).module?_drop d name id
  constructor
  case roster =>
    have hsymbol : s.design.symbolOf? id = some m.symbol :=
      Design.symbolOf?_eq_some_iff.mpr ⟨m, hm, rfl⟩
    have hsymbols : ∀ j, ((s.leave d).drop d name id).design.symbolOf? j =
        if j = id then none else s.design.symbolOf? j := by
      intro j
      unfold Design.symbolOf?
      rw [hmodule]
      by_cases hj : j = id
      · rw [if_pos hj, if_pos hj]
        rfl
      · rw [if_neg hj, if_neg hj]
        rfl
    rw [symbols_drop (s := s.leave d) hm]
    exact h.roster.remove hmem hsymbol hsymbols
  case owned => exact h.owned.erase rfl rfl
  case placed =>
    intro r hr
    obtain ⟨hr, hparent⟩ := List.mem_filter.mp hr
    obtain ⟨hplaces, hnot⟩ := h.placed r hr
    rw [hid] at hnot
    rw [hpoints]
    exact ⟨hplaces.erase rfl rfl (List.ne_of_not_mem_cons hnot) (by simpa using hparent),
      List.not_mem_of_not_mem_cons hnot⟩
  case stacked =>
    constructor
    case running =>
      rw [hgenerating, hpoints]
      have hne : ∀ e ∈ ds, e ≠ d := fun e he heq => hnotd (heq ▸ he)
      refine ((List.forall₂_and_left ds ids).mpr ⟨hne, houter⟩).imp fun e j hej => ?_
      exact List.mem_filter.mpr ⟨hej.2, by simpa using hej.1⟩
    case generating_nodup => rw [hgenerating]; exact hnodupd
    case points_nodup => rw [hpoints]; exact hnodupid
    case unfinished =>
      intro j hj
      rw [hpoints] at hj
      have hne : j ≠ id := fun heq => hnotid (heq ▸ hj)
      rw [hmodule, if_neg hne]
      exact h.stacked.unfinished j (by rw [hid]; exact List.mem_cons_of_mem _ hj)
    case settled =>
      intro j m' hj hnot
      rw [hpoints] at hnot
      rw [hmodule] at hj
      by_cases hself : j = id
      · rw [if_pos hself] at hj
        cases hj
      · rw [if_neg hself] at hj
        refine h.stacked.settled j m' hj ?_
        rw [hid]
        exact List.not_mem_cons_of_ne_of_not_mem hself hnot

end leave

end Coherent

/-! ### Tasks -/

/-- Every task, however it ends, leaves a coherent session coherent. -/
theorem Does.coherent {catalog : Catalog} {t : Task} (h : Does catalog t s s')
    (hs : s.Coherent) : s'.Coherent := by
  induction h with
  | refused => exact hs
  | spoilt d name takes warnings => exact hs.spoil takes warnings
  | known => exact hs
  | leaf idle unbound fits settled copied suits => exact hs.leaf unbound fits settled
  | @generated s s₁ s₂ d name values design opens fill ends ih =>
      have hd := fill.keeps.generating_eq.trans opens.generating_eq
      have hid := fill.keeps.points_eq.trans opens.points_eq
      exact (ih (hs.opens opens)).finish hd hid ends
  | @discarded s s₁ s₂ d name opens fill current ih =>
      have hd := fill.keeps.generating_eq.trans opens.generating_eq
      have hid := fill.keeps.points_eq.trans opens.points_eq
      exact (ih (hs.opens opens)).drop hd hid current
  | rest s => exact hs
  | edit fill edits ih => exact (ih hs).edits edits
  | nested fill make ihfill ihmake => exact ihmake (ihfill hs)

end Session

end Wirework
