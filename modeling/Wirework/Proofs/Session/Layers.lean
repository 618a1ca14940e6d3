import Wirework.Proofs.Session.Coherence

/-! # Layers of modules

A session is layered if modules only instantiate finished modules, and if these can be ranked below the modules that
instantiate them.  An instance is always placed in a module that nothing instantiates yet, so the rank of that module
can be raised above that of the instantiated one (`Layered.append`).  The other changes instantiate nothing new, so
the rank stays (`Layered.shrink`).

This holds as long as no module is a copy (`Does.layered`): a copied body names the modules it instantiates by their
symbols, whatever they are.  A session that has no imported definition in the end has had none on the way, which is
why the condition is on the final session only. -/

namespace Wirework

namespace Session

/-! ### Layered sessions -/

/-- Modules instantiate finished modules of lower rank. -/
structure Layered (s : Session) : Prop where
  finished : ∀ id m, s.design.module? id = some m → ∀ c ∈ s.design.callees m,
    s.design.IsLive c ∧ c ∉ s.points
  ranked : ∃ rank : ModuleId → Nat, ∀ id m, s.design.module? id = some m →
    ∀ c ∈ s.design.callees m, rank c < rank id

theorem layered_ofConfig (config : Config) : (ofConfig config).Layered where
  finished id m hm := by cases hm
  ranked := ⟨fun _ => 0, fun id m hm => by cases hm⟩

variable {s s' : Session} {d : DefId} {id : ModuleId}

namespace Layered

theorem shrink (h : s.Layered)
    (hcallees : ∀ id m', s'.design.module? id = some m' → ∀ c ∈ s'.design.callees m',
      ∃ m, s.design.module? id = some m ∧ c ∈ s.design.callees m)
    (hlive : ∀ c, s.design.IsLive c → c ∉ s.points → s'.design.IsLive c ∧ c ∉ s'.points) :
    s'.Layered where
  finished id m' hm' c hc := by
    obtain ⟨m, hm, hc⟩ := hcallees id m' hm' c hc
    obtain ⟨hc₁, hc₂⟩ := h.finished id m hm c hc
    exact hlive c hc₁ hc₂
  ranked := by
    obtain ⟨rank, hrank⟩ := h.ranked
    refine ⟨rank, fun id m' hm' c hc => ?_⟩
    obtain ⟨m, hm, hc⟩ := hcallees id m' hm' c hc
    exact hrank id m hm c hc

/-- An operation is appended to the body at the insertion point, which no module instantiates. -/
theorem append (h : s.Layered) (hs : s.Coherent) {parent : ModuleId}
    {operation : Operation ModuleId ValueId} {design : Design} (here : s.here? = some parent)
    (happ : s.design.Appends parent operation design)
    (hcallee : ∀ c, operation.callee? = some c → s.Made c) : Layered { s with design } := by
  have hpoints : Session.points { s with design } = s.points :=
    congrArg Scopes.insertionPoints happ.scopes_eq
  have hparent : parent ∈ s.points := Coherent.mem_of_here? here
  obtain ⟨rank, hrank⟩ := h.ranked
  constructor
  case finished =>
    intro id m hm c hc
    rw [hpoints]
    rcases happ.callee hs.owned hm hc with ⟨m₀, hm₀, hc₀⟩ | ⟨_, hc⟩
    · obtain ⟨hlive, hnot⟩ := h.finished id m₀ hm₀ c hc₀
      exact ⟨happ.widens.isLive hlive, hnot⟩
    · exact ⟨happ.widens.isLive (hs.isLive_of_made (hcallee c hc)),
        hs.not_mem_points (hcallee c hc)⟩
  case ranked =>
    -- The rank of the parent is raised above those of its old callees and of the new one.
    let above := rank parent + (operation.callee?.elim 0 rank) + 1
    refine ⟨Function.update rank parent above, fun id m hm c hc => ?_⟩
    have hother : ∀ c, c ∉ s.points → Function.update rank parent above c = rank c := by
      intro c hnot
      rw [Function.update_of_ne]
      rintro rfl
      exact hnot hparent
    rcases happ.callee hs.owned hm hc with ⟨m₀, hm₀, hc₀⟩ | ⟨rfl, hc⟩
    · have hlt := hrank id m₀ hm₀ c hc₀
      rw [hother c (h.finished id m₀ hm₀ c hc₀).2]
      by_cases hid : id = parent
      · subst hid
        rw [Function.update_self]
        omega
      · rw [Function.update_of_ne hid]
        exact hlt
    · rw [hother c (hs.not_mem_points (hcallee c hc)), Function.update_self]
      have habove : above = rank id + rank c + 1 := by
        change rank id + (operation.callee?.elim 0 rank) + 1 = _
        rw [hc]
        rfl
      omega

theorem edits (h : s.Layered) (hs : s.Coherent) (he : s.Edits s') : s'.Layered := by
  cases he with
  | append here appends goesOn callee => exact h.append hs here appends callee
  | @annotate parent o op here found own attributes =>
      refine h.shrink (fun id m hm c hc => ⟨m, hm, ?_⟩) fun c hc hnot => ⟨hc, hnot⟩
      exact (Design.widens_annotate found attributes).callee hs.owned hm hc
  | name blocks => exact { h with }
  | register => exact { h with }
  | warn warnings => exact { h with }

/-- The design has taken a module that instantiates nothing, or none at all. -/
theorem takes (h : s.Layered) (hs : s.Coherent) {slot : Option HwModule} {design : Design}
    (htakes : s.design.Takes slot design) (hslot : ∀ m, slot = some m → design.callees m = [])
    (hmodules : s'.design.modules = design.modules) (hops : s'.design.ops = design.ops)
    (hpoints : ∀ c ∈ s'.points, c ∈ s.points ∨ c = s.design.nextModule) : s'.Layered := by
  have hw : design.Widens s'.design := Design.widens_congr hmodules hops
  refine h.shrink (fun id m hm c hc => ?_) fun c hc hnot => ⟨?_, fun hmem => ?_⟩
  · rw [Design.module?_congr hmodules] at hm
    have hc := hw.callee (hs.owned.takes htakes) hm hc
    by_cases hid : id = s.design.nextModule
    · rw [hid, htakes.module?_next] at hm
      rw [hslot m hm] at hc
      exact absurd hc List.not_mem_nil
    · rw [htakes.module?_old id hid] at hm
      exact ⟨m, hm, htakes.widens.callee hs.owned hm hc⟩
  · exact hw.isLive (htakes.widens.isLive hc)
  · rcases hpoints c hmem with hold | rfl
    · exact hnot hold
    · exact s.design.not_isLive_nextModule hc

theorem opens (h : s.Layered) (hs : s.Coherent) {catalog : Catalog} {name : String}
    (opens : s.Opens catalog d name s') : s'.Layered := by
  have hpoints := opens.points_eq
  cases opens with
  | @intro m design entry arguments idle unbound original fits begun suits location clock =>
      refine h.takes hs fits.takes (fun m' hm' => ?_) rfl rfl fun c hc => ?_
      · obtain rfl := Option.some.inj hm'
        refine Design.callees_of_body? (fun body hbody => ?_) design
        rw [begun] at hbody
        obtain rfl := Option.some.inj hbody
        rfl
      · rw [hpoints] at hc
        exact (List.mem_cons.mp hc).symm

theorem finish (h : s.Layered) (hs : s.Coherent) {values : List ValueId} {design : Design}
    (happ : s.design.Appends id (.output values) design) :
    (Session.leave { s with design } d).Layered := by
  have hpoints : (Session.leave { s with design } d).points = s.points.tail :=
    congrArg List.tail (congrArg Scopes.insertionPoints happ.scopes_eq)
  have hw : design.Widens (Session.leave { s with design } d).design := Design.widens_congr rfl rfl
  refine h.shrink (fun j m hm c hc => ?_) fun c hc hnot => ⟨?_, fun hmem => ?_⟩
  · rcases happ.callee hs.owned hm (hw.callee (hs.owned.appends happ) hm hc) with hold | ⟨_, hnone⟩
    · exact hold
    · cases hnone
  · exact hw.isLive (happ.widens.isLive hc)
  · rw [hpoints] at hmem
    exact hnot (List.mem_of_mem_tail hmem)

/-- The body at the insertion point has been left and its module removed. -/
theorem drop (h : s.Layered) (hid : id ∈ s.points) (name : String) :
    ((s.leave d).drop d name id).Layered := by
  have hmodule := (s.leave d).module?_drop d name id
  refine h.shrink (fun j m hm c hc => ?_) fun c hc hnot => ⟨?_, fun hmem => ?_⟩
  · rw [hmodule] at hm
    by_cases hj : j = id
    · rw [if_pos hj] at hm
      cases hm
    · rw [if_neg hj] at hm
      exact ⟨m, hm, hc⟩
  · obtain ⟨m, hm⟩ := hc
    have hne : c ≠ id := by
      rintro rfl
      exact hnot hid
    refine ⟨m, ?_⟩
    rw [hmodule, if_neg hne]
    exact hm
  · exact hnot (List.mem_of_mem_tail hmem)

end Layered

/-! ### Tasks -/

/-- No definition with a module is imported. -/
def NoneImported (imported : DefId → Prop) (s : Session) : Prop :=
  ∀ d id, (d, id) ∈ s.modules → ¬ imported d

theorem NoneImported.mono {imported : DefId → Prop} (h : s'.NoneImported imported)
    (hmodules : s.modules <:+ s'.modules) : s.NoneImported imported :=
  fun d id hmem => h d id (hmodules.subset hmem)

/-- Every task, however it ends, leaves a layered session layered, unless it copies a module. -/
theorem Does.layered {catalog : Catalog} {t : Task} (h : Does catalog t s s')
    (hs : s.Coherent) (hlayered : s.Layered) (hnone : s'.NoneImported catalog.imported) : s'.Layered := by
  induction h with
  | refused => exact hlayered
  | spoilt d name takes warnings =>
      refine hlayered.takes hs takes (fun m hm => by cases hm) rfl rfl fun c hc => Or.inl ?_
      rw [← (keeps_of_takes takes).points_eq]
      exact hc
  | known => exact hlayered
  | @leaf s d name m design entry idle unbound fits settled copied suits =>
      have hexternal := copied.resolve_left (hnone d _ List.mem_cons_self)
      refine hlayered.takes hs fits.takes (fun m' hm' => ?_) rfl rfl fun c hc => Or.inl ?_
      · obtain rfl := Option.some.inj hm'
        refine Design.callees_of_body? (fun body hbody => ?_) design
        cases hbody.symm.trans (HwModule.body?_eq_none_of_isExternal hexternal)
      · rw [← (fits.keeps d).points_eq]
        exact hc
  | @generated s s₁ s₂ d name values design opens fill ends ih =>
      have hs₁ := hs.opens opens
      exact (ih hs₁ (hlayered.opens hs opens) hnone).finish (fill.coherent hs₁) ends
  | @discarded s s₁ s₂ d name opens fill current ih =>
      have hnone₂ : s₂.NoneImported catalog.imported := by
        intro e j hmem
        by_cases he : e = d
        · cases opens
          rw [he]
          assumption
        · exact hnone e j (List.mem_filter.mpr ⟨hmem, by simpa using he⟩)
      have hpoints := fill.keeps.points_eq.trans opens.points_eq
      refine (ih (hs.opens opens) (hlayered.opens hs opens) hnone₂).drop ?_ current
      rw [hpoints]
      exact List.mem_cons_self
  | rest s => exact hlayered
  | @edit s s₁ s₂ fill edits ih =>
      have hnone₁ : s₁.NoneImported catalog.imported := hnone.mono (edits.modules_eq ▸ List.suffix_rfl)
      exact (ih hs hlayered hnone₁).edits (fill.coherent hs) edits
  | nested fill make ihfill ihmake =>
      exact ihmake (fill.coherent hs) (ihfill hs hlayered (hnone.mono make.keeps.modules_suffix)) hnone

end Session

end Wirework
