import Wirework.Proofs.Session.Coherence

/-! # Outcomes of making a module

A module that has been made is bound to a definition whose generator does not run (`Does.madeFor`).  An attempt that
has failed has given back all that it had taken (`Does.failed`), while the modules it has made on the way stay,
finished and bound to other definitions (`Does.failed_others`).

A session is suited to a catalog if every module in its table has a header that suits the definition it was made for.
Whatever a task does to other modules, it leaves the headers there were as they are, so all that counts is that new
modules suit their definitions (`Does.suited`). -/

namespace Wirework

namespace Session

variable {catalog : Catalog} {s s' : Session} {d : DefId} {name : String}

/-- The module made for a definition is at the disposal of other bodies. -/
theorem Does.madeFor {id : ModuleId} (h : Does catalog (.make d name (some id)) s s')
    (hs : s.Coherent) : s'.MadeFor d id := by
  have hs' := h.coherent hs
  have hgenerating := h.keeps.generating_eq
  constructor
  · rw [hs'.moduleOf?_eq_some_iff]
    cases h with
    | known name idle bound => exact hs.moduleOf?_eq_some_iff.mp bound
    | leaf => exact List.mem_cons_self
    | generated opens fill ends =>
        refine fill.keeps.modules_suffix.subset ?_
        rw [opens.modules_eq]
        exact List.mem_cons_self
  · rw [hgenerating]
    cases h with
    | known name idle bound => exact idle
    | leaf idle => exact idle
    | generated opens => cases opens; assumption

/-- A failed attempt to make a module leaves the definition as it was, the position of the module empty
and its symbol free. -/
theorem Does.failed (h : Does catalog (.make d name none) s s') :
    s'.moduleOf? d = s.moduleOf? d ∧ ¬ s'.design.IsLive s.design.nextModule ∧
      (s.symbols.uniquify name).1 ∉ s'.symbols.used := by
  cases h with
  | refused =>
      exact ⟨rfl, s.design.not_isLive_nextModule, s.symbols.uniquify_not_mem name⟩
  | spoilt d name takes warnings =>
      refine ⟨rfl, ?_, s.symbols.uniquify_not_mem name⟩
      rintro ⟨m, hm⟩
      rw [takes.module?_next] at hm
      cases hm
  | @discarded s s₁ s₂ d name opens fill current =>
      refine ⟨?_, ?_, ?_⟩
      · rw [opens.unbound]
        refine List.lookup_eq_none_iff.mpr fun entry hentry => ?_
        have hne := (List.mem_filter.mp hentry).2
        rw [decide_eq_true_eq] at hne
        exact bne_iff_ne.mpr hne.symm
      · rintro ⟨m, hm⟩
        rw [module?_drop, if_pos rfl] at hm
        cases hm
      · have hsymbol : s₂.design.symbolOf? s.design.nextModule =
            some (s.symbols.uniquify name).1 := by
          cases opens with
          | @intro m design entry arguments idle unbound original fits begun suits location clock =>
              have hlt : s.design.nextModule.index < design.modules.size := by
                rw [fits.takes.size_eq]
                exact Nat.lt_succ_self _
              rw [fill.keeps.symbolOf?_eq hlt, ← fits.symbol_eq]
              exact Design.symbolOf?_eq_some_iff.mpr ⟨m, fits.takes.module?_next, rfl⟩
        obtain ⟨m, hm, hm'⟩ := Design.symbolOf?_eq_some_iff.mp hsymbol
        rw [symbols_drop (s := s₂.leave d) hm, hm']
        intro hmem
        have hne := (List.mem_filter.mp hmem).2
        simp at hne

/-- What a failed attempt has added is finished and belongs to other definitions. -/
theorem Does.failed_others (h : Does catalog (.make d name none) s s') (hs : s.Coherent)
    {id : ModuleId} {m : HwModule} (hm : s'.design.module? id = some m) (hid : ¬ s.design.IsLive id) :
    m.IsSettled ∧ ∃ d', d' ≠ d ∧ s'.moduleOf? d' = some id := by
  have hs' := h.coherent hs
  constructor
  · refine hs'.stacked.settled id m hm fun hmem => hid ?_
    rw [h.keeps.points_eq] at hmem
    exact hs.isLive_of_mem_points hmem
  · obtain ⟨d', hd'⟩ := hs'.isLive_iff.mp ⟨m, hm⟩
    have hbound := hs'.moduleOf?_eq_some_iff.mpr hd'
    refine ⟨d', ?_, hbound⟩
    rintro rfl
    rw [h.failed.1] at hbound
    exact hid (hs.isLive_iff.mpr ⟨d', hs.moduleOf?_eq_some_iff.mp hbound⟩)

theorem Keeps.body_kept {own : Option ModuleId} {depth : Nat} (h : Keeps own depth s s') (hs : s.Coherent)
    {id : ModuleId} {m : HwModule} (hm : s.design.module? id = some m) (hne : some id ≠ own) :
    s'.design.module? id = some m ∧
      ∀ body, m.body? = some body → ∀ o ∈ body.ops, s'.design.op? o = s.design.op? o := by
  have hlt := Design.lt_size_of_module? hm
  refine ⟨(h.module?_eq id hlt hne).trans hm, fun body hbody o ho => ?_⟩
  obtain ⟨op, hop, rfl⟩ := hs.owned.inside id m body hm hbody o ho
  rw [hop]
  exact h.op?_eq o op hop hlt hne

end Session

/-! ## Signatures -/

namespace Session

/-- Every module has a header that suits its definition. -/
def Suited (s : Session) (catalog : Catalog) : Prop :=
  ∀ d id, (d, id) ∈ s.modules → ∃ header, s.design.header? id = some header ∧ catalog.suits d header

theorem suited_ofConfig (config : Config) (catalog : Catalog) : (ofConfig config).Suited catalog :=
  fun _ _ hmem => absurd hmem List.not_mem_nil

variable {catalog : Catalog} {s s' : Session} {d : DefId}

theorem Suited.mono {catalog' : Catalog} (h : s.Suited catalog)
    (hsuits : ∀ d header, catalog.suits d header → catalog'.suits d header) : s.Suited catalog' := by
  intro d id hmem
  obtain ⟨header, hheader, hd⟩ := h d id hmem
  exact ⟨header, hheader, hsuits d header hd⟩

theorem Suited.isLive (h : s.Suited catalog) {id : ModuleId} (hmem : (d, id) ∈ s.modules) :
    s.design.IsLive id := by
  obtain ⟨header, hheader, _⟩ := h d id hmem
  obtain ⟨m, hm, _⟩ := Design.header?_eq_some_iff.mp hheader
  exact ⟨m, hm⟩

/-- Modules that keep their headers still suit their definitions. -/
theorem Suited.keeps (h : s.Suited catalog) (hmodules : s'.modules ⊆ s.modules)
    (hheader : ∀ id, id.index < s.design.modules.size →
      s'.design.header? id = s.design.header? id) : s'.Suited catalog := by
  intro d id hmem
  obtain ⟨header, hold, hsuits⟩ := h d id (hmodules hmem)
  exact ⟨header, (hheader id (h.isLive (hmodules hmem)).lt_size).trans hold, hsuits⟩

theorem Suited.enroll (h : s.Suited catalog) {name : String} {m : HwModule} {design : Design}
    {entry : ManifestEntry} (fits : s.Fits name m design entry) (suits : catalog.suits d m.header) :
    (s.enroll d m design entry).Suited catalog := by
  intro e id hmem
  rcases List.mem_cons.mp hmem with heq | hold
  · obtain ⟨rfl, rfl⟩ := Prod.mk.inj heq
    exact ⟨m.header, Design.header?_eq_some_iff.mpr ⟨m, fits.takes.module?_next, rfl⟩, suits⟩
  · obtain ⟨header, hheader, he⟩ := h e id hold
    exact ⟨header, ((fits.keeps d).header?_eq id (h.isLive hold).lt_size).trans hheader, he⟩

theorem Suited.opens (h : s.Suited catalog) {name : String} (opens : s.Opens catalog d name s') :
    s'.Suited catalog := by
  cases opens with
  | @intro m design entry arguments idle unbound original fits begun suits location clock =>
      have henrolled := h.enroll fits suits
      exact henrolled

theorem Suited.discard (h : s.Suited catalog) (hs : s.Coherent) {id : ModuleId} (bound : (d, id) ∈ s.modules)
    (name : String) : ((s.leave d).drop d name id).Suited catalog := by
  intro e other hleft
  obtain ⟨hmem, hne⟩ : (e, other) ∈ s.modules ∧ decide (e ≠ d) = true := List.mem_filter.mp hleft
  have hother : other ≠ id := by
    rintro rfl
    rw [hs.roster.definition_inj hmem bound] at hne
    simp at hne
  obtain ⟨header, hheader, hsuits⟩ := h e other hmem
  refine ⟨header, ?_, hsuits⟩
  rw [← hheader]
  exact Design.header?_congr ((module?_drop _ d name _ other).trans (if_neg hother))

/-- Every task, however it ends, leaves the modules of a session suited to their definitions. -/
theorem Does.suited {t : Task} (h : Does catalog t s s') (hs : s.Coherent)
    (hsuited : s.Suited catalog) : s'.Suited catalog := by
  induction h with
  | refused => exact hsuited
  | spoilt d name takes warnings =>
      exact hsuited.keeps (List.Subset.refl _) (keeps_of_takes takes).header?_eq
  | known => exact hsuited
  | leaf idle unbound fits settled copied suits => exact hsuited.enroll fits suits
  | generated opens fill ends ih =>
      have hfilled := ih (hs.opens opens) (hsuited.opens opens)
      exact hfilled.keeps (List.Subset.refl _) (keeps_of_appends ends 1).header?_eq
  | @discarded s s₁ s₂ d name opens fill current ih =>
      have hs₂ := fill.coherent (hs.opens opens)
      have hfilled := ih (hs.opens opens) (hsuited.opens opens)
      have hnew : (d, s.design.nextModule) ∈ s₂.modules := by
        refine fill.keeps.modules_suffix.subset ?_
        rw [opens.modules_eq]
        exact List.mem_cons_self
      exact hfilled.discard hs₂ hnew current
  | rest s => exact hsuited
  | edit fill edits ih =>
      exact (ih hs hsuited).keeps (edits.modules_eq ▸ List.Subset.refl _) edits.keeps.header?_eq
  | nested fill make ihfill ihmake => exact ihmake (fill.coherent hs) (ihfill hs hsuited)

end Session

end Wirework
