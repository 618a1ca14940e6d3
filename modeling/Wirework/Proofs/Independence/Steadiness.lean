import Wirework.Proofs.Independence.Ending
import Wirework.Proofs.Independence.Entering

/-! # Modules made abreast

The module of a planned definition is made in two worlds that are ready for a setting.  Then either both modules are
made or none, and one sketch tells what is in both of them (`Build.materializeWith_abreast`), provided that the
definitions they instantiate are made steadily.

The cases are those of making a module: its name is invalid, it has no generator, its clock has no input, or its
routine runs.  The first three depend on the definition alone (`settles_invalid`, `settles_external`,
`settles_unclocked`).  In the last the bodies are abreast when they have just been entered (`abreast_of_prepare`),
they are so when the plan has been run, and they come out alike (`settles_of_comesOut`).

In each case the world is ready for the setting again if what has come out is as the setting says (`Setting.Settles`). -/

namespace Wirework

open Step

variable {σ : Type}

/-! ### Planned definitions -/

/-- The definition copies no module, and its routine, if it has one, follows a plan that instantiates planned
definitions of smaller index only. -/
structure Definition.Follows (definition : Definition (Routine σ Unit)) (d : DefId) (planned : DefId → Prop) :
    Prop where
  original : definition.image = none
  routine : ∀ generator ∈ definition.generator?, ∃ plan : Plan, generator.routine = plan.routine ∧
    ∀ c ∈ plan.callees, planned c ∧ c.index < d.index

/-- How an attempt to make a module comes out: the module holds what is sketched, or there is none; and if modules of
the definition have to hold that, the world is ready. -/
structure Setting.Settles (g : Setting σ) (bound : Nat) (d : DefId) (definition : Definition (Routine σ Unit))
    (contents? : Option SketchContents) (result : Except BuildError ModuleId × World σ) : Prop where
  ready : (∀ contents ∈ contents?, g.standard d contents) → result.2.Ready g bound
  shows : Option.Rel (fun contents id => result.2.session.Shows definition id contents) contents?
    result.1.toOption

/-! ### Worlds that stay ready -/

namespace World.Ready

variable {g : Setting σ} {bound : Nat} {d : DefId} {w w' : World σ}

theorem idle (h : w.Ready g bound) (hlt : d.index < bound) : d ∉ w.session.generating :=
  fun hmem => absurd (h.pending d hmem) (Nat.not_le_of_lt hlt)

/-- The body of a definition below the bound is entered. -/
theorem enter (h : w.Ready g bound) (hlt : d.index < bound) {catalog : Session.Catalog} {name : String}
    (opens : w.session.Opens catalog d name w'.session) (hworkspace : w'.workspace = w.workspace) :
    w'.Ready g d.index := by
  refine h.carry ⟨fun _ _ _ => opens.persists h.coherent, opens.retains⟩ (h.coherent.opens opens) ?_
    opens.config_eq ?_ ?_
  · rw [hworkspace]
    exact h.knows
  · intro e he
    rw [opens.generating_eq] at he
    rcases List.mem_cons.mp he with rfl | he
    · exact Nat.le_refl _
    · exact Nat.le_trans (Nat.le_of_lt hlt) (h.pending e he)
  · refine fun e _ id _ _ made => Or.inl ?_
    obtain ⟨hmodule, hidle⟩ := made
    rw [opens.generating_eq, List.mem_cons, not_or] at hidle
    refine ⟨?_, hidle.2⟩
    unfold Session.moduleOf? at hmodule ⊢
    rwa [opens.modules_eq, List.lookup_cons, beq_eq_false_iff_ne.mpr hidle.1] at hmodule

/-- An attempt to make a module that makes at most modules that are as the setting says. -/
theorem make (h : w.Ready g bound) {outcome : Except BuildError ModuleId} (hmakes : w.Makes d outcome w')
    (hworkspace : w'.workspace = w.workspace)
    (hmade : ∀ e definition id, g.planned e → g.library.getDefinition e = .ok definition →
      w'.session.MadeFor e id → w.session.MadeFor e id ∨
        ∃ contents, g.standard e contents ∧ w'.session.Shows definition id contents) : w'.Ready g bound := by
  obtain ⟨_, _, hdoes⟩ := hmakes.does
  refine h.carry (hmakes.works.sustains h.coherent) (hmakes.works.coherent h.coherent) ?_ hdoes.keeps.config_eq ?_
    hmade
  · rw [hworkspace]
    exact h.knows
  · rw [hdoes.keeps.generating_eq]
    exact h.pending

/-- A body comes out. -/
theorem comeOut {frame : Frame} {definition : Definition (Routine σ Unit)} {contents? : Option SketchContents}
    {result : Except BuildError ModuleId × World σ} {bound' : Nat} (h : w.Ready g bound)
    (runs : w.session.Runs frame) (hdefinition : g.library.getDefinition frame.definition = .ok definition)
    (hresult : w.ComesOut frame definition contents? result)
    (hcontents : ∀ contents ∈ contents?, g.standard frame.definition contents)
    (hpending : ∀ e ∈ result.2.session.generating, bound' ≤ e.index) : result.2.Ready g bound' := by
  have hs := h.coherent
  have hleaves : w.Leaves frame result.2 := by
    cases hresult with
    | finished ends => exact .finished ends
    | discarded e name => exact .discarded name
  have hretains : w.session.design.Retains result.2.session.design := by
    cases hresult with
    | finished ends => exact ends.retains.congr rfl rfl
    | discarded e name => exact (refl_of Design.Retains w.session.design).congr rfl rfl
  refine h.carry ⟨fun _ _ _ => hleaves.persists hs runs, hretains⟩ (hleaves.coherent hs runs) ?_ ?_ hpending ?_
  · cases hresult <;> exact h.knows
  · cases hresult <;> rfl
  intro e found id _ hfound made
  by_cases he : e = frame.definition
  · -- The module is the one that has come out.
    subst he
    obtain rfl := Except.ok.inj (hdefinition.symm.trans hfound)
    cases hresult with
    | @finished values design contents ends holds =>
        obtain ⟨ds, ids, hds, hids⟩ := runs.exists_outer
        have hmodule := hs.moduleOf?_eq_some_iff.mpr (hs.outer hds hids).1
        obtain rfl := Option.some.inj (hmodule.symm.trans made.1)
        exact Or.inr ⟨contents, hcontents contents rfl, holds⟩
    | discarded e name =>
        have hmem := mem_of_lookup made.1
        exact absurd rfl (of_decide_eq_true (List.mem_filter.mp hmem).2)
  · refine Or.inl ?_
    cases hresult with
    | finished ends =>
        exact ⟨made.1, fun hmem => made.2 (List.mem_filter.mpr ⟨hmem, decide_eq_true he⟩)⟩
    | discarded _ name =>
        exact ⟨(lookup_filter_ne he).symm.trans made.1,
          fun hmem => made.2 (List.mem_filter.mpr ⟨hmem, decide_eq_true he⟩)⟩

end World.Ready

namespace Build

/-! ### Without a routine -/

section single

variable {g : Setting σ} {bound : Nat} {d : DefId} {w : World σ} {make : Materializer σ} {caller : Caller σ}
  {definition : Definition (Routine σ Unit)}

variable (hsound : make.Sound) (hcaller : caller.Sound) (h : w.Ready g bound) (hlt : d.index < bound)
  (hd : w.workspace.library.getDefinition d = .ok definition) (unbound : w.session.moduleOf? d = none)
include h hlt hd unbound

theorem settles_invalid (hvalid : ¬ Name.isValid definition.name = true) :
    g.Settles bound d definition none ((materializeWith make caller d).apply w) := by
  rw [materializeWith_invalid make caller hd (h.idle hlt) unbound hvalid]
  exact ⟨fun _ => h, .none⟩

variable (hplain : definition.image = none) (hvalid : Name.isValid definition.name = true)
include hsound hcaller hplain hvalid

theorem settles_external (hdefinition : g.library.getDefinition d = .ok definition)
    (hgenerator : definition.generator? = none) :
    g.Settles bound d definition (some (.external (Compile.externalParameters definition)))
      ((materializeWith make caller d).apply w) := by
  obtain ⟨m, design, entry, hm, fits, happly⟩ := materializeWith_external make caller hd (h.idle hlt) unbound
    h.coherent hplain hvalid hgenerator
  have hmakes := materializeWith_sound hsound hcaller d w h.coherent
  rw [happly] at hmakes ⊢
  have hshows : (w.session.enroll d m design entry).Shows definition w.session.design.nextModule
      (.external (Compile.externalParameters definition)) := by
    refine ⟨m, fits.takes.module?_next, ?_, .external ?_⟩
    · rw [hm, Compile.plainModule_symbol]
    · rw [hm]
      unfold Compile.plainModule
      rw [hgenerator]
  refine ⟨fun hcontents => h.make hmakes rfl fun e found id _ hfound made => ?_, .some hshows⟩
  obtain ⟨hmodule, hidle⟩ := made
  by_cases he : e = d
  · subst he
    obtain rfl := Except.ok.inj (hdefinition.symm.trans hfound)
    have hid : (w.session.enroll e m design entry).moduleOf? e = some w.session.design.nextModule :=
      List.lookup_cons_self
    obtain rfl := Option.some.inj (hid.symm.trans hmodule)
    exact Or.inr ⟨_, hcontents _ rfl, hshows⟩
  · refine Or.inl ⟨?_, hidle⟩
    unfold Session.moduleOf? at hmodule ⊢
    rwa [show (w.session.enroll d m design entry).modules = (d, w.session.design.nextModule) :: w.session.modules
      from rfl, List.lookup_cons, beq_eq_false_iff_ne.mpr he] at hmodule

theorem settles_unclocked {generator : Generator (Routine σ Unit)}
    (hgenerator : definition.generator? = some generator) (hclocked : ¬ definition.Clocked) :
    g.Settles bound d definition none ((materializeWith make caller d).apply w) := by
  obtain ⟨e, design, warnings, htakes, happly⟩ := materializeWith_unclocked make caller hd (h.idle hlt) unbound
    h.coherent hplain hvalid hgenerator hclocked
  have hmakes := materializeWith_sound hsound hcaller d w h.coherent
  rw [happly] at hmakes ⊢
  exact ⟨fun _ => h.make hmakes rfl fun e found id _ _ made => Or.inl made, .none⟩

end single

/-! ### With a routine -/

section abreast

variable {g : Setting σ} {bound : Nat} {d : DefId} {definition : Definition (Routine σ Unit)}
  {make make₁ make₂ : Materializer σ} {caller caller₁ caller₂ : Caller σ} {w w' w₁ w₂ w₁' w₂' : World σ}
  {frame f₁ f₂ : Frame} {routine : Routine σ Unit}

/-- A body that comes out after its routine has run. -/
theorem settles_of_comesOut (hsound : make.Sound) (hcaller : caller.Sound) (h : w.Ready g bound)
    (hdefinition : g.library.getDefinition d = .ok definition)
    (hprepare : (prepare d).apply w = (.ok (frame, routine), w'))
    {contents? : Option SketchContents} {r r' : Running σ} {ended : Except BuildError Unit}
    (hstart : r.world = w')
    (hrun : (Generation.run make caller frame routine).apply r = (ended, r')) (hready : r'.world.Ready g d.index)
    (hmaterialize : (materializeWith make caller d).apply w = (conclude frame r'.outputs ended).apply r'.world)
    (hout : r'.world.ComesOut frame definition contents? ((conclude frame r'.outputs ended).apply r'.world)) :
    g.Settles bound d definition contents? ((materializeWith make caller d).apply w) := by
  obtain ⟨_, hframe, hmodule, name, hopens⟩ := prepare_opens hprepare
  have hopened := hopens _ (refl_of Library.Extends _)
  have hruns := prepare_runs hprepare
  have hworks : w'.Works r'.world := by
    have hleads := Generation.run_leads hsound hcaller frame routine (r := r)
      (hstart ▸ h.coherent.opens hopened)
    rw [← hstart, show r' = ((Generation.run make caller frame routine).apply r).2 by rw [hrun]]
    exact hleads.state
  obtain ⟨_, _, hdoes⟩ := (materializeWith_sound hsound hcaller d w h.coherent).does
  constructor
  case ready =>
    intro hcontents
    have hpending : ∀ e ∈ ((materializeWith make caller d).apply w).2.session.generating, bound ≤ e.index := by
      rw [hdoes.keeps.generating_eq]
      exact h.pending
    rw [hmaterialize] at hpending ⊢
    exact hready.comeOut (Moment.runs_of_works hworks hruns) (hframe ▸ hdefinition) hout (hframe ▸ hcontents)
      hpending
  case shows =>
    rw [hmaterialize]
    generalize (conclude frame r'.outputs ended).apply r'.world = result at hout ⊢
    cases hout with
    | finished ends holds => exact .some holds
    | discarded e name => exact .none

/-- Bodies that have just been entered are abreast. -/
theorem abreast_of_prepare (h₁ : w₁.Ready g bound) (h₂ : w₂.Ready g bound) (hd : g.planned d)
    (hlt : d.index < bound) (hdefinition : g.library.getDefinition d = .ok definition)
    {generator : Generator (Routine σ Unit)}
    (hprepare₁ : (prepare d).apply w₁ = (.ok (f₁, routine), w₁'))
    (hdraft₁ : w₁'.session.Drafted definition f₁ f₁.arguments (definition.draft generator.location))
    (hprepare₂ : (prepare d).apply w₂ = (.ok (f₂, routine), w₂'))
    (hdraft₂ : w₂'.session.Drafted definition f₂ f₂.arguments (definition.draft generator.location)) :
    World.Abreast g definition f₁ f₂ (f₁.arguments.zip f₂.arguments) w₁' w₂' := by
  obtain ⟨hworkspace₁, hframe₁, _, _, hopens₁⟩ := prepare_opens hprepare₁
  obtain ⟨hworkspace₂, hframe₂, _, _, hopens₂⟩ := prepare_opens hprepare₂
  have hlength : f₁.arguments.length = f₂.arguments.length := hdraft₁.arguments.trans hdraft₂.arguments.symm
  constructor
  case planned => exact hframe₁ ▸ hd
  case same => exact hframe₂.trans hframe₁.symm
  case found => exact hframe₁ ▸ hdefinition
  case ready₁ => exact hframe₁ ▸ h₁.enter hlt (hopens₁ _ (refl_of Library.Extends _)) hworkspace₁
  case ready₂ => exact hframe₁ ▸ h₂.enter hlt (hopens₂ _ (refl_of Library.Extends _)) hworkspace₂
  case drafted =>
    refine ⟨definition.draft generator.location, ?_, ?_⟩
    · rw [List.map_fst_zip (Nat.le_of_eq hlength)]
      exact hdraft₁
    · rw [List.map_snd_zip (Nat.le_of_eq hlength.symm)]
      exact hdraft₂

/-- The module of a planned definition is made on both sides or on neither, and holds the same. -/
theorem materializeWith_abreast (hsound₁ : make₁.Sound) (hsound₂ : make₂.Sound) (hcaller₁ : caller₁.Sound)
    (hcaller₂ : caller₂.Sound) (hsteady₁ : make₁.Steady g d.index) (hsteady₂ : make₂.Steady g d.index)
    (hd : g.planned d) (hlt : d.index < bound) (hdefinition : g.library.getDefinition d = .ok definition)
    (hfollows : definition.Follows d g.planned) (h₁ : w₁.Ready g bound) (h₂ : w₂.Ready g bound)
    (unbound₁ : w₁.session.moduleOf? d = none) (unbound₂ : w₂.session.moduleOf? d = none) :
    ∃ contents?, g.Settles bound d definition contents? ((materializeWith make₁ caller₁ d).apply w₁) ∧
      g.Settles bound d definition contents? ((materializeWith make₂ caller₂ d).apply w₂) := by
  have hd₁ := (h₁.knows d hd).trans hdefinition
  have hd₂ := (h₂.knows d hd).trans hdefinition
  have hplain := hfollows.original
  by_cases hvalid : Name.isValid definition.name = true
  case neg =>
    exact ⟨none, settles_invalid h₁ hlt hd₁ unbound₁ hvalid, settles_invalid h₂ hlt hd₂ unbound₂ hvalid⟩
  cases hgenerator : definition.generator? with
  | none =>
      exact ⟨_, settles_external hsound₁ hcaller₁ h₁ hlt hd₁ unbound₁ hplain hvalid hdefinition hgenerator,
        settles_external hsound₂ hcaller₂ h₂ hlt hd₂ unbound₂ hplain hvalid hdefinition hgenerator⟩
  | some generator =>
      by_cases hclocked : definition.Clocked
      case neg =>
        exact ⟨none, settles_unclocked hsound₁ hcaller₁ h₁ hlt hd₁ unbound₁ hplain hvalid hgenerator hclocked,
          settles_unclocked hsound₂ hcaller₂ h₂ hlt hd₂ unbound₂ hplain hvalid hgenerator hclocked⟩
      obtain ⟨f₁, w₁', hprepare₁, hdraft₁⟩ :=
        prepare_apply hd₁ (h₁.idle hlt) unbound₁ h₁.coherent hplain hvalid hgenerator hclocked
      obtain ⟨f₂, w₂', hprepare₂, hdraft₂⟩ :=
        prepare_apply hd₂ (h₂.idle hlt) unbound₂ h₂.coherent hplain hvalid hgenerator hclocked
      have hworld := abreast_of_prepare h₁ h₂ hd hlt hdefinition hprepare₁ hdraft₁ hprepare₂ hdraft₂
      have hframe : f₁.definition = d := (prepare_opens hprepare₁).2.1
      obtain ⟨plan, hplan, hcallees⟩ := hfollows.routine generator hgenerator
      let outputs : List (Option Signal) := List.replicate definition.table.outputCount none
      have hstart : Running.Abreast g definition f₁ f₂ (f₁.arguments.zip f₂.arguments) ⟨w₁', outputs⟩
          ⟨w₂', outputs⟩ := by
        refine ⟨hworld, List.forall₂_same.mpr fun output houtput => ?_⟩
        rw [List.eq_of_mem_replicate houtput]
        exact .none
      have hheld : Holdings.Matches g (f₁.arguments.zip f₂.arguments) {} {} := ⟨.nil, .nil⟩
      obtain ⟨k, _, hr, hended⟩ := Generation.run_lockstep caller₁ caller₂ hsound₁ hsound₂
        (hframe ▸ hsteady₁) (hframe ▸ hsteady₂) plan (hframe ▸ hcallees) hheld hstart
      have hmaterialize₁ := materializeWith_eq_conclude make₁ caller₁ hprepare₁ hd₁
      have hmaterialize₂ := materializeWith_eq_conclude make₂ caller₂ hprepare₂ hd₂
      rw [hplan] at hmaterialize₁ hmaterialize₂ hprepare₁ hprepare₂
      obtain ⟨contents?, hout₁, hout₂⟩ := conclude_abreast hr hended
      exact ⟨contents?,
        settles_of_comesOut hsound₁ hcaller₁ h₁ hdefinition hprepare₁ (r := ⟨w₁', outputs⟩) rfl rfl
          (hframe ▸ hr.world.ready₁) hmaterialize₁ hout₁,
        settles_of_comesOut hsound₂ hcaller₂ h₂ hdefinition hprepare₂ (r := ⟨w₂', outputs⟩) rfl rfl
          (hframe ▸ hr.world.ready₂) hmaterialize₂ hout₂⟩

end abreast

end Build

end Wirework
