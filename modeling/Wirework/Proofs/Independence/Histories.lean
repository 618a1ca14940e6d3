import Wirework.Proofs.Independence.Steadiness

/-! # Bodies do not depend on the history of a session

Two sessions that have been used in any way to make planned definitions go on to make the same modules
(`bodies_history_independent`).

* **The standard.**  What a fresh session makes of a planned definition is the standard (`Library.Canonical`).  All
  fresh sessions agree on it, since two of them run abreast (`canonical_unique`).
* **Used sessions.**  By induction on the position of the definition in its library, materializing keeps every session
  to this standard (`Build.materializeWithin_steady`): a definition instantiates definitions that were made before it
  only, so whatever of them a session has already made is as if it were made now.  A session that has only been used
  to make planned definitions is therefore kept to the standard, however its attempts have ended
  (`Library.Idle.ready`).
* **Images.**  Modules that hold the same have images that differ in symbols only (`Shows.images_agree`), and the
  symbols of callees are those of modules of one definition. -/

namespace Wirework

open Step

variable {σ : Type}

/-! ### The standard -/

/-- The planned definitions are in the library, and each of them follows a plan. -/
def Library.Plans (l : Library σ) (planned : DefId → Prop) : Prop :=
  ∀ d, planned d → ∃ definition, l.getDefinition d = .ok definition ∧ definition.Follows d planned

/-- The workspace has the planned definitions of the library. -/
def Workspace.Knows (workspace : Workspace σ) (l : Library σ) (planned : DefId → Prop) : Prop :=
  ∀ d, planned d → workspace.library.getDefinition d = l.getDefinition d

/-- The definition has modules with these contents in a fresh session. -/
def Library.Canonical (l : Library σ) (config : Config) (planned : DefId → Prop) (d : DefId)
    (contents : SketchContents) : Prop :=
  ∃ (workspace : Workspace σ) (definition : Definition (Routine σ Unit)) (id : ModuleId) (w : World σ),
    workspace.Knows l planned ∧ l.getDefinition d = .ok definition ∧
      (Build.materializeWithin (d.index + 1) d).apply ⟨workspace, .ofConfig config⟩ = (.ok id, w) ∧
      w.session.Shows definition id contents

/-- The setting in which modules hold what they hold in fresh sessions. -/
def Library.setting (l : Library σ) (config : Config) (planned : DefId → Prop) : Setting σ where
  library := l
  config
  planned
  standard := l.Canonical config planned

theorem Setting.Settles.isOk_iff {g : Setting σ} {bound : Nat} {d : DefId}
    {definition : Definition (Routine σ Unit)} {contents? : Option SketchContents}
    {result : Except BuildError ModuleId × World σ} (h : g.Settles bound d definition contents? result) :
    result.1.isOk = true ↔ contents?.isSome = true := by
  obtain ⟨outcome, w⟩ := result
  have hshows := h.shows
  cases outcome with
  | ok id => cases hshows with | some _ => exact iff_of_true rfl rfl
  | error e => cases hshows with | none => exact iff_of_false (by simp [Except.isOk, Except.toBool]) (by simp)

namespace Build

section steady

variable {l : Library σ} {config : Config} {planned : DefId → Prop} {d : DefId} {bound : Nat}
  {definition : Definition (Routine σ Unit)}

theorem moduleOf?_fresh (config : Config) (d : DefId) : (Session.ofConfig config).moduleOf? d = none := rfl

theorem canonical_of_settles {workspace : Workspace σ} (hknows : workspace.Knows l planned)
    (hdefinition : l.getDefinition d = .ok definition) {contents? : Option SketchContents}
    (h : (l.setting config planned).Settles bound d definition contents?
      ((materializeWithin (d.index + 1) d).apply ⟨workspace, .ofConfig config⟩)) :
    ∀ contents ∈ contents?, l.Canonical config planned d contents := by
  rintro contents rfl
  have hshows := h.shows
  rcases hresult : (materializeWithin (d.index + 1) d).apply ⟨workspace, .ofConfig config⟩ with ⟨e | id, w⟩
  · rw [hresult] at hshows
    cases hshows
  · rw [hresult] at hshows
    cases hshows with | some hshows => exact ⟨workspace, definition, id, w, hknows, hdefinition, hresult, hshows⟩

theorem materializeWithin_abreast {g : Setting σ} (hplans : g.library.Plans g.planned) (hd : g.planned d)
    (hdefinition : g.library.getDefinition d = .ok definition)
    (hsteady : ∀ depth, d.index ≤ depth → Materializer.Steady g d.index (materializeWithin depth))
    (hlt : d.index < bound) {w₁ w₂ : World σ} (h₁ : w₁.Ready g bound) (h₂ : w₂.Ready g bound)
    (unbound₁ : w₁.session.moduleOf? d = none) (unbound₂ : w₂.session.moduleOf? d = none) {depth₁ depth₂ : Nat}
    (hle₁ : d.index ≤ depth₁) (hle₂ : d.index ≤ depth₂) :
    ∃ contents?, g.Settles bound d definition contents? ((materializeWithin (depth₁ + 1) d).apply w₁) ∧
      g.Settles bound d definition contents? ((materializeWithin (depth₂ + 1) d).apply w₂) := by
  obtain ⟨found, hfound, hfollows⟩ := hplans d hd
  obtain rfl := Except.ok.inj (hdefinition.symm.trans hfound)
  exact materializeWith_abreast (materializeWithin_sound depth₁) (materializeWithin_sound depth₂) (call_sound depth₁)
    (call_sound depth₂) (hsteady depth₁ hle₁) (hsteady depth₂ hle₂) hd hlt hdefinition hfollows h₁ h₂ unbound₁ unbound₂

/-- Materializing planned definitions keeps sessions to the standard, if generations may nest deep enough. -/
theorem materializeWithin_steady (hplans : l.Plans planned) (config : Config) (bound depth : Nat)
    (hle : bound ≤ depth) : Materializer.Steady (l.setting config planned) bound (materializeWithin depth) := by
  induction bound using Nat.strongRecOn generalizing depth with
  | ind bound ih =>
    intro d w hd hlt hready
    obtain ⟨depth, rfl⟩ : ∃ n, depth = n + 1 := ⟨depth - 1, by omega⟩
    obtain ⟨definition, hdefinition, _⟩ := hplans d hd
    cases hmodule : w.session.moduleOf? d with
    | some id =>
        have made : w.session.MadeFor d id := ⟨hmodule, hready.idle hlt⟩
        have happly := materializeWithin_of_made made ((hready.knows d hd).trans hdefinition) depth
        obtain ⟨contents, hcontents, _⟩ := hready.standard d definition id hd hdefinition made
        rw [happly]
        exact ⟨hready, iff_of_true rfl ⟨contents, hcontents⟩⟩
    | none =>
        have hfresh : ∀ {workspace : Workspace σ}, workspace.Knows l planned → ∃ contents?,
            (l.setting config planned).Settles bound d definition contents?
                ((materializeWithin (depth + 1) d).apply w) ∧
              (l.setting config planned).Settles bound d definition contents?
                ((materializeWithin (d.index + 1) d).apply ⟨workspace, .ofConfig config⟩) :=
          fun hknows => materializeWithin_abreast hplans hd hdefinition (fun depth => ih d.index hlt depth) hlt hready
            (.start _ hknows) hmodule (moduleOf?_fresh config d)
            (Nat.le_of_lt_succ (Nat.lt_of_lt_of_le hlt hle)) (Nat.le_refl _)
        obtain ⟨contents?, hsettles, hsettles'⟩ := hfresh hready.knows
        have hcanonical := canonical_of_settles hready.knows hdefinition hsettles'
        refine ⟨hsettles.ready hcanonical, hsettles.isOk_iff.trans ⟨fun hsome => ?_, ?_⟩⟩
        · obtain ⟨contents, rfl⟩ := Option.isSome_iff_exists.mp hsome
          exact ⟨contents, hcanonical contents rfl⟩
        · -- Had the standard been set by another fresh session, the same would come out.
          rintro ⟨contents, workspace, _, id, _, hknows, _, hok, _⟩
          obtain ⟨contents?', hsettles₁, hsettles₂⟩ := hfresh hknows
          refine hsettles.isOk_iff.mp (hsettles₁.isOk_iff.mpr (hsettles₂.isOk_iff.mp ?_))
          rw [hok]
          rfl

theorem contents_of_shows {g : Setting σ} {contents? : Option SketchContents} {contents : SketchContents}
    {result : Except BuildError ModuleId × World σ} (h : g.Settles bound d definition contents? result) {id : ModuleId}
    {w : World σ} (hresult : result = (.ok id, w)) (hs : w.session.Coherent)
    (hshows : w.session.Shows definition id contents) : contents? = some contents := by
  subst hresult
  have hsettled := h.shows
  cases hsettled with | some hsettled => rw [hsettled.unique hshows hs]

/-- All fresh sessions agree on what modules of a planned definition hold. -/
theorem canonical_unique (hplans : l.Plans planned) (hd : planned d) {contents contents' : SketchContents}
    (h : l.Canonical config planned d contents) (h' : l.Canonical config planned d contents') :
    contents = contents' := by
  obtain ⟨workspace, definition, id, w, hknows, hdefinition, hok, hshows⟩ := h
  obtain ⟨workspace', definition', id', w', hknows', hdefinition', hok', hshows'⟩ := h'
  obtain rfl := Except.ok.inj (hdefinition.symm.trans hdefinition')
  have hcoherent : ∀ {workspace : Workspace σ} {id : ModuleId} {w : World σ},
      (materializeWithin (d.index + 1) d).apply ⟨workspace, .ofConfig config⟩ = (.ok id, w) → w.session.Coherent := by
    intro workspace id w hok
    have hmakes := materializeWithin_sound (d.index + 1) d ⟨workspace, .ofConfig config⟩
      (Session.coherent_ofConfig config)
    rw [hok] at hmakes
    exact hmakes.works.coherent (Session.coherent_ofConfig config)
  obtain ⟨contents?, hsettles, hsettles'⟩ := materializeWithin_abreast (g := l.setting config planned)
    hplans hd hdefinition (fun depth => materializeWithin_steady hplans config d.index depth)
    (Nat.lt_succ_self d.index) (.start workspace hknows) (.start workspace' hknows') (moduleOf?_fresh config d)
    (moduleOf?_fresh config d) (Nat.le_refl _) (Nat.le_refl _)
  have hcontents := contents_of_shows hsettles hok (hcoherent hok) hshows
  have hcontents' := contents_of_shows hsettles' hok' (hcoherent hok') hshows'
  exact Option.some.inj (hcontents.symm.trans hcontents')

end steady

end Build

/-! ### Used sessions -/

/-- The worlds of a session that has only been used to make modules of planned definitions: between two attempts, of
which any may have failed, while definitions may have been added to the library. -/
inductive Library.Idle (l : Library σ) (config : Config) (planned : DefId → Prop) : World σ → Prop
  | fresh {workspace : Workspace σ} (knows : workspace.Knows l planned) :
      Idle l config planned ⟨workspace, .ofConfig config⟩
  | supply {w : World σ} (h : Idle l config planned w) {workspace : Workspace σ}
      (knows : workspace.Knows l planned) : Idle l config planned { w with workspace }
  | materialize {w : World σ} (h : Idle l config planned w) {d : DefId} (hd : planned d) :
      Idle l config planned ((Build.materialize d).apply w).2
  | generate {w : World σ} (h : Idle l config planned w) {d : DefId} (hd : planned d) :
      Idle l config planned ((Build.generate d).apply w).2

section idle

variable {l : Library σ} {config : Config} {planned : DefId → Prop} {w : World σ}

theorem World.Ready.materialize (hplans : l.Plans planned) (h : ∀ bound, w.Ready (l.setting config planned) bound)
    {d : DefId} (hd : planned d) :
    (∀ bound, World.Ready (l.setting config planned) bound ((Build.materialize d).apply w).2) ∧
      (((Build.materialize d).apply w).1.isOk = true ↔ ∃ contents, l.Canonical config planned d contents) := by
  obtain ⟨definition, hdefinition, _⟩ := hplans d hd
  obtain ⟨hlt, _⟩ := Array.getElem?_eq_some_iff.mp
    (Library.getDefinition_eq_ok.mp (((h 0).knows d hd).trans hdefinition))
  have hdeep : d.index + 1 ≤ Build.nestingBound w.workspace.library := Nat.le_add_right_of_le hlt
  obtain ⟨hready, hok⟩ := Build.materializeWithin_steady hplans config _ _ hdeep d w hd (Nat.lt_succ_self _) (h _)
  obtain ⟨_, _, hdoes⟩ := (Build.materialize_sound d w (h 0).coherent).does
  rw [Build.materialize_apply] at hdoes ⊢
  refine ⟨fun bound => { hready with pending := ?_ }, hok⟩
  rw [hdoes.keeps.generating_eq]
  exact (h bound).pending

theorem World.Ready.exists_shows (hplans : l.Plans planned) (h : ∀ bound, w.Ready (l.setting config planned) bound)
    {d : DefId} (hd : planned d) {definition : Definition (Routine σ Unit)}
    (hdefinition : l.getDefinition d = .ok definition) {id : ModuleId}
    (hok : ((Build.materialize d).apply w).1 = .ok id) :
    ∃ contents, l.Canonical config planned d contents ∧
      ((Build.materialize d).apply w).2.session.Shows definition id contents := by
  obtain ⟨_, _, hdoes⟩ := (Build.materialize_sound d w (h 0).coherent).does
  rw [hok] at hdoes
  exact ((materialize hplans h hd).1 0).standard d definition id hd hdefinition (hdoes.madeFor (h 0).coherent)

theorem Library.Idle.ready (hplans : l.Plans planned) (h : l.Idle config planned w) (bound : Nat) :
    w.Ready (l.setting config planned) bound := by
  induction h generalizing bound with
  | fresh knows => exact .start _ knows
  | supply h knows ih => exact { ih bound with knows }
  | materialize h hd ih => exact (World.Ready.materialize hplans ih hd).1 bound
  | @generate w h d hd ih =>
      rcases Build.generate_cases d w with ⟨e, he⟩ | hsame
      · rw [he]
        exact ih bound
      · rw [hsame]
        exact (World.Ready.materialize hplans ih hd).1 bound

end idle

/-! ### Images -/

/-- The operations differ in the symbols of their callees only. -/
structure ImageOp.Agrees (callees : String → String → Prop) (a b : ImageOp) : Prop where
  /-- Kinds, operands, instance names and parameters are the same. -/
  operation : a.operation.Corresponds callees (· = ·) b.operation
  resultTypes : a.resultTypes = b.resultTypes
  attributes : a.attributes = b.attributes
  location : a.location = b.location

inductive ImageContents.Agrees (callees : String → String → Prop) : ImageContents → ImageContents → Prop
  | external (parameters : List ParameterDecl) : Agrees callees (.external parameters) (.external parameters)
  | body {as bs : List ImageOp} (ops : List.Forall₂ (ImageOp.Agrees callees) as bs) :
      Agrees callees (.body as) (.body bs)

/-- The images differ in symbols only: those of the modules and those of their callees. -/
structure ModuleImage.Agrees (callees : String → String → Prop) (a b : ModuleImage) : Prop where
  inputs : a.inputs = b.inputs
  outputs : a.outputs = b.outputs
  attributes : a.attributes = b.attributes
  location : a.location = b.location
  contents : a.contents.Agrees callees b.contents

namespace Session

/-- The symbol is that of the module of the definition. -/
def Names (s : Session) (d : DefId) (symbol : String) : Prop :=
  ∃ id, s.MadeFor d id ∧ s.design.symbolOf? id = some symbol

/-- The symbols are those of modules of one definition. -/
def NamesSame (s₁ s₂ : Session) (symbol₁ symbol₂ : String) : Prop :=
  ∃ d, s₁.Names d symbol₁ ∧ s₂.Names d symbol₂

variable {ρ : Type} {s s₁ s₂ : Session}

theorem Coherent.exists_symbol (hs : s.Coherent) {d : DefId} {id : ModuleId} (made : s.MadeFor d id) :
    ∃ symbol, s.design.symbolOf? id = some symbol := by
  obtain ⟨m, hm⟩ := hs.isLive_of_made made.made
  exact ⟨m.symbol, Design.symbolOf?_eq_some_iff.mpr ⟨m, hm, rfl⟩⟩

theorem agrees_of_shows {a b : ImageOp} {op : SketchOp} (ha : a.Shows s₁.Names op) (hb : b.Shows s₂.Names op) :
    a.Agrees (s₁.NamesSame s₂) b where
  operation := ha.operation.comp hb.operation.swap (fun _ c _ hx hy => ⟨c, hx, hy⟩)
    fun _ _ _ hx hy => hx.trans hy.symm
  resultTypes := ha.resultTypes.trans hb.resultTypes.symm
  attributes := ha.attributes.trans hb.attributes.symm
  location := ha.location.trans hb.location.symm

/-- Modules of one definition that hold the same have images that agree. -/
theorem Shows.images_agree {definition : Definition ρ} {contents : SketchContents} {id₁ id₂ : ModuleId}
    (hs₁ : s₁.Coherent) (hs₂ : s₂.Coherent) (h₁ : s₁.Shows definition id₁ contents)
    (h₂ : s₂.Shows definition id₂ contents) :
    ∃ image₁ image₂, s₁.design.image id₁ = .ok image₁ ∧ s₂.design.image id₂ = .ok image₂ ∧
      image₁.Agrees (s₁.NamesSame s₂) image₂ := by
  obtain ⟨m₁, hm₁, hheader₁, hholds₁⟩ := h₁
  obtain ⟨m₂, hm₂, hheader₂, hholds₂⟩ := h₂
  have hagrees : ∀ {contents₁ contents₂ : ImageContents}, contents₁.Agrees (s₁.NamesSame s₂) contents₂ →
      (m₁.imageWith contents₁).Agrees (s₁.NamesSame s₂) (m₂.imageWith contents₂) := by
    rw [Compile.plainModule_header] at hheader₁ hheader₂
    exact fun hcontents => {
      inputs := (congrArg HwModule.inputs hheader₁).trans (congrArg HwModule.inputs hheader₂).symm
      outputs := (congrArg HwModule.outputs hheader₁).trans (congrArg HwModule.outputs hheader₂).symm
      attributes := (congrArg HwModule.attributes hheader₁).trans (congrArg HwModule.attributes hheader₂).symm
      location := (congrArg HwModule.location hheader₁).trans (congrArg HwModule.location hheader₂).symm
      contents := hcontents }
  cases hholds₁ with
  | @external parameters kind₁ =>
      cases hholds₂ with
      | external kind₂ =>
          exact ⟨_, _, Design.image_external hm₁ kind₁, Design.image_external hm₂ kind₂, hagrees (.external parameters)⟩
  | body kind₁ sketched₁ nodup₁ =>
      cases hholds₂ with
      | body kind₂ sketched₂ nodup₂ =>
          obtain ⟨ops₁, hdepicts₁, hshown₁⟩ := sketched₁.exists_depicts nodup₁ fun _ _ => hs₁.exists_symbol
          obtain ⟨ops₂, hdepicts₂, hshown₂⟩ := sketched₂.exists_depicts nodup₂ fun _ _ => hs₂.exists_symbol
          refine ⟨_, _, Design.image_complete hm₁ (HwModule.body?_eq_some_iff.mpr kind₁) rfl hdepicts₁,
            Design.image_complete hm₂ (HwModule.body?_eq_some_iff.mpr kind₂) rfl hdepicts₂, hagrees (.body ?_)⟩
          have hshown₁ : List.Forall₂ (ImageOp.Shows s₁.Names) ops₁ _ := hshown₁
          have hshown₂ : List.Forall₂ (ImageOp.Shows s₂.Names) ops₂ _ := hshown₂
          refine forall₂_comp ?_ hshown₁ hshown₂.flip
          exact fun _ _ _ => agrees_of_shows

end Session

/-! ### Independence -/

/-- The definition gets a module in both worlds or in neither, and the images of the modules differ in symbols only,
where callees are modules of the same definitions. -/
def World.MakesAlike (d : DefId) (w₁ w₂ : World σ) : Prop :=
  let s₁ := ((Build.materialize d).apply w₁).2.session
  let s₂ := ((Build.materialize d).apply w₂).2.session
  Agree (fun id₁ id₂ => ∃ image₁ image₂, s₁.design.image id₁ = .ok image₁ ∧ s₂.design.image id₂ = .ok image₂ ∧
      image₁.Agrees (s₁.NamesSame s₂) image₂)
    ((Build.materialize d).apply w₁).1 ((Build.materialize d).apply w₂).1

/-- **Bodies do not depend on the history of a session.**  Two sessions with the same settings, each of them fresh or
used in any way to make planned definitions, make a planned definition alike. -/
theorem bodies_history_independent {l : Library σ} {config : Config} {planned : DefId → Prop}
    (hplans : l.Plans planned) {d : DefId} (hd : planned d) {w₁ w₂ : World σ} (h₁ : l.Idle config planned w₁)
    (h₂ : l.Idle config planned w₂) : World.MakesAlike d w₁ w₂ := by
  have hready₁ := h₁.ready hplans
  have hready₂ := h₂.ready hplans
  obtain ⟨hafter₁, hok₁⟩ := World.Ready.materialize hplans hready₁ hd
  obtain ⟨hafter₂, hok₂⟩ := World.Ready.materialize hplans hready₂ hd
  obtain ⟨definition, hdefinition, _⟩ := hplans d hd
  have hsame := hok₁.trans hok₂.symm
  unfold World.MakesAlike
  cases houtcome₁ : ((Build.materialize d).apply w₁).1 with
  | ok id₁ =>
      cases houtcome₂ : ((Build.materialize d).apply w₂).1 with
      | ok id₂ =>
          obtain ⟨contents, hcontents, hshows₁⟩ := World.Ready.exists_shows hplans hready₁ hd hdefinition houtcome₁
          obtain ⟨_, hcontents', hshows₂⟩ := World.Ready.exists_shows hplans hready₂ hd hdefinition houtcome₂
          obtain rfl := Build.canonical_unique hplans hd hcontents hcontents'
          exact .ok (hshows₁.images_agree (hafter₁ 0).coherent (hafter₂ 0).coherent hshows₂)
      | error e =>
          rw [houtcome₁, houtcome₂] at hsame
          cases hsame.mp rfl
  | error e =>
      cases houtcome₂ : ((Build.materialize d).apply w₂).1 with
      | ok id₂ =>
          rw [houtcome₁, houtcome₂] at hsame
          cases hsame.mpr rfl
      | error e' => exact .error e e'

namespace Sample

/-- A cell that is implemented elsewhere. -/
def cellSpec : DefinitionSpec (Routine Unit Unit) where
  name := "Stage"
  declarations := [("a", .plainInput (.uint 8)), ("y", .output (.uint 8))]

/-- A module with a clock whose routine follows a plan. -/
def plannedSpec (name : String) (inputs : List (String × Declaration (Routine Unit Unit))) (plan : Plan) :
    DefinitionSpec (Routine Unit Unit) where
  name
  declarations := ("clk", .clock) :: inputs ++
    [("y", .output (.uint 8)), ("build", .generator plan.routine .unknown)]

/-- A register between input and output. -/
def stagePlan : Plan :=
  .call (.input "a") <| .call (.register 0) <| .call (.set "y" (.signal 1)) .finish

/-- An instance of a stage, and an output without a value. -/
def brokenPlan (stage : DefId) : Plan :=
  .call (.clock "clk") <|
  .call (.instantiate stage [("clk", .signal 0), ("a", .literal 1)] none none .unknown) .finish

/-- The sum of the input and what it has been a step before, whether there is a broken module or not. -/
def pipelinePlan (stage broken : DefId) : Plan :=
  let rest : Plan :=
    .call (.instantiate stage [("clk", .signal 0), ("a", .signal 1)] none none .unknown) <|
    .call (.outputOf 0 "y") <| .call (.add 2 1) <| .call (.set "y" (.signal 3)) .finish
  .call (.clock "clk") <| .call (.input "a") <|
  .branch (.instantiate broken [("clk", .signal 0)] none none .unknown) rest rest

/-- A cell, a stage of the same name, a broken module with a stage, and a pipeline. -/
def shelf : Workspace Unit :=
  ((do
    discard (Supply.define cellSpec)
    let stage ← Supply.define (plannedSpec "Stage" [("a", .plainInput (.uint 8))] stagePlan)
    let broken ← Supply.define (plannedSpec "Broken" [] (brokenPlan stage))
    Supply.define (plannedSpec "Pipeline" [("a", .plainInput (.uint 8))] (pipelinePlan stage broken)) :
      Supply Unit DefId).apply ⟨{}, ()⟩).2

theorem shelf_plans : shelf.library.Plans (·.index < 4) := by
  rintro ⟨index⟩ hindex
  dsimp only at hindex
  match index, hindex with
  | 0, _ => exact ⟨_, rfl, rfl, fun generator h => by cases h⟩
  | 1, _ => exact ⟨_, rfl, rfl, fun generator h => by cases h; exact ⟨stagePlan, rfl, by decide⟩⟩
  | 2, _ => exact ⟨_, rfl, rfl, fun generator h => by cases h; exact ⟨brokenPlan ⟨1⟩, rfl, by decide⟩⟩
  | 3, _ => exact ⟨_, rfl, rfl, fun generator h => by cases h; exact ⟨pipelinePlan ⟨1⟩ ⟨2⟩, rfl, by decide⟩⟩

def freshShelf : World Unit :=
  ⟨shelf, .ofConfig {}⟩

/-- The cell has been made, and then the broken module has failed. -/
def usedShelf : World Unit :=
  ((Build.materialize ⟨2⟩).apply ((Build.materialize ⟨0⟩).apply freshShelf).2).2

end Sample

/-- A fresh session makes the stage while the pipeline is being built; the used one has made it for the broken module,
under another symbol. -/
theorem bodies_history_independent_pipeline :
    ((Build.materialize ⟨3⟩).apply Sample.freshShelf).1 = .ok ⟨0⟩ ∧
      ((Build.materialize ⟨3⟩).apply Sample.usedShelf).1 = .ok ⟨3⟩ ∧
      Sample.freshShelf.session.modules = [] ∧ Sample.usedShelf.session.modules = [(⟨1⟩, ⟨2⟩), (⟨0⟩, ⟨0⟩)] ∧
      World.MakesAlike ⟨3⟩ Sample.freshShelf Sample.usedShelf := by
  have hfresh : Sample.shelf.library.Idle {} (·.index < 4) Sample.freshShelf := .fresh fun _ _ => rfl
  have hused : Sample.shelf.library.Idle {} (·.index < 4) Sample.usedShelf :=
    .materialize (.materialize hfresh (by decide)) (by decide)
  exact ⟨by decide +kernel, by decide +kernel, by decide +kernel, by decide +kernel,
    bodies_history_independent Sample.shelf_plans (by decide) hfresh hused⟩

end Wirework
