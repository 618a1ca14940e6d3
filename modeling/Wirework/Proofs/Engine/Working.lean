import Wirework.Engine.Materialize
import Wirework.Proofs.Library.Growth
import Wirework.Proofs.Session.Outcomes

/-! # Routines at work

`w.Works w'` says that the library of `w` has been extended and that the session has gone on with the body at its
insertion point.  Given a sound way of making modules, that is all an answer to a request of a routine does, and hence
all a routine does (`Generation.run_leads`).  Most requests do less than that: they append operations, none of which
is an instance, and may add warnings (`w.Drafts w'`).

What there is to know of definitions is asked of libraries that extend the final one, since definitions may be added
while routines run: a session is told about with a catalog that knows all of them.

How modules are made is a parameter of the steps, so soundness is a property of that parameter (`Materializer.Sound`),
and so is that of calls (`Caller.Sound`); both are supplied where the recursion is tied. -/

namespace Wirework

/-! ### Works -/

namespace Library

variable {σ : Type} {l l' : Library σ} {d : DefId} {definition : Definition (Routine σ Unit)}

/-- The body of a module of the definition of the handle has the clock, given the block arguments. -/
def Clocks (l : Library σ) (d : DefId) (arguments : List ValueId) (clock : Option Clock) : Prop :=
  ∃ definition, l.getDefinition d = .ok definition ∧
    Build.implicitClock definition arguments = .ok clock

/-- An external module of the definition of the handle declares the parameters, given the values recorded with
it. -/
def Declares (l : Library σ) (d : DefId) (recorded : AttributeMap) (declared : List ParameterDecl) : Prop :=
  ∃ definition, l.getDefinition d = .ok definition ∧ definition.Declares recorded declared

/-- What a library knows of its definitions. -/
def catalog (l : Library σ) : Session.Catalog :=
  ⟨l.IsImported, l.Suits, l.Clocks, l.Declares⟩

theorem Extends.clocks (h : l.Extends l') (hd : l.getDefinition d = .ok definition)
    {arguments : List ValueId} {clock : Option Clock}
    (hclock : Build.implicitClock definition arguments = .ok clock) : l'.Clocks d arguments clock := by
  obtain ⟨definition', hd', halike⟩ := h d definition hd
  refine ⟨definition', hd', ?_⟩
  rw [halike]
  exact hclock

theorem Extends.declares (h : l.Extends l') (hd : l.getDefinition d = .ok definition)
    {recorded : AttributeMap} {declared : List ParameterDecl} (hdeclares : definition.Declares recorded declared) :
    l'.Declares d recorded declared := by
  obtain ⟨definition', hd', halike⟩ := h d definition hd
  refine ⟨definition', hd', ?_⟩
  rw [halike]
  exact hdeclares

end Library

theorem Library.Extends.catalog_suits {σ : Type} {l l' : Library σ} (h : l.Extends l') {d : DefId}
    {definition : Definition (Routine σ Unit)} (hd : l.getDefinition d = .ok definition)
    {m : HwModule} (hm : definition.Suits m) : l'.catalog.suits d m.header :=
  h.suits ⟨definition, hd, hm.inputs, hm.outputs⟩

theorem Session.Does.trans {catalog : Catalog} {s s₁ s₂ : Session}
    (h : Does catalog .fill s s₁) (h' : Does catalog .fill s₁ s₂) : Does catalog .fill s s₂ := by
  generalize ht : Task.fill = t at h'
  induction h' with
  | rest => exact h
  | edit fill edits ih => exact (ih h ht).edit edits
  | nested fill make ih _ => exact (ih h rfl).nested make
  | refused | spoilt | known | leaf | generated | discarded => cases ht

namespace World

variable {σ : Type}

/-- The library has been extended and the body at the insertion point been gone on with. -/
structure Works (w w' : World σ) : Prop where
  library : w.workspace.Extends w'.workspace
  session : ∀ l, w'.workspace.library.Extends l →
    Session.Does l.catalog .fill w.session w'.session

instance : IsPreorder (World σ) Works where
  refl w := ⟨refl_of Workspace.Extends w.workspace, fun _ _ => .rest w.session⟩
  trans _ _ _ h h' := ⟨trans_of Workspace.Extends h.library h'.library, fun l hl =>
    (h.session l (trans_of Library.Extends h'.library hl)).trans (h'.session l hl)⟩

theorem Works.coherent {w w' : World σ} (h : w.Works w') (hw : w.session.Coherent) :
    w'.session.Coherent :=
  (h.session _ (refl_of Library.Extends _)).coherent hw

theorem Works.suited {w w' : World σ} (h : w.Works w') (hw : w.session.Coherent)
    (hsuited : w.session.Suited w.workspace.library.catalog) :
    w'.session.Suited w'.workspace.library.catalog :=
  (h.session _ (refl_of Library.Extends _)).suited hw (hsuited.mono fun _ _ => h.library.suits)

/-- Operations have been appended to the body at the insertion point, none of which is an instance, and there may be
new warnings. -/
def Drafts (w w' : World σ) : Prop :=
  w'.workspace = w.workspace ∧ ∃ design warnings, w.session.design.Grows design ∧
    w'.session = { w.session with design, warnings }

instance : IsPreorder (World σ) Drafts where
  refl w := ⟨rfl, w.session.design, w.session.warnings, .refl, rfl⟩
  trans := by
    rintro w w' w'' ⟨hworkspace, design, warnings, hgrows, hsession⟩
      ⟨hworkspace', design', warnings', hgrows', hsession'⟩
    rw [hsession] at hgrows' hsession'
    exact ⟨hworkspace'.trans hworkspace, design', warnings', hgrows.trans hgrows', hsession'⟩

theorem works_of_edits {w : World σ} {s : Session} (h : w.session.Edits s) :
    w.Works { w with session := s } :=
  ⟨refl_of Workspace.Extends w.workspace, fun _ _ => (Session.Does.rest w.session).edit h⟩

end World

open Step

variable {σ α : Type}

namespace Build

theorem apply_definition (d : DefId) (w : World σ) :
    (definition d).apply w = (w.workspace.library.getDefinition d, w) := rfl

theorem definition_leads {R : World σ → World σ → Prop} [IsPreorder (World σ) R] (d : DefId) (w : World σ) :
    (definition d).Leads R (fun found w' => w' = w ∧ w.workspace.library.getDefinition d = .ok found) w :=
  ⟨refl_of R w, fun _ h => ⟨rfl, h⟩⟩

theorem nameOf_leads {R : World σ → World σ → Prop} [IsPreorder (World σ) R] (d : DefId) (w : World σ) :
    (nameOf d).Leads R (fun _ _ => True) w := by
  refine (definition_leads d w).bind fun found w' _ _ => ?_
  exact (leads_pure found.name w').forget

theorem supply_leads {step : Supply σ α} {w : World σ}
    (h : step.Leads Workspace.Extends (fun _ _ => True) w.workspace) :
    (supply step).Leads World.Works (fun _ _ => True) w :=
  h.zoom (fun _ h => ⟨h, fun _ _ => .rest w.session⟩) fun _ _ _ _ => trivial

/-! ### Computing within a body -/

/-- The session `s'` has the same modules and running generators. -/
def SameMade (s s' : Session) : Prop :=
  s'.modules = s.modules ∧ s'.generating = s.generating

theorem SameMade.madeFor {s s' : Session} (h : SameMade s s') {d : DefId} {id : ModuleId}
    (hid : s.MadeFor d id) : s'.MadeFor d id := by
  refine ⟨?_, h.2 ▸ hid.2⟩
  unfold Session.moduleOf?
  rw [h.1]
  exact hid.1

theorem does_of_grows {catalog : Session.Catalog} {s : Session} {design : Design}
    (h : s.design.Grows design) : Session.Does catalog .fill s { s with design } := by
  induction h with
  | refl => exact .rest s
  | tail _ hstep ih =>
      obtain ⟨parent, operation, here, happ, hgoes, hcallee, hclocked⟩ := hstep
      exact ih.edit (.append here happ hgoes (fun c hc => by rw [hcallee] at hc; cases hc) hclocked)

end Build

theorem World.Drafts.works {w w' : World σ} (h : w.Drafts w') : w.Works w' := by
  obtain ⟨workspace, session⟩ := w'
  obtain ⟨rfl, design, warnings, hgrows, rfl⟩ := h
  exact ⟨refl_of Workspace.Extends w.workspace, fun _ _ => (Build.does_of_grows hgrows).edit (.warn warnings)⟩

namespace Build

theorem edit_drafts {step : Edit α} {P : α → Prop} {w : World σ}
    (h : step.Leads Design.Grows (fun a _ => P a) w.session.design) :
    (edit step).Leads World.Drafts (fun a w' => SameMade w.session w'.session ∧ P a) w := by
  have hsession : (Compile.edit step).Leads
      (fun s s' => ∃ design, s.design.Grows design ∧ s' = { s with design })
      (fun a s' => SameMade w.session s' ∧ P a) w.session :=
    (h.mapError BuildError.ir).zoom (fun design h => ⟨design, h, rfl⟩) fun _ _ _ ha => ⟨⟨rfl, rfl⟩, ha⟩
  unfold edit compile
  refine hsession.zoom (fun s hs => ?_) fun _ _ _ h => h
  obtain ⟨design, hgrows, rfl⟩ := hs
  exact ⟨rfl, design, w.session.warnings, hgrows, rfl⟩

theorem edit_leads {step : Edit α} {P : α → Prop} {w : World σ}
    (h : step.Leads Design.Grows (fun a _ => P a) w.session.design) :
    (edit step).Leads World.Works (fun a w' => SameMade w.session w'.session ∧ P a) w :=
  (edit_drafts h).mono (fun _ hdrafts => hdrafts.works) fun _ _ _ h => h

theorem edit_apply_error {step : Edit α} {w : World σ} {e : IrError}
    (h : step.apply w.session.design = (.error e, w.session.design)) :
    (edit step).apply w = (.error (.ir e), w) := by
  unfold edit compile Compile.edit
  simp only [apply_zoom, apply_mapError, h, Except.mapError]

theorem edit_apply_ok {step : Edit α} {w : World σ} {a : α} {design : Design}
    (h : step.apply w.session.design = (.ok a, design)) :
    (edit step).apply w = (.ok a, { w with session := { w.session with design } }) := by
  unfold edit compile Compile.edit
  simp only [apply_zoom, apply_mapError, h, Except.mapError]

theorem leads_edit_query (read : Design → Except IrError α) (w : World σ) :
    (edit (query read)).Leads World.Works
      (fun a w' => w' = w ∧ read w.session.design = .ok a) w := by
  refine ⟨refl_of World.Works w, fun a ha => ⟨rfl, ?_⟩⟩
  change (read w.session.design).mapError BuildError.ir = .ok a at ha
  cases hread : read w.session.design with
  | error e =>
      rw [hread] at ha
      cases ha
  | ok b =>
      rw [hread] at ha
      exact congrArg Except.ok (Except.ok.inj ha)

end Build

/-! ### Making modules -/

/-- The module of a definition has been made, or the attempt been refused. -/
structure World.Makes {σ : Type} (d : DefId) (outcome : Except BuildError ModuleId)
    (w w' : World σ) : Prop where
  library : w.workspace.Extends w'.workspace
  session : ∀ l, w'.workspace.library.Extends l → ∀ name,
    (∀ found, w.workspace.library.getDefinition d = .ok found → found.name = name) →
      Session.Does l.catalog (.make d name outcome.toOption) w.session w'.session

theorem Library.exists_name {σ : Type} (l : Library σ) (d : DefId) :
    ∃ name, ∀ found, l.getDefinition d = .ok found → found.name = name := by
  cases l.getDefinition d with
  | error e => exact ⟨"", fun found h => by cases h⟩
  | ok found => exact ⟨found.name, fun found' h => congrArg _ (Except.ok.inj h).symm⟩

theorem World.Makes.does {σ : Type} {d : DefId} {outcome : Except BuildError ModuleId}
    {w w' : World σ} (h : World.Makes d outcome w w') :
    ∃ name, (∀ found, w.workspace.library.getDefinition d = .ok found → found.name = name) ∧
      Session.Does w'.workspace.library.catalog (.make d name outcome.toOption) w.session
        w'.session := by
  obtain ⟨name, hname⟩ := w.workspace.library.exists_name d
  exact ⟨name, hname, h.session _ (refl_of Library.Extends _) name hname⟩

theorem World.Makes.works {σ : Type} {d : DefId} {outcome : Except BuildError ModuleId}
    {w w' : World σ} (h : World.Makes d outcome w w') : w.Works w' := by
  obtain ⟨name, hname⟩ := w.workspace.library.exists_name d
  exact ⟨h.library, fun l hl =>
    (Session.Does.rest w.session).nested (h.session l hl name hname)⟩

/-- Modules are made in the way that `Session.Does` describes. -/
def Materializer.Sound {σ : Type} (materialize : Materializer σ) : Prop :=
  ∀ d (w : World σ), w.session.Coherent →
    w.Makes d ((materialize d).apply w).1 ((materialize d).apply w).2

/-- The functions that a caller calls extend the library. -/
def Caller.Sound {σ : Type} (caller : Caller σ) : Prop :=
  ∀ f c args w, (caller f c args).Leads Workspace.Extends (fun _ _ => True) w

namespace Build

open Step

variable {σ α : Type}

theorem materialize_leads {materialize : Materializer σ} (hm : materialize.Sound) (d : DefId)
    {w : World σ} (hw : w.session.Coherent) :
    (materialize d).Leads World.Works (fun module w' => w'.session.MadeFor d module) w := by
  have hmakes := hm d w hw
  refine ⟨hmakes.works, fun module hok => ?_⟩
  obtain ⟨name, _, hdoes⟩ := hmakes.does
  rw [hok] at hdoes
  exact hdoes.madeFor hw

end Build

end Wirework
