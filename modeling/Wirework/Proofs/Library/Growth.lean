import Wirework.Library
import Wirework.Proofs.Interface.Signature
import Wirework.Proofs.Steps

/-! # Libraries grow

A definition stays in its library as it was made, but for the parameters it is given by the function that returns it
(`Library.Extends`).  Every step on a library leads to such an extension, however calls of parameterization functions
nest (`Supply.call_leads`): the calls of a body are made at a smaller depth, so the proof is an induction on the depth
and, at each depth, on the body as a program.

What is known of a definition by its handle is therefore known in every later library, as far as it does not speak of
parameters: its ports, whether it is imported (`Extends.isImported_iff`), and which modules suit it
(`Extends.suits`). -/

namespace Wirework

/-- Two definitions that differ at most in their parameters. -/
def Definition.Alike {ρ : Type} (d d' : Definition ρ) : Prop :=
  d' = { d with parameters := d'.parameters }

theorem Definition.Alike.suits {ρ : Type} {d d' : Definition ρ} (h : d.Alike d') {m : HwModule}
    (hm : d.Suits m) : d'.Suits m := by
  unfold Alike at h
  rw [h]
  exact ⟨hm.inputs, hm.outputs⟩

theorem Definition.Alike.scanned {ρ : Type} {d d' : Definition ρ} (h : d.Alike d')
    (hd : d.Scanned) : d'.Scanned := by
  unfold Alike at h
  rw [h]
  exact ⟨hd.interface, hd.table⟩

theorem Definition.Alike.isImported_eq {ρ : Type} {d d' : Definition ρ} (h : d.Alike d')
    {spec : DefinitionSpec ρ} (made : ofSpec spec = .ok d) : d'.isImported = spec.image.isSome := by
  unfold Definition.isImported
  rw [h, (ofSpec_eq_ok made).2.2]

theorem Definition.Alike.exists_parameters {ρ : Type} {d d' : Definition ρ} (h : d.Alike d') :
    ∃ parameters, d' = { d with parameters } :=
  ⟨d'.parameters, h⟩

theorem Definition.Alike.trans {ρ : Type} {d d' d'' : Definition ρ} (h : d.Alike d')
    (h' : d'.Alike d'') : d.Alike d'' := by
  unfold Alike at *
  rw [h', h]

namespace Library

variable {σ : Type} {l l' : Library σ}

theorem getDefinition_eq_ok {d : DefId} {definition : Definition (Routine σ Unit)} :
    l.getDefinition d = .ok definition ↔ l.definitions[d.index]? = some definition := by
  unfold getDefinition
  cases l.definitions[d.index]? with
  | none => simp
  | some definition' => simp

/-- Every definition of `l` is still in `l'`, with the same name, ports, generator and image. -/
def Extends (l l' : Library σ) : Prop :=
  ∀ d definition, l.getDefinition d = .ok definition →
    ∃ definition', l'.getDefinition d = .ok definition' ∧ definition.Alike definition'

instance : IsPreorder (Library σ) Extends where
  refl _ _ definition h := ⟨definition, h, rfl⟩
  trans _ _ _ h h' d definition hd := by
    obtain ⟨definition', hd', ha⟩ := h d definition hd
    obtain ⟨definition'', hd'', ha'⟩ := h' d definition' hd'
    exact ⟨definition'', hd'', ha.trans ha'⟩

/-- The definition of the handle copies an existing module. -/
def IsImported (l : Library σ) (d : DefId) : Prop :=
  ∃ definition, l.getDefinition d = .ok definition ∧ definition.isImported = true

theorem not_isImported (h : l.definitions.all (!·.isImported) = true) (d : DefId) :
    ¬ l.IsImported d := by
  rintro ⟨definition, hd, himported⟩
  obtain ⟨hlt, rfl⟩ := Array.getElem?_eq_some_iff.mp (getDefinition_eq_ok.mp hd)
  have hnot := Array.all_eq_true.mp h d.index hlt
  rw [himported] at hnot
  cases hnot

theorem Extends.isImported_iff (h : l.Extends l') {d : DefId}
    {definition : Definition (Routine σ Unit)} (hd : l.getDefinition d = .ok definition) :
    l'.IsImported d ↔ definition.isImported = true := by
  obtain ⟨definition', hd', ha⟩ := h d definition hd
  have himage : definition'.isImported = definition.isImported := by
    unfold Definition.isImported
    rw [ha]
  constructor
  · rintro ⟨found, hfound, himported⟩
    rw [hd'] at hfound
    obtain rfl := Except.ok.inj hfound
    rw [← himage, himported]
  · intro himported
    exact ⟨definition', hd', himage.trans himported⟩

/-- The definition of the handle may have a module with these ports. -/
def Suits (l : Library σ) (d : DefId) (m : HwModule) : Prop :=
  ∃ definition, l.getDefinition d = .ok definition ∧ definition.Suits m

theorem Extends.suits (h : l.Extends l') {d : DefId} {m : HwModule} (hm : l.Suits d m) :
    l'.Suits d m := by
  obtain ⟨definition, hd, hsuits⟩ := hm
  obtain ⟨definition', hd', halike⟩ := h d definition hd
  exact ⟨definition', hd', halike.suits hsuits⟩

theorem getDefinition_addDefinition (l : Library σ) (definition : Definition (Routine σ Unit)) :
    (l.addDefinition definition).2.getDefinition (l.addDefinition definition).1 = .ok definition := by
  rw [getDefinition_eq_ok]
  exact Array.getElem?_push_size

theorem extends_addDefinition (l : Library σ) (definition : Definition (Routine σ Unit)) :
    l.Extends (l.addDefinition definition).2 := by
  intro d found hd
  rw [getDefinition_eq_ok] at hd
  refine ⟨found, getDefinition_eq_ok.mpr ?_, rfl⟩
  unfold addDefinition
  obtain ⟨hlt, heq⟩ := Array.getElem?_eq_some_iff.mp hd
  rw [Array.getElem?_push_lt hlt, heq]

theorem extends_setParameters (l : Library σ) (d : DefId) (key : ParameterKey) :
    l.Extends (l.setParameters d key) := by
  intro e found he
  rw [getDefinition_eq_ok] at he
  by_cases hed : d.index = e.index
  · refine ⟨{ found with parameters := some key }, getDefinition_eq_ok.mpr ?_, rfl⟩
    unfold setParameters
    rw [Array.getElem?_modify, if_pos hed, he]
    rfl
  · refine ⟨found, getDefinition_eq_ok.mpr ?_, rfl⟩
    unfold setParameters
    rw [Array.getElem?_modify, if_neg hed, he]

end Library

/-- The library of a workspace has been extended; the host is free. -/
def Workspace.Extends {σ : Type} (w w' : Workspace σ) : Prop :=
  w.library.Extends w'.library

instance {σ : Type} : IsPreorder (Workspace σ) Workspace.Extends where
  refl w := refl_of Library.Extends w.library
  trans _ _ _ h h' := trans_of Library.Extends h h'

namespace Supply

open Step

variable {σ α : Type}

/-! ### Steps on a library -/

theorem ask_leads (read : Library σ → Except BuildError α) (w : Workspace σ) :
    (ask read).Leads Workspace.Extends (fun a w' => w' = w ∧ read w.library = .ok a) w :=
  leads_query (fun w => read w.library) w

theorem modifyLibrary_leads {f : Library σ → Library σ} {w : Workspace σ}
    (h : w.library.Extends (f w.library)) :
    (modifyLibrary f).Leads Workspace.Extends (fun _ _ => True) w :=
  ⟨h, fun _ _ => trivial⟩

theorem define_leads (spec : DefinitionSpec (Routine σ Unit)) (w : Workspace σ) :
    (define spec).Leads Workspace.Extends (fun _ _ => True) w := by
  unfold define
  refine (leads_ofOutcome _ w).bind fun definition w' _ _ => ?_
  refine (leads_get w').bind fun read w'' _ h => ?_
  obtain ⟨rfl, rfl⟩ := h
  refine (modifyLibrary_leads (read.library.extends_addDefinition definition)).bind
    fun _ w₃ _ _ => ?_
  exact (leads_pure _ w₃).forget

theorem define_eq_ok {spec : DefinitionSpec (Routine σ Unit)} {w w' : Workspace σ} {d : DefId}
    (h : (define spec).apply w = (.ok d, w')) :
    ∃ definition, Definition.ofSpec spec = .ok definition ∧
      w'.library.getDefinition d = .ok definition := by
  unfold define at h
  obtain ⟨definition, w₁, houtcome, h⟩ := apply_bind_eq_ok_iff.mp h
  obtain ⟨hspec, rfl⟩ := Prod.mk.inj houtcome
  obtain ⟨hd, rfl⟩ := Prod.mk.inj h
  obtain rfl := Except.ok.inj hd
  exact ⟨definition, hspec, w.library.getDefinition_addDefinition definition⟩

theorem exists_defined {spec : DefinitionSpec (Routine σ Unit)} {w w' : Workspace σ} {d : DefId}
    (h : ((define spec).apply w).1 = .ok d) (grown : ((define spec).apply w).2.Extends w') :
    ∃ original definition, Definition.ofSpec spec = .ok original ∧ original.Alike definition ∧
      w'.library.getDefinition d = .ok definition := by
  obtain ⟨original, hspec, hfound⟩ := define_eq_ok (apply_eq_of_ok h)
  obtain ⟨definition, hd, halike⟩ := grown d original hfound
  exact ⟨original, definition, hspec, halike, hd⟩

theorem importModule_eq_ok {design : Design} {id : ModuleId} {w w' : Workspace σ} {d : DefId}
    (h : (importModule design id).apply w = (.ok d, w')) :
    ∃ imported, Definition.ofModule design id = .ok imported ∧
      w'.library.getDefinition d = .ok imported := by
  unfold importModule at h
  obtain ⟨imported, w₁, houtcome, h⟩ := apply_bind_eq_ok_iff.mp h
  obtain ⟨himport, rfl⟩ := Prod.mk.inj houtcome
  obtain ⟨hd, rfl⟩ := Prod.mk.inj h
  obtain rfl := Except.ok.inj hd
  exact ⟨imported, himport, w.library.getDefinition_addDefinition imported⟩

/-! ### Calls -/

theorem run_leads {caller : Caller σ}
    (hcaller : ∀ f c args w, (caller f c args).Leads Workspace.Extends (fun _ _ => True) w)
    (recipe : Recipe σ α) (w : Workspace σ) :
    (run caller recipe).Leads Workspace.Extends (fun _ _ => True) w := by
  induction recipe generalizing w with
  | done outcome =>
      exact (leads_ofOutcome outcome w).forget
  | ask request next ih =>
      have hanswer : (answer caller request).Leads Workspace.Extends (fun _ _ => True) w := by
        cases request with
        | define spec => exact define_leads spec w
        | call factory cache args => exact hcaller factory cache args w
        | cacheSize cache =>
            refine (leads_get w).bind fun read w' _ _ => ?_
            exact (leads_pure _ w').forget
      exact hanswer.attempt.bind fun outcome w' _ _ => ih outcome w'
  | host update next ih =>
      refine (leads_get w).bind fun read w' _ _ => ?_
      have hhost : (modify fun w : Workspace σ => { w with host := update w.host } :
          Supply σ PUnit).Leads Workspace.Extends (fun _ _ => True) w' :=
        ⟨refl_of Library.Extends w'.library, fun _ _ => trivial⟩
      exact hhost.bind fun _ w'' _ _ => ih read.host w''

theorem build_leads {caller : Caller σ}
    (hcaller : ∀ f c args w, (caller f c args).Leads Workspace.Extends (fun _ _ => True) w)
    (f : FactoryId) (c : CacheId) (factory : Factory σ) (bound : BoundArgs) (w : Workspace σ) :
    (build caller f c factory bound).Leads Workspace.Extends (fun _ _ => True) w := by
  unfold build
  refine (run_leads hcaller (factory.body bound) w).bind fun d w₁ _ _ => ?_
  refine (modifyLibrary_leads (w₁.library.extends_setParameters d bound.key)).bind
    fun _ w₂ _ _ => ?_
  refine (leads_get w₂).bind fun read w₃ _ _ => ?_
  cases read.library.cached? c f bound.key with
  | some present => exact (leads_pure present w₃).forget
  | none =>
      refine Leads.bind (Q := fun _ _ => True) ?_ fun _ w₄ _ _ => (leads_pure d w₄).forget
      exact modifyLibrary_leads (refl_of Library.Extends w₃.library)

/-- Calls extend the library, however deep they nest. -/
theorem call_leads (depth : Nat) (f : FactoryId) (c : CacheId) (args : Args) (w : Workspace σ) :
    (call depth f c args).Leads Workspace.Extends (fun _ _ => True) w := by
  induction depth generalizing f c args w with
  | zero => exact leads_throw _ _ w
  | succ depth ih =>
      unfold call callWith
      refine (ask_leads _ w).bind fun factory w₁ _ _ => ?_
      refine (leads_ofOutcome _ w₁).bind fun bound w₂ _ _ => ?_
      refine (leads_get w₂).bind fun read w₃ _ _ => ?_
      cases read.library.cached? c f bound.key with
      | some present => exact (leads_pure _ w₃).forget
      | none => exact build_leads ih f c factory bound w₃

end Supply

end Wirework
