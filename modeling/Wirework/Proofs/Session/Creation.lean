import Wirework.Proofs.Interface.Signature
import Wirework.Proofs.Session.Coherence

/-! # Making and discarding modules

The module of a definition is settled if the definition has no generator or copies an image, and has no body yet
otherwise (`Compile.createModule_cases`).  If it cannot be made, nothing has changed but that the position it would
have taken stays empty.

Of a definition that copies no module more can be said: the module is made just if its name is valid, and all of it
but the symbol is prescribed by the definition (`Compile.createModule_plain`).  That is what two sessions with
different histories have in common.

Discarding a module whose body has not been entered takes back everything but its position (`Session.drop_enroll`). -/

namespace Wirework

open Step

variable {ρ : Type}

/-! ### New modules -/

namespace Compile

/-- What becomes of the module of a definition when it is inserted. -/
structure InsertsAs (definition : Definition ρ) (m : HwModule) : Prop where
  suits : definition.Suits m
  kind : m.IsSettled ∧ (definition.isImported = true ∨ m.isExternal = true) ∧
        (definition.generator?.isSome = true → definition.isImported = true) ∨
      m.kind = .generated none ∧ definition.isImported = false ∧ definition.generator?.isSome = true
  declares : ∀ declared, m.kind = .external declared →
    definition.Declares ((definition.parameters.map (·.values)).getD .empty) declared

theorem externalParameters_eq (definition : Definition ρ) : externalParameters definition =
    Definition.declarationsOf ((definition.parameters.map (·.values)).getD .empty) := by
  unfold externalParameters
  cases definition.parameters <;> rfl

theorem insertModule_cases (definition : Definition ρ) (symbol : String) (d : Design) :
    (∃ e d', (insertModule definition symbol).apply d = (.error e, d') ∧
        (d' = d ∨ d.Takes none d')) ∨
      ∃ m d', (insertModule definition symbol).apply d = (.ok d.nextModule, d') ∧
        d.Takes (some m) d' ∧ m.symbol = symbol ∧ InsertsAs definition m := by
  unfold insertModule
  cases himage : definition.image with
  | some image =>
      have himported : definition.isImported = true := by
        unfold Definition.isImported
        rw [himage]
        rfl
      rcases Edit.importImage_cases image symbol d with ⟨e, d', he, hd'⟩ | ⟨m, d', hok, ht, hm, hs, hdeclares⟩
      · exact Or.inl ⟨e, d', he, hd'⟩
      · have hsuits : definition.Suits m :=
          Definition.suits_of_image himage (congrArg HwModule.inputs hm) (congrArg HwModule.outputs hm)
        refine Or.inr ⟨m, d', hok, ht, congrArg HwModule.symbol hm, hsuits,
          Or.inl ⟨hs, Or.inl himported, fun _ => himported⟩, fun declared hdeclared => ?_⟩
        unfold Definition.Declares
        rw [himage]
        exact hdeclares declared hdeclared
  | none =>
      have hinsert : ∀ m : HwModule, m.symbol = symbol → (∀ body, m.body? ≠ some body) →
          InsertsAs definition m →
          (∃ e d', (Edit.addModule m).apply d = (.error e, d') ∧ (d' = d ∨ d.Takes none d')) ∨
            ∃ m' d', (Edit.addModule m).apply d = (.ok d.nextModule, d') ∧
              d.Takes (some m') d' ∧ m'.symbol = symbol ∧ InsertsAs definition m' := by
        intro m hsymbol hbody hm
        rcases Edit.addModule_cases m d with ⟨e, he⟩ | ⟨_, hok⟩
        · exact Or.inl ⟨e, d, he, Or.inl rfl⟩
        · exact Or.inr ⟨m, _, hok, .push rfl rfl rfl rfl fun body hb => absurd hb (hbody body),
            hsymbol, hm⟩
      have himported : definition.isImported = false := by
        unfold Definition.isImported
        rw [himage]
        rfl
      cases hgenerator : definition.generator? with
      | some generator =>
          simp only [Edit.newModule]
          refine hinsert _ ?_ ?_ ?_
          · rfl
          · exact fun body hb => by cases hb
          · exact ⟨Definition.suits_of_ports himage rfl rfl,
              Or.inr ⟨rfl, himported, by rw [hgenerator]; rfl⟩, fun declared hdeclared => by cases hdeclared⟩
      | none =>
          simp only [Edit.newExternalModule]
          refine hinsert _ ?_ ?_ ?_
          · rfl
          · exact fun body hb => by cases hb
          · refine ⟨Definition.suits_of_ports himage rfl rfl,
              Or.inl ⟨Or.inl rfl, Or.inr rfl, fun hsome => ?_⟩, fun declared hdeclared => ?_⟩
            · rw [hgenerator] at hsome
              cases hsome
            · unfold Definition.Declares
              rw [himage, ← ModuleKind.external.inj hdeclared]
              exact externalParameters_eq definition

/-- A definition gets a new module, which suits it, or nothing but an empty position. -/
theorem createModule_cases (definition : Definition ρ) (s : Session) :
    (∃ e design, (createModule definition).apply s = (.error e, { s with design }) ∧
        (design = s.design ∨ s.design.Takes none design)) ∨
      ∃ m design entry, s.Fits definition.name m design entry ∧ InsertsAs definition m ∧
        entry = manifestEntry definition m.symbol s.config ∧
        (createModule definition).apply s = (.ok s.design.nextModule, { s with
          design
          symbols := ⟨m.symbol :: s.symbols.used⟩
          records := (s.design.nextModule, entry) :: s.records }) := by
  unfold createModule reserveSymbol
  by_cases hvalid : Name.isValid definition.name = true
  · simp only [if_pos hvalid, apply_bind, apply_get, apply_set, apply_pure, apply_attempt, edit,
      apply_zoom, apply_mapError]
    rcases insertModule_cases definition (s.symbols.uniquify definition.name).1 s.design with
      ⟨e, d', he, hd'⟩ | ⟨m, d', hok, ht, hm, has⟩
    · refine Or.inl ⟨.ir e, d', ?_, hd'⟩
      rw [he]
      simp only [Except.mapError, apply_bind, releaseSymbol, apply_modify, apply_throw,
        NameScope.release_uniquify]
    · refine Or.inr ⟨m, d', manifestEntry definition m.symbol s.config, ⟨ht, hm, hvalid, rfl⟩, has, rfl, ?_⟩
      rw [hok, hm]
      rfl
  · exact Or.inl ⟨.invalidName definition.name, s.design, by
      simp only [if_neg hvalid, apply_bind, apply_throw], Or.inl rfl⟩

/-! ### Definitions that copy no module -/

/-- The module made for a definition that copies none, as it is inserted under the given symbol. -/
def plainModule (definition : Definition ρ) (symbol : String) : HwModule :=
  match definition.generator? with
  | some generator =>
    { symbol, inputs := definition.inputPorts, outputs := definition.outputPorts
      attributes := generatedAttributes definition, kind := .generated none
      location := generator.location }
  | none =>
    { symbol, inputs := definition.inputPorts, outputs := definition.outputPorts
      attributes := externalAttributes definition
      kind := .external (externalParameters definition), location := .unknown }

variable {definition : Definition ρ}

theorem plainModule_symbol (definition : Definition ρ) (symbol : String) :
    (plainModule definition symbol).symbol = symbol := by
  unfold plainModule
  cases definition.generator? <;> rfl

theorem plainModule_inputs (definition : Definition ρ) (symbol : String) :
    (plainModule definition symbol).inputs = definition.inputPorts := by
  unfold plainModule
  cases definition.generator? <;> rfl

theorem plainModule_outputs (definition : Definition ρ) (symbol : String) :
    (plainModule definition symbol).outputs = definition.outputPorts := by
  unfold plainModule
  cases definition.generator? <;> rfl

theorem plainModule_header (definition : Definition ρ) (symbol : String) :
    (plainModule definition symbol).header = { (plainModule definition "").header with symbol } := by
  unfold plainModule
  cases definition.generator? <;> rfl

theorem insertModule_plain (h : definition.image = none) (symbol : String) :
    insertModule definition symbol = Edit.addModule (plainModule definition symbol) := by
  unfold insertModule plainModule
  rw [h]
  cases definition.generator? <;> rfl

/-- A definition that copies no module gets one if its name is valid: the symbol it reserves is free. -/
theorem createModule_plain {s : Session} (hs : s.Coherent) (hplain : definition.image = none)
    (hvalid : Name.isValid definition.name = true) :
    ∃ m design entry, m = plainModule definition (s.symbols.uniquify definition.name).1 ∧
      s.Fits definition.name m design entry ∧
      (createModule definition).apply s = (.ok s.design.nextModule, { s with
        design
        symbols := ⟨m.symbol :: s.symbols.used⟩
        records := (s.design.nextModule, entry) :: s.records }) := by
  let m := plainModule definition (s.symbols.uniquify definition.name).1
  have hsymbol : m.symbol = (s.symbols.uniquify definition.name).1 := plainModule_symbol _ _
  have hfree : s.design.find? m.symbol = none := by
    refine Design.find?_eq_none.mpr fun id n hn heq => ?_
    refine s.symbols.uniquify_not_mem definition.name ((hs.roster.mem_symbols _).mpr ⟨id, ?_⟩)
    exact Design.symbolOf?_eq_some_iff.mpr ⟨n, hn, heq.trans hsymbol⟩
  have hbody : ∀ body, m.body? = some body → body.ops = #[] := by
    intro body hbody
    have hnone : m.body? = none := by
      simp only [m, plainModule]
      cases definition.generator? <;> rfl
    rw [hnone] at hbody
    cases hbody
  have hadd := Edit.addModule_apply (hsymbol ▸ s.symbols.uniquify_valid hvalid) hfree
  refine ⟨m, { s.design with modules := s.design.modules.push (some m) },
    manifestEntry definition m.symbol s.config, rfl,
    ⟨.push rfl rfl rfl rfl hbody, hsymbol, hvalid, rfl⟩, ?_⟩
  unfold createModule reserveSymbol
  simp only [if_pos hvalid, apply_bind, apply_get, apply_set, apply_pure, apply_attempt, edit, apply_zoom,
    apply_mapError, insertModule_plain hplain]
  rw [hadd, hsymbol]
  rfl

theorem createModule_refused {s : Session} (hvalid : ¬ Name.isValid definition.name = true) :
    (createModule definition).apply s = (.error (.invalidName definition.name), s) := by
  unfold createModule
  simp only [if_neg hvalid, apply_bind, apply_throw]

/-! ### Discarded modules -/

theorem discardModule_apply (d : DefId) (name : String) (id : ModuleId) (s : Session) :
    (discardModule d name id).apply s = (.ok ⟨⟩, s.drop d name id) := by
  unfold discardModule warn
  simp only [apply_bind, apply_modify, edit, Edit.eraseModule, apply_zoom, apply_mapError, apply_get,
    apply_set, apply_pure, Except.mapError]
  unfold Session.drop
  cases s.design.module? id with
  | none => rfl
  | some m => rfl

end Compile

namespace Session

/-- Discarding a module that nothing else refers to leaves nothing but its position. -/
theorem drop_enroll {s : Session} (hs : s.Coherent) {d : DefId} (unbound : s.moduleOf? d = none)
    {name : String} {m : HwModule} {design : Design} {entry : ManifestEntry}
    (fits : s.Fits name m design entry) (current : String) :
    ∃ design' warnings, s.design.Takes none design' ∧
      (s.enroll d m design entry).drop d current s.design.nextModule =
        { s with design := design', warnings } := by
  let erased := { design with
    modules := design.modules.setIfInBounds s.design.nextModule.index none }
  have herased : s.design.Takes none erased := fits.takes.erase rfl rfl rfl rfl
  refine ⟨erased, s.warnings ++ [.discarded current], herased, ?_⟩
  have hmodules : ((d, s.design.nextModule) :: s.modules).filter (·.1 ≠ d) = s.modules := by
    rw [List.filter_cons_of_neg (by simp)]
    exact filter_unbound unbound
  have hrecords : ((s.design.nextModule, entry) :: s.records).filter
      (·.1 ≠ s.design.nextModule) = s.records := by
    rw [List.filter_cons_of_neg (by simp)]
    refine List.filter_eq_self.mpr fun record hrecord => ?_
    rw [decide_eq_true_eq]
    have hsymbol := hs.roster.record_symbol record.1 record.2 hrecord
    obtain ⟨m, hm, _⟩ := Design.symbolOf?_eq_some_iff.mp hsymbol
    exact Design.IsLive.ne_nextModule ⟨m, hm⟩
  have hinstances : s.instances.filter (·.parent ≠ s.design.nextModule) = s.instances := by
    refine List.filter_eq_self.mpr fun r hr => ?_
    rw [decide_eq_true_eq]
    obtain ⟨m, _, hm, _⟩ := (hs.placed r hr).1.parent
    exact Design.IsLive.ne_nextModule ⟨m, hm⟩
  have hsymbols : (NameScope.mk (m.symbol :: s.symbols.used)).release m.symbol = s.symbols := by
    rw [fits.symbol_eq]
    exact s.symbols.release_uniquify name
  unfold drop enroll
  simp only [fits.takes.module?_next, hmodules, hrecords, hinstances, hsymbols, erased]

end Session

end Wirework
