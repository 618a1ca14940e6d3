import Wirework.Proofs.Engine.Chronicle
import Wirework.Proofs.Engine.Numbers
import Wirework.Proofs.Engine.Rejecting
import Wirework.Proofs.Session.Declaring

/-! # Parameters of external instances

An external module declares its parameters once, when it is made, while each instance of it is given the values that
its definition has when the instance is placed.  Whether the two agree is a matter of what has happened in between,
and the chronicle of the session tells (`external_parameters_agree`):

* the values of a definition are those of the last body that has ended with it;
* what its module declares are the names and kinds of the values it had when the module was made, which are recorded
  with the module;
* so the values on an instance are those declared, unless a body has ended with the definition in between and given it
  other parameters.

A definition that copies an external module takes over the declarations of that module, but no values, so nothing of
this holds for its instances (`external_parameters_differ`). -/

namespace Wirework

open Step

variable {σ : Type}

/-- What an instance of the module, placed for the definition, says of parameters, and what the module declares if
it is external, given the events up to the instance. -/
structure Session.Accords (s : Session) (placed : Instance) (definition : Definition (Routine σ Unit))
    (module : ModuleId) (start : Library σ) (events : List WorldEvent) : Prop where
  /-- The instance has the values that the definition has. -/
  carries : ∃ op inputs, s.design.op? placed.op = some op ∧
    op.operation = .instantiate module placed.name inputs definition.instanceParameters
  live : s.design.IsLive module
  /-- The definition has the parameters of the slot for which a body has last ended with it. -/
  label : definition.parameters =
    labelAfter placed.definition (start.label? placed.definition) (callsOf events)
  /-- A module that is no copy declares the values that its definition had when the module was made, and these are
  recorded with it.  The values on the instance are such values, if no body has ended with the definition since then
  for other parameters. -/
  own : definition.image = none → definition.generator? = none → ∀ callee declared,
    s.design.module? module = some callee → callee.kind = .external declared →
      ∃ before since, events = before ++ .module placed.definition module :: since ∧
        let label := labelAfter placed.definition (start.label? placed.definition) (callsOf before)
        (∃ entry, s.record? module = some entry ∧ entry.parameters = valuesOf label) ∧
        Definition.MeetsDeclarations (valuesOf label) declared ∧
        ((∀ slot, .completed slot placed.definition ∈ callsOf since → some slot.key = label) →
          Definition.MeetsDeclarations definition.instanceParameters declared)
  /-- A copy declares what the module declares that it copies. -/
  copied : ∀ image, definition.image = some image → ∀ callee declared, s.design.module? module = some callee →
    callee.kind = .external declared → image.contents = .external declared

theorem Session.Declared.declares {s : Session} {l l' : Library σ} (h : s.Declared l'.catalog) (hs : s.Coherent)
    {d : DefId} {definition : Definition (Routine σ Unit)} (hd : l.getDefinition d = .ok definition)
    (hl : l.Extends l') {module : ModuleId} (made : s.moduleOf? d = some module) {callee : HwModule}
    {declared : List ParameterDecl} (hcallee : s.design.module? module = some callee)
    (hkind : callee.kind = .external declared) :
    ∃ entry, s.record? module = some entry ∧ definition.Declares entry.parameters declared := by
  obtain ⟨entry, hentry, found, hfound, hdeclares⟩ :=
    h d module callee declared (mem_of_lookup made) hcallee hkind
  obtain ⟨found', hfound', halike⟩ := hl d definition hd
  obtain rfl := Except.ok.inj (hfound.symm.trans hfound')
  rw [halike] at hdeclares
  exact ⟨entry, hs.record?_eq_some_iff.mpr hentry, hdeclares⟩

theorem World.Works.declared {config : Config} {workspace : Workspace σ} {w w₁ w' : World σ} (hworks : w.Works w₁)
    (before : World.Becomes ⟨workspace, .ofConfig config⟩ w) (after : w₁.Becomes w') :
    w'.session.Coherent ∧ w'.session.Declared w'.workspace.library.catalog := by
  have hstart := World.regular_start workspace config
  have hw := before.regular hstart
  have hw₁ := hworks.regular hw
  have hl₁ := after.library hw₁
  have hafter := after.goes hw₁ (refl_of Library.Extends _)
  have hgoes : Session.Goes w'.workspace.library.catalog (.ofConfig config) w'.session :=
    (before.goes hstart (trans_of Workspace.Extends hworks.library hl₁)).trans
      ((hworks.session _ hl₁).goes.trans hafter)
  exact Session.Goes.induct (I := fun s => s.Declared w'.workspace.library.catalog) hgoes hstart.coherent
    (Session.declared_ofConfig config _) fun _ _ hs hdeclared hmoves => hdeclared.moves hs hmoves

theorem Definition.instanceParameters_eq {ρ : Type} {definition : Definition ρ} (h : definition.generator? = none) :
    definition.instanceParameters = valuesOf definition.parameters := by
  unfold Definition.instanceParameters
  rw [h]
  rfl

/-- **Parameters of external instances.**  At any point of a session after an instance has been placed, its operation
has the values that its definition had then, which are those of the last body that had ended with the definition.  If
its module is external, it declares by name and by kind the values that the definition had when the module was made,
unless it is a copy: then it declares what the copied module does.

So the parameters on the instance are just those declared, and of the kinds declared, if no body has ended with the
definition for other parameters after its module was made and before the instance was placed. -/
theorem external_parameters_agree {config : Config} {workspace : Workspace σ} {w w' : World σ}
    {events : List WorldEvent} (h : World.Course ⟨workspace, .ofConfig config⟩ events w) {request : InstanceRequest}
    {depth : Nat} {placed : Instance}
    (accepted : ((Build.placeInstance (Build.materializeWithin depth) request).apply w).1 = .ok placed)
    (after : ((Build.placeInstance (Build.materializeWithin depth) request).apply w).2.Becomes w')
    {definition : Definition (Routine σ Unit)}
    (hd : ((Build.placeInstance (Build.materializeWithin depth) request).apply w).2.workspace.library.getDefinition
      request.definition = .ok definition) :
    ∃ module, w'.session.moduleOf? request.definition = some module ∧
      w'.session.Accords placed definition module workspace.library
        (events ++ Build.placeEvents (Build.makeEvents depth) request w) := by
  have hstart := World.regular_start workspace config
  have hw := h.becomes.regular hstart
  have placing : Build.Placing request (Build.placeInstance (Build.materializeWithin (σ := σ) depth) request) :=
    .within depth
  have hworks := (placing.leads hw.coherent).state
  have hw₁ := hworks.regular hw
  obtain ⟨hs', hdeclared⟩ := hworks.declared h.becomes after
  have hgoes := after.goes hw₁ (refl_of Library.Extends _)
  have htells := (h.tells hstart).trans
    (Build.placeInstance_tells (Build.materializeWithin_tells depth) request hw.coherent)
  -- The operation of the instance, and the module that it is an instance of.
  obtain ⟨module, inputs, op, made, hop, hoperation⟩ := placing.exists_op hw.coherent accepted hd
  obtain ⟨callee, hcallee⟩ := hw₁.coherent.isLive_of_made made.made
  obtain ⟨made', hkept, -⟩ := after.persists hw₁ made hcallee
  obtain ⟨hhandle, -⟩ := (placing.leads hw.coherent).result placed accepted
  refine ⟨module, made'.1, ?carries, ⟨callee, hkept⟩, ?label, ?own, ?copied⟩
  case carries =>
    obtain ⟨op', hop', _, hoperation', _⟩ := (Session.Goes.retains hgoes).op placed.op op hop
    exact ⟨op', inputs, hop', hoperation'.trans hoperation⟩
  case label =>
    rw [hhandle]
    exact htells.happens.parameters_eq hd
  case own =>
    intro himage hgenerator callee' declared hcallee' hkind
    rw [hhandle]
    obtain ⟨entry, hentry, hdeclares⟩ :=
      hdeclared.declares hs' hd (after.library hw₁) made'.1 hcallee' hkind
    unfold Definition.Declares at hdeclares
    rw [himage] at hdeclares
    subst hdeclares
    -- The record is the one that was made with the module.
    obtain ⟨entry₁, hentry₁, -⟩ := hw₁.coherent.record?_of_live hcallee
    have hmem := hw₁.coherent.record?_eq_some_iff.mp hentry₁
    obtain rfl : entry₁ = entry := by
      have hmem' := Session.Goes.keeps_record hgoes hw₁.coherent hmem ⟨callee, hkept⟩
      exact Option.some.inj ((hs'.record?_eq_some_iff.mpr hmem').symm.trans hentry)
    obtain ⟨hnone, -⟩ | ⟨before, since, l, hevents, hbefore, hsince, found, hfound, hrecorded⟩ :=
      htells.made _ _ _ (hw₁.coherent.moduleOf?_eq_some_iff.mp made.1) hmem
    · exact absurd hnone List.not_mem_nil
    have hlabel := hbefore.parameters_eq hfound
    rw [hlabel] at hrecorded
    refine ⟨before, since, hevents, ⟨entry₁, hentry, hrecorded⟩,
      Definition.meetsDeclarations_of_eq (congrArg _ hrecorded.symm), fun hsame => ?_⟩
    -- Since no body has given the definition other parameters, it still has those that are recorded.
    have hkeeps := hsince.label?_induct (P := (· = labelAfter request.definition
        (workspace.library.label? request.definition) (callsOf before))) hfound
      ((Library.label?_of_getDefinition hfound).trans hlabel) hsame
    rw [Library.label?_of_getDefinition hd] at hkeeps
    refine Definition.meetsDeclarations_of_eq ?_
    rw [Definition.instanceParameters_eq hgenerator, hkeeps, hrecorded]
  case copied =>
    intro image himage callee' declared hcallee' hkind
    obtain ⟨entry, -, hdeclares⟩ :=
      hdeclared.declares hs' hd (after.library hw₁) made'.1 hcallee' hkind
    unfold Definition.Declares at hdeclares
    rwa [himage] at hdeclares

/-! ### A memory with and without its parameters -/

namespace Sample

/-- A function that makes a memory implemented elsewhere. -/
def ramMaker : Factory Unit where
  signature := ⟨"make_ram", [("depth", none)]⟩
  body _ := Recipe.define { name := "Ram", declarations := [("y", .output (.uint 8))] }

/-- A function that gives the memory, wherever it comes from. -/
def presetMaker : Factory Unit where
  signature := ⟨"preset_ram", [("init", none)]⟩
  body _ := Program.ofOutcome (.ok ⟨1⟩)

/-- A module that instances are placed in. -/
def boardSpec : DefinitionSpec (Routine Unit Unit) where
  name := "Board"
  declarations := [("build", .generator (pure ()) .unknown)]

/-- The board, and the functions. -/
def boardWorkspace : Workspace Unit :=
  ((Supply.define boardSpec).apply ⟨{ factories := #[ramMaker, presetMaker] }, ()⟩).2

/-- The session with the library after a memory of depth sixteen has been asked for. -/
def askRam (w : World Unit) : World Unit :=
  { w with workspace := ((Supply.call 1 ⟨0⟩ ⟨0⟩ { positional := [.int 16] }).apply w.workspace).2 }

/-- The session with the library after the memory has been given another parameter. -/
def presetRam (w : World Unit) : World Unit :=
  { w with workspace := ((Supply.call 1 ⟨1⟩ ⟨0⟩ { positional := [.str "zero"] }).apply w.workspace).2 }

/-- The board is being built. -/
def board (w : World Unit) : World Unit :=
  ((Build.prepare ⟨0⟩).apply w).2

/-- An instance of the memory. -/
def placeRam : Build Unit Instance :=
  Build.placeInstance (Build.materializeWithin 1) { definition := ⟨1⟩ }

/-- The slot of the memory of depth sixteen. -/
def sixteen : CacheSlot :=
  ⟨⟨0⟩, ⟨0⟩, .ofList [("depth", .int 16)]⟩

/-- A memory has been made, and placed on the board. -/
def placedRam : World Unit :=
  (placeRam.apply (board (askRam ⟨boardWorkspace, .ofConfig {}⟩))).2

/-- The instance that is placed second. -/
def secondRam : Instance :=
  { id := ⟨1⟩, name := "Ram_1", definition := ⟨1⟩, op := ⟨1⟩, results := [⟨⟨1⟩, .uint 8⟩] }

/-- The memory has been asked for and placed a second time, and then been given another parameter. -/
def placedTwice : World Unit :=
  presetRam (placeRam.apply (askRam placedRam)).2

/-- What happens before the module of the memory is made. -/
def ramBefore : List WorldEvent := [
  .library (.entered sixteen), .library (.made ⟨1⟩), .library (.completed sixteen ⟨1⟩),
  .library (.returned sixteen ⟨1⟩), .module ⟨0⟩ ⟨0⟩]

/-- What happens between then and the second instance. -/
def ramSince : List WorldEvent := [.library (.returned sixteen ⟨1⟩)]

/-- A design with a memory that declares its depth. -/
def ramDesign : Design where
  modules := #[some {
    symbol := "Ram", inputs := [], outputs := [⟨"y", .uint 8⟩], attributes := .empty, location := .unknown,
    kind := .external [⟨"depth", "i64"⟩] }]

/-- The board, and a copy of the memory. -/
def copyWorkspace : Workspace Unit :=
  ((do
    let _ ← Supply.define boardSpec
    Supply.importModule ramDesign ⟨0⟩ : Supply Unit DefId).apply ⟨{}, ()⟩).2

/-- The copy has been placed. -/
def placedCopy : World Unit :=
  (placeRam.apply (board ⟨copyWorkspace, .ofConfig {}⟩)).2

theorem enters_board {w : World Unit} (h : ((Build.prepare ⟨0⟩).apply w).1.isOk = true) :
    ∃ frame routine, (Build.prepare ⟨0⟩).apply w = (.ok (frame, routine), board w) :=
  Build.prepare_of_isOk h

theorem course_askRam {start w : World Unit} {events : List WorldEvent} (h : World.Course start events w) :
    World.Course start (events ++ ([] ++ Supply.callEvents 1 ⟨0⟩ ⟨0⟩ { positional := [.int 16] } w.workspace).map
      .library) (askRam w) :=
  h.library (.call .start 1 ⟨0⟩ ⟨0⟩ { positional := [.int 16] })

theorem course_ram : World.Course ⟨boardWorkspace, .ofConfig {}⟩ (ramBefore ++ .module ⟨1⟩ ⟨1⟩ :: ramSince)
    (askRam placedRam) := by
  obtain ⟨frame, routine, enters⟩ := enters_board (w := askRam ⟨boardWorkspace, .ofConfig {}⟩) (by decide +kernel)
  have hmodule : frame.module = ⟨0⟩ := (Build.prepare_opens enters).2.2.1.trans (by decide +kernel)
  have hentered := (course_askRam .start).enter enters
  rw [hmodule] at hentered
  have hplaced := hentered.place (Build.prepare_runs enters) 1 { definition := ⟨1⟩ }
  refine Eq.subst (motive := fun events => World.Course _ events _) ?_ (course_askRam hplaced)
  decide +kernel

end Sample

/-- The memory of depth sixteen that is placed second declares a depth and is given one, since it has only been asked
for again since its module was made; the parameter it is given later makes no difference. -/
theorem external_parameters_agree_ram :
    let chronicle := Sample.ramBefore ++ .module ⟨1⟩ ⟨1⟩ :: Sample.ramSince
    World.Course ⟨Sample.boardWorkspace, .ofConfig {}⟩ chronicle (Sample.askRam Sample.placedRam) ∧
      (Sample.placeRam.apply (Sample.askRam Sample.placedRam)).1 = .ok Sample.secondRam ∧
      ∃ definition, (Sample.placeRam.apply (Sample.askRam Sample.placedRam)).2.workspace.library.getDefinition ⟨1⟩ =
          .ok definition ∧
        definition.instanceParameters = (ParameterKey.ofList [("depth", .int 16)]).values ∧
        Sample.placedTwice.session.Accords Sample.secondRam definition ⟨1⟩ Sample.boardWorkspace.library chronicle ∧
        Definition.MeetsDeclarations definition.instanceParameters [⟨"depth", "i64"⟩] := by
  intro chronicle
  have hplaced : (Sample.placeRam.apply (Sample.askRam Sample.placedRam)).1 = .ok Sample.secondRam := by
    decide +kernel
  have hmodule : Sample.placedTwice.session.moduleOf? ⟨1⟩ = some ⟨1⟩ := by decide +kernel
  have hkind : (Sample.placedTwice.session.design.module? ⟨1⟩).map (·.kind) =
      some (.external [⟨"depth", "i64"⟩]) := by decide +kernel
  have hfound : ((Sample.placeRam.apply (Sample.askRam Sample.placedRam)).2.workspace.library.getDefinition ⟨1⟩).map
      (fun found => (found.image.isNone, found.generator?.isNone, found.instanceParameters)) =
        .ok (true, true, (ParameterKey.ofList [("depth", .int 16)]).values) := by decide +kernel
  have hevents : Build.placeEvents (Build.makeEvents 1) { definition := ⟨1⟩ } (Sample.askRam Sample.placedRam) = [] := by
    decide +kernel
  refine ⟨Sample.course_ram, hplaced, ?_⟩
  cases hd : (Sample.placeRam.apply (Sample.askRam Sample.placedRam)).2.workspace.library.getDefinition ⟨1⟩ with
  | error e =>
      rw [hd] at hfound
      cases hfound
  | ok definition =>
      rw [hd] at hfound
      obtain ⟨himage, hrest⟩ := Prod.mk.inj (Except.ok.inj hfound)
      obtain ⟨hgenerator, hvalues⟩ := Prod.mk.inj hrest
      have hlater : (Sample.placeRam.apply (Sample.askRam Sample.placedRam)).2.Becomes Sample.placedTwice :=
        .single (.supply (Build.call_sound 1 ⟨1⟩ ⟨0⟩ _ _).state)
      obtain ⟨module, hmodule', haccords⟩ := external_parameters_agree Sample.course_ram hplaced hlater hd
      obtain rfl := Option.some.inj (hmodule.symm.trans hmodule')
      rw [hevents, List.append_nil] at haccords
      refine ⟨definition, rfl, hvalues, haccords, ?_⟩
      obtain ⟨callee, hcallee, hdeclared⟩ := Option.map_eq_some_iff.mp hkind
      obtain ⟨before, since, hsplit, -, -, hagrees⟩ := haccords.own (Option.isNone_iff_eq_none.mp himage)
        (Option.isNone_iff_eq_none.mp hgenerator) callee _ hcallee hdeclared
      obtain ⟨-, -, rfl⟩ := (List.append_cons_inj_of_notMem (by decide) (by decide)).mp hsplit
      refine hagrees fun slot hslot => ?_
      obtain ⟨⟩ := List.mem_singleton.mp hslot

/-- A memory that is a copy declares its depth, but its instance has no value for it. -/
theorem external_parameters_differ :
    World.Becomes ⟨Sample.copyWorkspace, .ofConfig {}⟩ Sample.placedCopy ∧
      (Sample.placedCopy.session.design.module? ⟨1⟩).map (·.kind) = some (.external [⟨"depth", "i64"⟩]) ∧
      Sample.operations Sample.placedCopy ⟨0⟩ = [.instantiate ⟨1⟩ "Ram" [] .empty] := by
  obtain ⟨frame, routine, enters⟩ := Sample.enters_board (w := ⟨Sample.copyWorkspace, .ofConfig {}⟩) (by decide +kernel)
  exact ⟨.tail (.single (.prepare enters))
    (.answer (Build.prepare_runs enters) 1 [] (.instantiate { definition := ⟨1⟩ })), by decide +kernel, by decide +kernel⟩

end Wirework
