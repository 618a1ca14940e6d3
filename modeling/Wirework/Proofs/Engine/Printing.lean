import Wirework.Proofs.Design.ValueNames
import Wirework.Proofs.Engine.Permanence
import Wirework.Proofs.Engine.Evolution

/-! # Names of values in modules that are made

The input ports of a definition have different names, none of which is private, but they are not asked to be valid.
So the values of a module made for it have different names in its text just if no port is spelled like the number of
one of its results (`value_names_apart`); a port that is called `1` can get into the way of the result with that
number (`value_named_twice`).

A copy of a module has its private ports as well, whose names have never been compared.  They are never called like
other ports, which do not begin with an underscore (`names_nodup_iff`), nor like numbers, so two private inputs of one
name are the only further way in which names can meet (`Design.NamesValues.apart_iff`). -/

namespace Wirework

/-! ### Ports of definitions -/

/-- A specification that has the image of a module is that of its copy. -/
def DefinitionSpec.Genuine {ρ : Type} (spec : DefinitionSpec ρ) : Prop :=
  ∀ image, spec.image = some image → spec = Definition.importSpec image

namespace Definition

/-- The ports that are private. -/
def privatePorts (ports : List Port) : List Port :=
  ports.filter fun port => Name.isPrivate port.name

variable {ports : List Port} {port : Port}

theorem mem_privatePorts : port ∈ privatePorts ports ↔ port ∈ ports ∧ Name.isPrivate port.name = true :=
  List.mem_filter

theorem mem_publicPorts : port ∈ publicPorts ports ↔ port ∈ ports ∧ Name.isPrivate port.name = false := by
  unfold publicPorts
  rw [List.mem_filter, Bool.not_eq_true']

theorem names_nodup_iff : (ports.map (·.name)).Nodup ↔
    ((privatePorts ports).map (·.name)).Nodup ∧ ((publicPorts ports).map (·.name)).Nodup := by
  have hperm : ((privatePorts ports).map (·.name) ++ (publicPorts ports).map (·.name)).Perm
      (ports.map (·.name)) := by
    rw [← List.map_append]
    exact (List.filter_append_perm _ ports).map _
  have hdisjoint : ((privatePorts ports).map (·.name)).Disjoint ((publicPorts ports).map (·.name)) := by
    intro name hprivate hpublic
    obtain ⟨p, hp, rfl⟩ := List.mem_map.mp hprivate
    obtain ⟨q, hq, hname⟩ := List.mem_map.mp hpublic
    have hfalse := (mem_publicPorts.mp hq).2
    rw [hname, (mem_privatePorts.mp hp).2] at hfalse
    cases hfalse
  rw [← hperm.nodup_iff, List.nodup_append']
  exact ⟨fun h => ⟨h.1, h.2.1⟩, fun h => ⟨h.1, h.2, hdisjoint⟩⟩

section made

variable {ρ : Type} {spec : DefinitionSpec ρ} {original definition : Definition ρ}

theorem inputPorts_eq_publicPorts (genuine : spec.Genuine) (made : ofSpec spec = .ok original) :
    original.inputPorts = publicPorts original.moduleInputs := by
  have himage := (ofSpec_eq_ok made).2.2
  unfold moduleInputs
  rw [himage]
  cases hspec : spec.image with
  | none => exact (publicPorts_eq_self.mpr fun _ hport => isPrivate_of_mem_inputPorts made hport).symm
  | some image =>
      obtain rfl := genuine image hspec
      exact inputPorts_of_importSpec made

theorem publicPorts_moduleInputs_nodup (genuine : spec.Genuine) (made : ofSpec spec = .ok original)
    (alike : original.Alike definition) : ((publicPorts definition.moduleInputs).map (·.name)).Nodup := by
  obtain ⟨parameters, rfl⟩ := alike.exists_parameters
  have hnodup := (ofSpec_eq_ok made).1.inputPorts_nodup
  rwa [inputPorts_eq_publicPorts genuine made] at hnodup

theorem privatePorts_moduleInputs_eq_nil (made : ofSpec spec = .ok original) (alike : original.Alike definition)
    (native : definition.isImported = false) : privatePorts definition.moduleInputs = [] := by
  obtain ⟨parameters, rfl⟩ := alike.exists_parameters
  have himage : original.image = none := image_eq_none native
  refine List.filter_eq_nil_iff.mpr fun port hport => ?_
  rw [moduleInputs, himage] at hport
  rw [isPrivate_of_mem_inputPorts made hport]
  exact Bool.false_ne_true

end made

end Definition

theorem Design.NamesValues.apart_iff {d : Design} {m : HwModule} {body : Body} (h : d.NamesValues m body)
    (hpublic : ((Definition.publicPorts m.inputs).map (·.name)).Nodup) :
    d.NamesApart m body ↔ ((Definition.privatePorts m.inputs).map (·.name)).Nodup ∧
      ∀ port ∈ Definition.publicPorts m.inputs, ∀ v ∈ d.bodyResults body, port.name ≠ toString v.index := by
  rw [h.apart, Definition.names_nodup_iff, and_iff_left hpublic]
  refine and_congr_right fun _ => ?_
  constructor
  · exact fun unlike port hport => unlike port (Definition.mem_publicPorts.mp hport).1
  · intro unlike port hport v hv
    cases hprivate : Name.isPrivate port.name with
    | false => exact unlike port (Definition.mem_publicPorts.mpr ⟨hport, hprivate⟩) v hv
    | true => exact Name.ne_toString_of_isPrivate hprivate v.index

/-! ### Modules of a session -/

variable {σ : Type}

/-- How the text of a module that is made for the definition tells the values of its body apart. -/
structure World.TellsValues (definition : Definition (Routine σ Unit)) (m : HwModule) (body : Body) (w : World σ) :
    Prop where
  names : w.session.design.NamesValues m body
  /-- Only a copy of a module has private inputs. -/
  native : definition.isImported = false → Definition.privatePorts m.inputs = []
  /-- Two values have one name just if two private inputs have one name, or another input is called like the number
  of a result. -/
  apart : w.session.design.NamesApart m body ↔ ((Definition.privatePorts m.inputs).map (·.name)).Nodup ∧
    ∀ port ∈ Definition.publicPorts m.inputs, ∀ v ∈ w.session.design.bodyResults body,
      port.name ≠ toString v.index
  /-- Valid names are never in the way. -/
  valid : Definition.privatePorts m.inputs = [] → (∀ port ∈ m.inputs, Name.isValid port.name = true) →
    w.session.design.NamesApart m body

theorem World.Becomes.inputs_eq {config : Config} {workspace : Workspace σ} {w : World σ}
    (h : World.Becomes ⟨workspace, .ofConfig config⟩ w) {d : DefId} {definition : Definition (Routine σ Unit)}
    (hd : w.workspace.library.getDefinition d = .ok definition) {id : ModuleId} {m : HwModule}
    (hid : w.session.moduleOf? d = some id) (hm : w.session.design.module? id = some m) :
    m.inputs = definition.moduleInputs := by
  have hsuited := h.suited (World.regular_start workspace config) (Session.suited_ofConfig config _)
  obtain ⟨header, hheader, definition', hd', hsuits⟩ := hsuited d id (mem_of_lookup hid)
  obtain rfl := Except.ok.inj (hd.symm.trans hd')
  obtain ⟨m', hm', rfl⟩ := Design.header?_eq_some_iff.mp hheader
  obtain rfl := Option.some.inj (hm.symm.trans hm')
  exact hsuits.inputs

/-- **Values are told apart by their names, unless a port is called like a result.**  However a session has gone on:
the text of a module that is made for a definition calls its block arguments like the ports and numbers the results
of its operations.  Two different values have one name just if an input port is spelled like the number of a result
in the body, or if the module is a copy of another with two private inputs of one name; so names are apart if the
inputs are not private and have valid names. -/
theorem value_names_apart {config : Config} {workspace : Workspace σ} {w : World σ}
    (h : World.Becomes ⟨workspace, .ofConfig config⟩ w) {d : DefId}
    {spec : DefinitionSpec (Routine σ Unit)} {original definition : Definition (Routine σ Unit)}
    (genuine : spec.Genuine) (made : Definition.ofSpec spec = .ok original) (alike : original.Alike definition)
    (hd : w.workspace.library.getDefinition d = .ok definition) {id : ModuleId} {m : HwModule} {body : Body}
    (hid : w.session.moduleOf? d = some id) (hm : w.session.design.module? id = some m)
    (begun : m.body? = some body) : w.TellsValues definition m body := by
  have hinputs := h.inputs_eq hd hid hm
  have hnames := h.linked.namesValues hm begun
  have hpublic := Definition.publicPorts_moduleInputs_nodup genuine made alike
  rw [← hinputs] at hpublic
  have hapart := hnames.apart_iff hpublic
  constructor
  case names => exact hnames
  case native =>
    intro native
    rw [hinputs]
    exact Definition.privatePorts_moduleInputs_eq_nil made alike native
  case apart => exact hapart
  case valid =>
    intro hnone hvalid
    refine hapart.mpr ⟨?_, fun port hport v _ => ?_⟩
    · rw [hnone]
      exact List.nodup_nil
    · exact Name.ne_toString_of_isValid (hvalid port (Definition.mem_publicPorts.mp hport).1) v.index

/-! ### A module that adds its input to itself -/

namespace Sample

/-- A module that adds an input of the given name to itself. -/
def twiceSpec (port : String) : DefinitionSpec (Routine Unit Unit) where
  name := "Twice"
  declarations := [
    (port, .plainInput (.uint 8)),
    ("y", .output (.uint 8)),
    ("build", .generator (do
      let x ← Routine.input port
      Routine.set "y" (.signal (← Routine.add x x))) .unknown)]

/-- The world before the module has been made. -/
def beforeTwice (port : String) : World Unit :=
  ⟨((Supply.define (twiceSpec port)).apply ⟨{}, ()⟩).2, .ofConfig {}⟩

/-- The world in which the module has been made. -/
def twice (port : String) : World Unit :=
  ((Build.materialize ⟨0⟩).apply (beforeTwice port)).2

theorem becomes_twice (port : String) :
    World.Becomes ⟨(beforeTwice port).workspace, .ofConfig {}⟩ (twice port) :=
  .single (.make .materialize)

/-- The lines in the body of the module. -/
def twiceLines (port : String) : Option String :=
  let d := (twice port).session.design
  (d.module? ⟨0⟩).bind fun m => m.body?.bind fun body => (d.bodyText m body).toOption

end Sample

/-- An input with a valid name is told from the sum. -/
theorem value_names_apart_twice :
    (∃ definition m body, (Sample.twice "a").session.design.module? ⟨0⟩ = some m ∧ m.body? = some body ∧
      (Sample.twice "a").TellsValues definition m body ∧ (Sample.twice "a").session.design.NamesApart m body) ∧
      Sample.twiceLines "a" = some "  %1 = comb.add %a, %a\n  hw.output %1\n" := by
  have hports : ((Sample.twice "a").session.design.module? ⟨0⟩).map (·.inputs) = some [⟨"a", .uint 8⟩] := by
    decide +kernel
  have hbody : ((Sample.twice "a").session.design.module? ⟨0⟩).bind (·.body?) =
      some { arguments := [⟨0⟩], ops := #[⟨0⟩, ⟨1⟩], terminated := true } := by decide +kernel
  obtain ⟨m, hm, hbody⟩ := Option.bind_eq_some_iff.mp hbody
  rw [hm] at hports
  have hinputs : m.inputs = [⟨"a", .uint 8⟩] := Option.some.inj hports
  obtain ⟨original, definition, made, alike, hd⟩ := Supply.exists_defined (d := ⟨0⟩)
    (by decide +kernel) ((Sample.becomes_twice "a").library (World.regular_start _ _))
  have htells := value_names_apart (Sample.becomes_twice "a") (by rintro image ⟨⟩) made alike hd
    (by decide +kernel) hm hbody
  refine ⟨⟨definition, m, _, hm, hbody, htells, htells.valid ?_ ?_⟩, by decide +kernel⟩
  · rw [hinputs]
    decide
  · rw [hinputs]
    decide

/-- An input that is called `1` is accepted, and has the name of the sum in the text of the module. -/
theorem value_named_twice :
    ((Supply.define (Sample.twiceSpec "1")).apply ⟨{}, ()⟩).1 = .ok ⟨0⟩ ∧
      World.Becomes ⟨(Sample.beforeTwice "1").workspace, .ofConfig {}⟩ (Sample.twice "1") ∧
      (Sample.twice "1").session.moduleOf? ⟨0⟩ = some ⟨0⟩ ∧
      (∃ m body, (Sample.twice "1").session.design.module? ⟨0⟩ = some m ∧ m.body? = some body ∧
        ¬ (Sample.twice "1").session.design.NamesApart m body) ∧
      Sample.twiceLines "1" = some "  %1 = comb.add %1, %1\n  hw.output %1\n" := by
  refine ⟨by decide +kernel, Sample.becomes_twice "1", by decide +kernel, ?_, by decide +kernel⟩
  have hbody : ((Sample.twice "1").session.design.module? ⟨0⟩).bind (·.body?) =
      some { arguments := [⟨0⟩], ops := #[⟨0⟩, ⟨1⟩], terminated := true } := by decide +kernel
  have hargument : ((Sample.twice "1").session.design.module? ⟨0⟩).map
      ((Sample.twice "1").session.design.valueName · ⟨0⟩) = some "%1" := by decide +kernel
  have hresult : ((Sample.twice "1").session.design.module? ⟨0⟩).map
      ((Sample.twice "1").session.design.valueName · ⟨1⟩) = some "%1" := by decide +kernel
  have hvalues : (Sample.twice "1").session.design.bodyValues
      { arguments := [⟨0⟩], ops := #[⟨0⟩, ⟨1⟩], terminated := true } = [⟨0⟩, ⟨1⟩] := by decide +kernel
  obtain ⟨m, hm, hbody⟩ := Option.bind_eq_some_iff.mp hbody
  rw [hm] at hargument hresult
  refine ⟨m, _, hm, hbody, fun apart => ?_⟩
  unfold Design.NamesApart at apart
  rw [hvalues] at apart
  have hsame := apart ⟨0⟩ List.mem_cons_self ⟨1⟩ (List.mem_cons_of_mem _ List.mem_cons_self)
    ((Option.some.inj hargument).trans (Option.some.inj hresult).symm)
  cases hsame

end Wirework
