import Wirework.Proofs.Engine.Working

/-! # Placing instances

An instance that has been placed is realized by an operation of the module made for its definition
(`Design.Realizes`).  The operands of the operation stand for the connections of the input ports in turn, and operands
and results agree with the ports of the module in number and in type (`Build.placeInstance_leads`).

Connections that are accepted name every port once and nothing else, and are listed in the order of the ports
(`Definition.bindInputs_eq_ok`).  Each then leads to a value of the type of its port, and the instance is put at the
insertion point with these values (`Stands`).  It has a result for each output port, as the results are those of the
callee; that the operands fit is what its check is for (`Stands.realizes`). -/

namespace Wirework

/-! ### Connections -/

/-- The value stands for the connection: it is that of the signal, if the connection is one. -/
def Connection.Feeds (connection : Connection) (v : ValueId) : Prop :=
  ∀ s, connection = .signal s → v = s.value

/-- The connection suits the port. -/
def Connection.Accepted (port : PortSpec) (connection : Connection) : Prop :=
  ∃ name, connection.check name port = .ok ⟨⟩

theorem Connection.Accepted.type_eq {port : PortSpec} {s : Signal}
    (h : (signal s).Accepted port) : s.type = port.type := by
  obtain ⟨name, hcheck⟩ := h
  by_contra hne
  simp [check, hne] at hcheck

theorem Connection.Accepted.fits {port : PortSpec} {value : Int} (h : (literal value).Accepted port) :
    port.type.Fits value := by
  obtain ⟨name, hcheck⟩ := h
  by_contra hnot
  simp [check, hnot] at hcheck

namespace Definition

variable {ρ : Type} {d : Definition ρ}

theorem firstRepeated_eq_none {seen names : List String} (h : firstRepeated seen names = none) :
    names.Nodup ∧ ∀ name ∈ names, name ∉ seen := by
  induction names generalizing seen with
  | nil => exact ⟨List.nodup_nil, fun name hname => absurd hname List.not_mem_nil⟩
  | cons name names ih =>
      unfold firstRepeated at h
      by_cases hseen : name ∈ seen
      · rw [if_pos hseen] at h
        cases h
      · rw [if_neg hseen] at h
        obtain ⟨hnodup, hnot⟩ := ih h
        refine ⟨List.nodup_cons.mpr ⟨fun hname => hnot name hname List.mem_cons_self, hnodup⟩, ?_⟩
        refine List.forall_mem_cons.mpr ⟨hseen, fun other hother hmem => ?_⟩
        exact hnot other hother (List.mem_cons_of_mem name hmem)

/-- Connections that are accepted have passed each of the checks in turn. -/
theorem bindInputs_eq_ok_iff {bindings : List (String × Connection)}
    {connections : List (PortSpec × Connection)} : d.bindInputs bindings = .ok connections ↔
      firstRepeated [] (bindings.map (·.1)) = none ∧
      ((bindings.map (·.1)).find? fun name => (d.input? name).isNone) = none ∧
      (∀ binding ∈ bindings, d.checkBinding binding.1 binding.2 = .ok ⟨⟩) ∧
      d.unboundInputs bindings = [] ∧
      connections = d.inputs.filterMap fun port =>
        (bindings.lookup port.name).map fun connection => (port, connection) := by
  unfold bindInputs
  cases hrepeated : firstRepeated [] (bindings.map (·.1)) with
  | some name => exact ⟨fun h => (by simp only [hrepeated] at h; cases h), fun h => (by cases h.1)⟩
  | none =>
      cases hunknown : (bindings.map (·.1)).find? fun name => (d.input? name).isNone with
      | some name =>
          exact ⟨fun h => (by simp only [hrepeated, hunknown] at h; cases h), fun h => (by cases h.2.1)⟩
      | none =>
          simp only [hrepeated, hunknown, bind_eq_ok_iff, true_and]
          constructor
          · rintro ⟨⟨⟩, hchecked, h⟩
            by_cases hunbound : (d.unboundInputs bindings).isEmpty = true
            · rw [if_pos hunbound] at h
              exact ⟨forM_eq_ok_iff.mp hchecked, List.isEmpty_iff.mp hunbound, (pure_eq_ok_iff.mp h).symm⟩
            · rw [if_neg hunbound] at h
              cases h
          · rintro ⟨hchecked, hunbound, rfl⟩
            refine ⟨⟨⟩, forM_eq_ok_iff.mpr hchecked, ?_⟩
            rw [if_pos (List.isEmpty_iff.mpr hunbound)]
            rfl

/-- Connections that are accepted name every port once and nothing else, and are listed in the order of the
ports. -/
theorem bindInputs_eq_ok {bindings : List (String × Connection)}
    {connections : List (PortSpec × Connection)} (h : d.bindInputs bindings = .ok connections) :
    (bindings.map (·.1)).Nodup ∧ (∀ name ∈ bindings.map (·.1), (d.input? name).isSome = true) ∧
      List.Forall₂ (fun port entry => entry.1 = port ∧ (port.name, entry.2) ∈ bindings) d.inputs
        connections := by
  obtain ⟨hrepeated, hunknown, _, hunbound, rfl⟩ := bindInputs_eq_ok_iff.mp h
  have hknown : ∀ name ∈ bindings.map (·.1), (d.input? name).isSome = true := by
    simpa [List.find?_eq_none, Option.isSome_iff_ne_none] using hunknown
  refine ⟨(firstRepeated_eq_none hrepeated).1, hknown, forall₂_filterMap fun port hport => ?_⟩
  cases hlookup : bindings.lookup port.name with
  | some connection => exact ⟨(port, connection), rfl, rfl, mem_of_lookup hlookup⟩
  | none =>
      have hmem : port.name ∈ d.unboundInputs bindings :=
        List.mem_filter.mpr ⟨List.mem_map_of_mem hport, by rw [hlookup]; rfl⟩
      rw [hunbound] at hmem
      exact absurd hmem List.not_mem_nil

theorem accepted_of_bindInputs (hd : d.Scanned) {bindings : List (String × Connection)}
    {connections : List (PortSpec × Connection)} (h : d.bindInputs bindings = .ok connections)
    {entry : PortSpec × Connection} (hentry : entry ∈ connections) :
    entry.2.Accepted entry.1 := by
  obtain ⟨_, _, hchecked, _⟩ := bindInputs_eq_ok_iff.mp h
  obtain ⟨_, _, hconnections⟩ := bindInputs_eq_ok h
  obtain ⟨port, hport, hentry, hbound⟩ := exists_of_mem_right hconnections hentry
  have hcheck := hchecked _ hbound
  unfold checkBinding at hcheck
  simp only [hd.input?_eq_some_iff.mpr ⟨hport, rfl⟩] at hcheck
  by_cases habsent : entry.2 = .absent ∧ d.generator?.isSome = true
  · rw [if_pos habsent] at hcheck
    cases hcheck
  · rw [if_neg habsent] at hcheck
    exact ⟨d.name, hentry ▸ hcheck⟩

end Definition

/-! ### Instances at the insertion point -/

/-- The design has an operation for the instance, which is one of the module and has the given inputs; inputs
and results have the types of the ports. -/
structure Design.Realizes (d : Design) (placed : Instance) (module : ModuleId)
    (inputs : List ValueId) : Prop where
  op : ∃ op parameters, d.op? placed.op = some op ∧
    op.operation = .instantiate module placed.name inputs parameters ∧
    op.results = placed.results.map (·.value)
  callee : ∃ callee, d.module? module = some callee ∧
    List.Forall₂ (fun port v => d.typeOf? v = some port.type) callee.inputs inputs ∧
    placed.results.map (·.type) = callee.outputs.map (·.type)

namespace Session

/-- An instance with the given inputs stands at the insertion point, with a result for each output port of its
module. -/
structure Stands (s : Session) (module : ModuleId) (name : String) (inputs : List ValueId)
    (id : OpId) : Prop where
  stands : ∃ parent op m body parameters,
    s.here? = some parent ∧ s.design.op? id = some op ∧ op.parent = parent ∧
      op.operation = .instantiate module name inputs parameters ∧
      s.design.module? parent = some m ∧ m.body? = some body ∧ id ∈ body.ops
  yields : ∃ callee, s.design.header? module = some callee ∧
    s.design.Yields id (callee.outputs.map (·.type))

theorem Stands.op {s : Session} {module : ModuleId} {name : String} {inputs : List ValueId}
    {id : OpId} (h : s.Stands module name inputs id) :
    ∃ op parameters, s.design.op? id = some op ∧
      op.operation = .instantiate module name inputs parameters := by
  obtain ⟨_, op, _, _, parameters, _, hop, _, hoperation, _⟩ := h.stands
  exact ⟨op, parameters, hop, hoperation⟩

/-- An instance that stands at the insertion point and has passed the check. -/
theorem Stands.realizes {s : Session} {module : ModuleId} {inputs : List ValueId} {placed : Instance}
    (h : s.Stands module placed.name inputs placed.op) {parameters : AttributeMap}
    (hfits : s.design.Fits (.instantiate module placed.name inputs parameters))
    (hresults : s.design.results placed.op = .ok placed.results) :
    s.design.Realizes placed module inputs := by
  obtain ⟨op, parameters, hop, hoperation⟩ := h.op
  obtain ⟨_, callee, hcallee, hinputs⟩ := hfits
  obtain ⟨header, hheader, op₁, hop₁, htypes⟩ := h.yields
  obtain ⟨op₂, hop₂, hsignals⟩ := Design.results_eq_ok_iff.mp hresults
  rw [hop] at hop₁ hop₂
  obtain rfl := Option.some.inj hop₁
  obtain rfl := Option.some.inj hop₂
  have houtputs : header.outputs = callee.outputs := by
    obtain ⟨m, hm, rfl⟩ := Design.header?_eq_some_iff.mp hheader
    obtain rfl := Option.some.inj (hm.symm.trans hcallee)
    rfl
  refine ⟨⟨op, parameters, hop, hoperation, ?_⟩, callee, hcallee, hinputs, ?_⟩
  · exact eq_map_of_forall₂ (hsignals.imp fun _ _ h => h.2)
  · rw [← houtputs, eq_comm]
    exact eq_map_of_forall₂ (forall₂_comp
      (fun _ _ _ htype hsignal => Option.some.inj (htype.symm.trans hsignal.1)) htypes hsignals)

end Session

namespace Build

open Step

variable {σ : Type}

/-! ### The steps of placing -/

theorem inputValue_leads (port : PortSpec) (connection : Connection) (d : Design) :
    (inputValue port connection).Leads Design.Grows (fun v _ => connection.Feeds v) d := by
  cases connection with
  | signal s =>
      refine (leads_pure s.value d).mono (fun _ h => h) fun v _ _ hv s' hs' => ?_
      rw [hv.2, Connection.signal.inj hs']
  | literal value =>
      refine (Edit.constant_leads port.type value d).bind fun s d' _ _ => ?_
      exact (leads_pure s.value d').mono (fun _ h => h) fun _ _ _ _ s' hs' => by cases hs'
  | absent =>
      refine (Edit.zero_leads port.type d).bind fun s d' _ _ => ?_
      exact (leads_pure s.value d').mono (fun _ h => h) fun _ _ _ _ s' hs' => by cases hs'

theorem uniquifyInstanceName_apply (name : String) {w : World σ} {block : NameScope}
    {outer : List NameScope} (h : w.session.blocks = block :: outer) :
    (compile (Compile.uniquifyInstanceName name)).apply w =
      (.ok (block.uniquify name).1, { w with session := { w.session with
        blocks := (block.uniquify name).2 :: outer } }) := by
  unfold compile Compile.uniquifyInstanceName
  simp only [apply_zoom, apply_bind, apply_get, h, apply_set, apply_pure]

theorem uniquifyInstanceName_leads (name : String) (w : World σ) :
    (compile (Compile.uniquifyInstanceName name)).Leads World.Works
      (fun _ w' => SameMade w.session w'.session) w := by
  cases hblocks : w.session.blocks with
  | nil =>
      refine leads_of_refused (e := .noActiveScope) ?_ _
      unfold compile Compile.uniquifyInstanceName
      simp only [apply_zoom, apply_bind, apply_get, hblocks, apply_throw]
  | cons block outer =>
      exact leads_of_apply (uniquifyInstanceName_apply name hblocks)
        (World.works_of_edits (.name hblocks)) fun _ _ => ⟨rfl, rfl⟩

theorem instantiate_leads {module : ModuleId} (name : String) (inputs : List ValueId)
    (parameters : AttributeMap) (location : Location) {w : World σ} (hmade : w.session.Made module) :
    (edit (Edit.instantiate module name inputs parameters location)).Leads World.Works
      (fun op w' => SameMade w.session w'.session ∧ w'.session.Stands module name inputs op) w := by
  rcases Edit.instantiate_cases module name inputs parameters location w.session.design with
    ⟨e, he⟩ | ⟨callee, parent, d', hcallee, here, happ, hyields, hok⟩
  · exact leads_of_refused (edit_apply_error he) _
  · obtain ⟨m, body, _, _, _, hm'⟩ := happ.module?_self
    obtain ⟨op, hop, hparent, hoperation⟩ := happ.op?_new
    refine leads_of_apply (edit_apply_ok hok) (World.works_of_edits (.append here happ rfl ?_ trivial))
      fun id hid => ?_
    · intro c hc
      obtain rfl := Option.some.inj hc
      exact hmade
    · obtain rfl := Except.ok.inj hid
      have hheader : d'.header? module = some callee.header :=
        (happ.header?_eq module).trans (Design.header?_eq_some_iff.mpr ⟨callee, hcallee, rfl⟩)
      refine ⟨⟨rfl, rfl⟩, ⟨parent, op, _, _, parameters, ?_, hop, hparent, hoperation, hm', rfl,
        Array.mem_push_self⟩, callee.header, hheader, hyields⟩
      exact (congrArg Scopes.insertionPoint? happ.scopes_eq).trans here

/-- Setting an attribute of an instance neither moves it nor touches what it refers to. -/
theorem setAttribute_leads {module : ModuleId} {instanceName : String} {inputs : List ValueId}
    {id : OpId} (name : String) (value : Attribute) {w : World σ}
    (hstands : w.session.Stands module instanceName inputs id)
    {operation : Operation ModuleId ValueId} (hfits : w.session.design.Fits operation) :
    (edit (Edit.setAttribute id name value)).Leads World.Works
      (fun _ w' => SameMade w.session w'.session ∧ w'.session.Stands module instanceName inputs id ∧
        w'.session.design.Fits operation) w := by
  obtain ⟨⟨parent, found, m, body, parameters, here, hfound, hown, hoperation, hrest⟩, callee,
    hcallee, op, hop, htypes⟩ := hstands
  rw [hfound] at hop
  obtain rfl := Option.some.inj hop
  rcases Edit.setAttribute_cases id name value w.session.design with ⟨e, he⟩ | ⟨found', hop, hok⟩
  · exact leads_of_refused (edit_apply_error he) _
  · rw [hfound] at hop
    obtain rfl := Option.some.inj hop
    let attributes := found.attributes.insert name value
    have hop' : (w.session.design.annotate id found attributes).op? id =
        some { found with attributes } := by
      rw [Design.op?_annotate hfound, if_pos rfl]
    have hfits' : (w.session.design.annotate id found attributes).Fits operation := by
      cases operation <;> exact hfits
    exact leads_of_apply (edit_apply_ok hok)
      (World.works_of_edits (.annotate here hfound hown attributes))
      fun _ _ => ⟨⟨rfl, rfl⟩, ⟨⟨parent, { found with attributes }, m, body, parameters, here, hop',
        hown, hoperation, hrest⟩, callee, hcallee, _, hop', htypes⟩, hfits'⟩

theorem registerInstance_leads {module : ModuleId} {name : String} {inputs : List ValueId}
    {op : OpId} {w : World σ} (hmade : w.session.Made module)
    (hstands : w.session.Stands module name inputs op) :
    (compile (Compile.registerInstance name module op)).Leads World.Works
      (fun _ w' => SameMade w.session w'.session ∧ w'.session.design = w.session.design) w := by
  obtain ⟨parent, found, m, body, parameters, here, hfound, hown, hoperation, hm, hbody, hmem⟩ :=
    hstands.stands
  have hpoint : w.session.design.scopes.insertionPoint? = some parent := here
  have happly : (compile (Compile.registerInstance name module op)).apply w =
      (.ok ⟨w.session.instances.length⟩, { w with session := { w.session with
        instances := w.session.instances ++
          [⟨⟨w.session.instances.length⟩, name, module, parent, op⟩] } }) := by
    unfold compile Compile.registerInstance
    simp only [apply_zoom, apply_bind, apply_get, hpoint, apply_set, apply_pure]
  refine leads_of_apply happly (World.works_of_edits ?_) fun _ _ => ⟨⟨rfl, rfl⟩, rfl⟩
  exact .register here hfound hown ⟨inputs, parameters, hoperation⟩ hm hbody hmem hmade rfl

/-! ### Placing -/

section place

variable {materialize : Materializer σ} {request : InstanceRequest}

/-- Reading the results of an instance and registering it, once it stands and has passed the check. -/
theorem record_leads {module : ModuleId} {name : String} {inputs : List ValueId} {op : OpId}
    {parameters : AttributeMap} {w : World σ} (hmade : w.session.MadeFor request.definition module)
    (hstands : w.session.Stands module name inputs op)
    (hfits : w.session.design.Fits (.instantiate module name inputs parameters)) :
    (do
      let results ← edit (query (·.results op))
      let id ← compile (Compile.registerInstance name module op)
      return { id, name, definition := request.definition, op, results } :
      Build σ Instance).Leads World.Works
        (fun placed w' => placed.definition = request.definition ∧
          w'.session.MadeFor request.definition module ∧
          w'.session.design.Realizes placed module inputs) w := by
  refine Leads.bind (leads_edit_query _ w) fun results w' _ hread => ?_
  obtain ⟨rfl, hresults⟩ := hread
  refine (registerInstance_leads hmade.made hstands).bind fun id w'' _ hregistered => ?_
  obtain ⟨hsame, hdesign⟩ := hregistered
  refine (leads_pure _ w'').mono (fun _ h => h) fun placed w₃ _ hplaced => ?_
  obtain ⟨rfl, rfl⟩ := hplaced
  refine ⟨rfl, hsame.madeFor hmade, ?_⟩
  rw [hdesign]
  exact hstands.realizes hfits hresults

/-- The instance that the request has led to in the world `w'` is realized by the module made for its
definition, with the inputs that the connections stand for. -/
def Places (request : InstanceRequest) (w : World σ) (placed : Instance) (w' : World σ) : Prop :=
  placed.definition = request.definition ∧ ∃ definition connections module inputs,
    w.workspace.library.getDefinition request.definition = .ok definition ∧
      definition.bindInputs request.bindings = .ok connections ∧
      w'.session.MadeFor request.definition module ∧
      List.Forall₂ (fun entry v => entry.2.Feeds v) connections inputs ∧
      w'.session.design.Realizes placed module inputs

theorem placeInstance_leads (hm : materialize.Sound) (request : InstanceRequest) {w : World σ}
    (hw : w.session.Coherent) :
    (placeInstance materialize request).Leads World.Works (Places request w) w := by
  unfold placeInstance
  refine (definition_leads request.definition w).bind fun definition w₁ h₁ hread => ?_
  obtain ⟨rfl, hdefinition⟩ := hread
  refine (leads_get w₁).bind fun w₂ w₃ h₃ hread => ?_
  obtain ⟨rfl, rfl⟩ := hread
  refine Leads.guard fun _ => ?_
  refine (leads_ofOutcome _ w₂).bind fun connections w₃ h₃ hread => ?_
  obtain ⟨rfl, hconnections⟩ := hread
  refine (materialize_leads hm request.definition hw).bind fun module w₄ _ hmade => ?_
  refine (uniquifyInstanceName_leads _ w₄).bind fun name w₅ _ hsame₅ => ?_
  have hinputs := edit_leads (w := w₅) (leads_mapM
    (fun (entry : PortSpec × Connection) d => inputValue_leads entry.1 entry.2 d) connections _)
  refine hinputs.bind fun inputs w₆ _ hfed => ?_
  obtain ⟨hsame₆, hfed⟩ := hfed
  refine (definition_leads request.definition w₆).bind fun d' w₇ _ hread => ?_
  obtain ⟨rfl, -⟩ := hread
  have hmade₇ := hsame₆.madeFor (hsame₅.madeFor hmade)
  refine (instantiate_leads name inputs d'.instanceParameters request.location hmade₇.made).bind
    fun op w₈ _ hplaced => ?_
  obtain ⟨hsame₈, hstands⟩ := hplaced
  have hmade₈ := hsame₈.madeFor hmade₇
  refine Leads.bind (leads_edit_query _ w₈) fun _ w₉ _ hread => ?_
  obtain ⟨rfl, hverify⟩ := hread
  obtain ⟨found, parameters, hfound, hoperation⟩ := hstands.op
  have hfits := ((Design.verify_eq_ok_iff hfound).mp hverify).2
  rw [hoperation] at hfits
  have hplaces : ∀ (placed : Instance) (w' : World σ), placed.definition = request.definition ∧
      w'.session.MadeFor request.definition module ∧
      w'.session.design.Realizes placed module inputs → Places request w₃ placed w' :=
    fun placed w' h => ⟨h.1, definition, connections, module, inputs, hdefinition, hconnections,
      h.2.1, hfed, h.2.2⟩
  -- What follows the attribute is the same whether or not there is one.
  cases request.appId with
  | none =>
      exact (record_leads hmade₈ hstands hfits).mono (fun _ h => h) fun placed w' _ =>
        hplaces placed w'
  | some appId =>
      refine (setAttribute_leads "appid" appId.toAttribute hstands hfits).bind
        fun _ w₁₀ _ hset => ?_
      obtain ⟨hsame₁₀, hstands₁₀, hfits₁₀⟩ := hset
      exact (record_leads (hsame₁₀.madeFor hmade₈) hstands₁₀ hfits₁₀).mono (fun _ h => h)
        fun placed w' _ => hplaces placed w'

end place

end Build

end Wirework
