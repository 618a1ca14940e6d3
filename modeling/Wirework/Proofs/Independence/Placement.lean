import Wirework.Proofs.Independence.Ports

/-! # Instances placed abreast

Two routines that build bodies abreast place instances of one definition, with connections that stand for each other.
Either both instances are rejected or both are placed, and then their results stand for each other
(`Build.placeInstance_lockstep`).

Whether the connections are accepted does not depend on which signals they have (`bindInputs_agree`), and whether the
instance passes its check only on their types (`fits_iff`).  In between each side makes the module of the definition
if it has none yet; the other side may have made it long before.  That making it leaves the two bodies abreast is what
steady ways of making modules are for (`Build.materialize_lockstep`). -/

namespace Wirework

open Step

variable {σ : Type}

/-! ### Requests -/

/-- The bindings are the same, up to signals that stand for each other. -/
abbrev MatchingBindings (k : List (ValueId × ValueId)) (as bs : List (String × Connection)) : Prop :=
  List.Forall₂ (fun a b => a.1 = b.1 ∧ a.2.Matches k b.2) as bs

/-- The requests are the same, up to signals that stand for each other. -/
structure InstanceRequest.Matches (k : List (ValueId × ValueId)) (a b : InstanceRequest) : Prop where
  definition : a.definition = b.definition
  bindings : MatchingBindings k a.bindings b.bindings
  name : a.name = b.name
  appId : a.appId = b.appId
  location : a.location = b.location

theorem InstanceRequest.Matches.mono {k k' : List (ValueId × ValueId)} {a b : InstanceRequest}
    (h : a.Matches k b) (hk : k <+: k') : a.Matches k' b :=
  { h with bindings := h.bindings.imp fun _ _ hab => ⟨hab.1, hab.2.mono hk⟩ }

/-- The instances are of one planned definition, and their results stand for each other. -/
structure Instance.Matches (g : Setting σ) (k : List (ValueId × ValueId)) (a b : Instance) : Prop where
  definition : a.definition = b.definition
  planned : g.planned a.definition
  results : List.Forall₂ (Signal.Matches k) a.results b.results

theorem Instance.Matches.mono {g : Setting σ} {k k' : List (ValueId × ValueId)} {a b : Instance}
    (h : a.Matches g k b) (hk : k <+: k') : a.Matches g k' b :=
  { h with results := h.results.imp fun _ _ => Signal.Matches.mono hk }

namespace MatchingBindings

variable {k : List (ValueId × ValueId)} {as bs : List (String × Connection)}

theorem names_eq (h : MatchingBindings k as bs) : as.map (·.1) = bs.map (·.1) := by
  induction h with
  | nil => rfl
  | cons hab _ ih => rw [List.map_cons, List.map_cons, hab.1, ih]

theorem lookup (h : MatchingBindings k as bs) (name : String) :
    Option.Rel (Connection.Matches k) (as.lookup name) (bs.lookup name) := by
  induction h with
  | nil => exact .none
  | @cons a b as bs hab _ ih =>
      rw [List.lookup_cons, List.lookup_cons, hab.1]
      cases name == b.1
      · exact ih
      · exact .some hab.2

end MatchingBindings

namespace Definition

variable {ρ : Type} (d : Definition ρ) {k : List (ValueId × ValueId)} {as bs : List (String × Connection)}

theorem checkBindings_iff (h : MatchingBindings k as bs) :
    (∀ a ∈ as, d.checkBinding a.1 a.2 = .ok ⟨⟩) ↔ ∀ b ∈ bs, d.checkBinding b.1 b.2 = .ok ⟨⟩ := by
  induction h with
  | nil => exact Iff.rfl
  | @cons a b as bs hab _ ih =>
      have hcheck : d.checkBinding a.1 a.2 = d.checkBinding b.1 b.2 := by
        unfold checkBinding
        rw [hab.1]
        cases d.input? b.1 with
        | none => rfl
        | some port => simp only [hab.2.absent_iff, hab.2.check_eq]
      rw [List.forall_mem_cons, List.forall_mem_cons, ih, hcheck]

theorem unboundInputs_eq (h : MatchingBindings k as bs) : d.unboundInputs as = d.unboundInputs bs := by
  unfold unboundInputs
  refine List.filter_congr fun name _ => ?_
  have hlookup := h.lookup name
  generalize as.lookup name = a at hlookup ⊢
  generalize bs.lookup name = b at hlookup ⊢
  cases hlookup <;> rfl

theorem boundInputs_matching (h : MatchingBindings k as bs) :
    List.Forall₂ (fun a b => a.1 = b.1 ∧ a.2.Matches k b.2)
      (d.inputs.filterMap fun port => (as.lookup port.name).map fun connection => (port, connection))
      (d.inputs.filterMap fun port => (bs.lookup port.name).map fun connection => (port, connection)) := by
  refine List.rel_filterMap (R := (· = ·)) (fun port port' heq => ?_) (List.forall₂_refl d.inputs)
  subst heq
  have hlookup := h.lookup port.name
  generalize as.lookup port.name = a at hlookup ⊢
  generalize bs.lookup port.name = b at hlookup ⊢
  cases hlookup with
  | none => exact .none
  | some hab => exact .some ⟨rfl, hab⟩

/-- Whether bindings are accepted does not depend on which signals they have. -/
theorem bindInputs_agree (h : MatchingBindings k as bs) :
    Agree (List.Forall₂ fun a b => a.1 = b.1 ∧ a.2.Matches k b.2) (d.bindInputs as) (d.bindInputs bs) := by
  have hiff : (d.bindInputs as = .ok (d.inputs.filterMap fun port =>
        (as.lookup port.name).map fun connection => (port, connection))) ↔
      d.bindInputs bs = .ok (d.inputs.filterMap fun port =>
        (bs.lookup port.name).map fun connection => (port, connection)) := by
    rw [bindInputs_eq_ok_iff, bindInputs_eq_ok_iff, h.names_eq, d.checkBindings_iff h, d.unboundInputs_eq h]
    simp only [and_true]
  cases has : d.bindInputs as with
  | ok cs =>
      obtain ⟨_, _, _, _, rfl⟩ := bindInputs_eq_ok_iff.mp has
      rw [hiff.mp has]
      exact .ok (d.boundInputs_matching h)
  | error e =>
      cases hbs : d.bindInputs bs with
      | error e' => exact .error e e'
      | ok cs =>
          obtain ⟨_, _, _, _, rfl⟩ := bindInputs_eq_ok_iff.mp hbs
          cases has.symm.trans (hiff.mpr hbs)

end Definition

theorem World.Ready.exists_ports {g : Setting σ} {bound : Nat} {w : World σ} (h : w.Ready g bound) {c : DefId}
    {callee : Definition (Routine σ Unit)} (hc : g.planned c) (hcallee : g.library.getDefinition c = .ok callee)
    {id : ModuleId} (made : w.session.MadeFor c id) :
    ∃ m, w.session.design.module? id = some m ∧ m.inputs = callee.inputPorts ∧
      m.outputs = callee.outputPorts := by
  obtain ⟨_, _, m, hm, hheader, _⟩ := h.standard c callee id hc hcallee made
  have hinputs : m.header.inputs = (Compile.plainModule callee m.symbol).header.inputs :=
    congrArg HwModule.inputs hheader
  have houtputs : m.header.outputs = (Compile.plainModule callee m.symbol).header.outputs :=
    congrArg HwModule.outputs hheader
  exact ⟨m, hm, hinputs.trans (Compile.plainModule_inputs _ _),
    houtputs.trans (Compile.plainModule_outputs _ _)⟩

namespace Build

variable {g : Setting σ} {definition : Definition (Routine σ Unit)} {f₁ f₂ : Frame}
  {k : List (ValueId × ValueId)} {w₁ w₂ : World σ} {c : DefId}

/-! ### The steps of placing -/

theorem definition_lockstep (h : World.Abreast g definition f₁ f₂ k w₁ w₂) (hc : g.planned c) :
    Lockstep (World.Abreast g definition f₁ f₂)
      (fun _ a b s t => a = b ∧ g.library.getDefinition c = .ok a ∧ s = w₁ ∧ t = w₂) (Build.definition c)
      (Build.definition c) k w₁ w₂ := by
  have h₁ := h.ready₁.knows c hc
  have h₂ := h.ready₂.knows c hc
  refine lockstep_of_apply (congrArg (·, w₁) h₁) (congrArg (·, w₂) h₂) (List.prefix_refl k) h ?_
  cases g.library.getDefinition c with
  | ok callee => exact .ok ⟨rfl, rfl, rfl, rfl⟩
  | error e => exact .error e e

/-- The modules of a definition are made on both sides or on neither; the bodies stay as they are. -/
theorem materialize_lockstep {make₁ make₂ : Materializer σ} (hsound₁ : make₁.Sound) (hsound₂ : make₂.Sound)
    (hsteady₁ : make₁.Steady g f₁.definition.index) (hsteady₂ : make₂.Steady g f₁.definition.index)
    (h : World.Abreast g definition f₁ f₂ k w₁ w₂) (hc : g.planned c) (hlt : c.index < f₁.definition.index) :
    Lockstep (World.Abreast g definition f₁ f₂)
      (fun _ a b s t => s.session.MadeFor c a ∧ t.session.MadeFor c b) (make₁ c) (make₂ c) k w₁ w₂ := by
  have hdrafted : ∀ {make : Materializer σ} {w : World σ} {f : Frame} {locals : List ValueId} {draft : Draft},
      make.Sound → w.session.Coherent → w.session.Drafted definition f locals draft →
        ((make c).apply w).2.session.Drafted definition f locals draft := by
    intro make w f locals draft hsound hw hdraft
    have hmakes := hsound c w hw
    obtain ⟨_, _, hdoes⟩ := hmakes.does
    exact hdraft.make hw hdoes.keeps (hmakes.works.sustains hw)
  obtain ⟨draft, hdraft₁, hdraft₂⟩ := h.drafted
  obtain ⟨hready₁, hok₁⟩ := hsteady₁ c w₁ hc hlt h.ready₁
  obtain ⟨hready₂, hok₂⟩ := hsteady₂ c w₂ hc hlt h.ready₂
  have hworld := { h with
    ready₁ := hready₁, ready₂ := hready₂
    drafted := ⟨draft, hdrafted hsound₁ h.ready₁.coherent hdraft₁,
      hdrafted hsound₂ h.ready₂.coherent hdraft₂⟩ }
  refine ⟨k, List.prefix_refl k, hworld, ?_⟩
  have hmade₁ := (materialize_leads hsound₁ c h.ready₁.coherent).result
  have hmade₂ := (materialize_leads hsound₂ c h.ready₂.coherent).result
  have hsame := hok₁.trans hok₂.symm
  cases houtcome₁ : ((make₁ c).apply w₁).1 with
  | ok a =>
      cases houtcome₂ : ((make₂ c).apply w₂).1 with
      | ok b => exact .ok ⟨hmade₁ a houtcome₁, hmade₂ b houtcome₂⟩
      | error e =>
          rw [houtcome₁, houtcome₂] at hsame
          cases hsame.mp rfl
  | error e =>
      cases houtcome₂ : ((make₂ c).apply w₂).1 with
      | ok b =>
          rw [houtcome₁, houtcome₂] at hsame
          cases hsame.mpr rfl
      | error e' => exact .error e e'

theorem uniquifyInstanceName_lockstep (h : World.Abreast g definition f₁ f₂ k w₁ w₂) {id₁ id₂ : ModuleId}
    (made₁ : w₁.session.MadeFor c id₁) (made₂ : w₂.session.MadeFor c id₂) (name : String) :
    Lockstep (World.Abreast g definition f₁ f₂)
      (fun _ a b s t => a = b ∧ s.session.MadeFor c id₁ ∧ t.session.MadeFor c id₂)
      (compile (Compile.uniquifyInstanceName name)) (compile (Compile.uniquifyInstanceName name)) k w₁ w₂ := by
  obtain ⟨draft, hdraft₁, hdraft₂⟩ := h.drafted
  obtain ⟨outer₁, hblocks₁⟩ := hdraft₁.names
  obtain ⟨outer₂, hblocks₂⟩ := hdraft₂.names
  have hnamed₁ : Session.Drafted { w₁.session with blocks := (draft.names.uniquify name).2 :: outer₁ }
    definition f₁ _ _ := hdraft₁.name name
  have hnamed₂ : Session.Drafted { w₂.session with blocks := (draft.names.uniquify name).2 :: outer₂ }
    definition f₂ _ _ := hdraft₂.name name
  have hworld := { h with
    ready₁ := h.ready₁.edits (.name hblocks₁), ready₂ := h.ready₂.edits (.name hblocks₂)
    drafted := ⟨_, hnamed₁, hnamed₂⟩ }
  exact lockstep_of_apply (uniquifyInstanceName_apply name hblocks₁) (uniquifyInstanceName_apply name hblocks₂)
    (List.prefix_refl k) hworld (.ok ⟨rfl, made₁, made₂⟩)

theorem inputValue_lockstep {d₁ d₂ : Design} (h : World.AbreastOver g definition f₁ f₂ w₁ w₂ k d₁ d₂)
    (port : PortSpec) {a b : Connection} (hab : a.Matches k b) :
    Lockstep (World.AbreastOver g definition f₁ f₂ w₁ w₂) (fun k a b _ _ => (a, b) ∈ k) (inputValue port a)
      (inputValue port b) k d₁ d₂ := by
  cases hab with
  | signal matching => exact lockstep_pure h matching.value
  | literal value =>
      refine (Edit.constant_lockstep h port.type value).bind fun k₁ a b s t _ h₁ hsignal => ?_
      exact lockstep_pure h₁ hsignal.value
  | absent =>
      refine (Edit.zero_lockstep h port.type).bind fun k₁ a b s t _ h₁ hsignal => ?_
      exact lockstep_pure h₁ hsignal.value

theorem inputValues_lockstep {d₁ d₂ : Design} (h : World.AbreastOver g definition f₁ f₂ w₁ w₂ k d₁ d₂)
    {as bs : List (PortSpec × Connection)}
    (hmatching : List.Forall₂ (fun a b => a.1 = b.1 ∧ a.2.Matches k b.2) as bs) :
    Lockstep (World.AbreastOver g definition f₁ f₂ w₁ w₂)
      (fun k as bs _ _ => List.Forall₂ (fun a b => (a, b) ∈ k) as bs)
      (as.mapM fun (port, connection) => inputValue port connection)
      (bs.mapM fun (port, connection) => inputValue port connection) k d₁ d₂ := by
  refine lockstep_mapM (P := fun k a b => a.1 = b.1 ∧ a.2.Matches k b.2) (R := fun k a b => (a, b) ∈ k)
    ?step ?matching ?values hmatching h
  case step =>
    rintro k ⟨port, a⟩ ⟨_, b⟩ d₁ d₂ ⟨rfl, hab⟩ h
    exact inputValue_lockstep h port hab
  case matching => exact fun k k' a b hk hab => ⟨hab.1, hab.2.mono hk⟩
  case values => exact fun k k' a b hk hab => hk.subset hab

theorem matching_signals {types : List HwType} {as bs : List ValueId} (ha : as.length = types.length)
    (hb : bs.length = types.length) (h : ∀ pair ∈ as.zip bs, pair ∈ k) :
    List.Forall₂ (Signal.Matches k) (List.zipWith Signal.mk as types) (List.zipWith Signal.mk bs types) := by
  induction types generalizing as bs with
  | nil =>
      rw [List.zipWith_nil_right, List.zipWith_nil_right]
      exact .nil
  | cons type types ih =>
      obtain ⟨a, as, rfl⟩ := List.exists_cons_of_length_eq_add_one ha
      obtain ⟨b, bs, rfl⟩ := List.exists_cons_of_length_eq_add_one hb
      rw [List.zip_cons_cons, List.forall_mem_cons] at h
      exact .cons ⟨h.1, rfl⟩ (ih (Nat.succ.inj ha) (Nat.succ.inj hb) h.2)

theorem editInputs_lockstep (h : World.Abreast g definition f₁ f₂ k w₁ w₂) {id₁ id₂ : ModuleId}
    (made₁ : w₁.session.MadeFor c id₁) (made₂ : w₂.session.MadeFor c id₂)
    {as bs : List (PortSpec × Connection)}
    (hmatching : List.Forall₂ (fun a b => a.1 = b.1 ∧ a.2.Matches k b.2) as bs) :
    Lockstep (World.Abreast g definition f₁ f₂)
      (fun k as bs s t => List.Forall₂ (fun a b => (a, b) ∈ k) as bs ∧ s.session.MadeFor c id₁ ∧
        t.session.MadeFor c id₂)
      (edit (as.mapM fun (port, connection) => inputValue port connection))
      (edit (bs.mapM fun (port, connection) => inputValue port connection)) k w₁ w₂ :=
  lockstep_edit ((inputValues_lockstep h hmatching).mono (fun _ _ _ _ hI => hI)
    fun _ _ _ _ _ _ _ hvalues => ⟨hvalues, made₁, made₂⟩)

/-- An instance passes its check on both sides or on neither. -/
theorem fits_iff (h : World.Abreast g definition f₁ f₂ k w₁ w₂) {id₁ id₂ : ModuleId} {m₁ m₂ : HwModule}
    (hm₁ : w₁.session.design.module? id₁ = some m₁) (hm₂ : w₂.session.design.module? id₂ = some m₂)
    (hports : m₁.inputs = m₂.inputs) {inputs₁ inputs₂ : List ValueId}
    (hinputs : List.Forall₂ (fun a b => (a, b) ∈ k) inputs₁ inputs₂) (name : String)
    (parameters : AttributeMap) :
    w₁.session.design.Fits (.instantiate id₁ name inputs₁ parameters) ↔
      w₂.session.design.Fits (.instantiate id₂ name inputs₂ parameters) := by
  have htypes : ∀ ports : List Port,
      List.Forall₂ (fun port v => w₁.session.design.typeOf? v = some port.type) ports inputs₁ ↔
        List.Forall₂ (fun port v => w₂.session.design.typeOf? v = some port.type) ports inputs₂ := by
    refine fun ports => ⟨fun hall => ?_, fun hall => ?_⟩
    · refine forall₂_comp (fun port a b ha hab => ?_) hall hinputs
      obtain ⟨type, ha', hb⟩ := h.exists_type hab
      exact hb.trans (ha'.symm.trans ha)
    · refine forall₂_comp (fun port b a hb hab => ?_) hall hinputs.flip
      obtain ⟨type, ha, hb'⟩ := h.exists_type hab
      exact ha.trans (hb'.symm.trans hb)
  unfold Design.Fits
  simp only [hm₁, hm₂, Option.some.injEq, exists_eq_left', hports, htypes]

theorem insertInstance_lockstep (h : World.Abreast g definition f₁ f₂ k w₁ w₂) {request₁ request₂ : InstanceRequest}
    (hrequest : request₁.Matches k request₂) (hc : g.planned request₁.definition)
    {callee : Definition (Routine σ Unit)} (hcallee : g.library.getDefinition request₁.definition = .ok callee)
    {id₁ id₂ : ModuleId} (made₁ : w₁.session.MadeFor request₁.definition id₁)
    (made₂ : w₂.session.MadeFor request₁.definition id₂) (name : String) {inputs₁ inputs₂ : List ValueId}
    (hinputs : List.Forall₂ (fun a b => (a, b) ∈ k) inputs₁ inputs₂) (parameters : AttributeMap) :
    Lockstep (World.Abreast g definition f₁ f₂) (fun k a b _ _ => a.Matches g k b)
      (insertInstance request₁ id₁ name inputs₁ parameters) (insertInstance request₂ id₂ name inputs₂ parameters)
      k w₁ w₂ := by
  have hoperation : (Operation.instantiate id₁ name inputs₁ parameters).Corresponds (w₁.Twins w₂)
      (fun a b => (a, b) ∈ k) (.instantiate id₂ name inputs₂ parameters) :=
    .instantiate name parameters ⟨request₁.definition, made₁, made₂⟩ hinputs
  obtain ⟨hbuilding₁, hbuilding₂⟩ := h.building
  have howned₁ : ∀ v ∈ inputs₁, w₁.session.design.owner? v = some f₁.module := (h.owned hoperation).1
  have howned₂ : ∀ v ∈ inputs₂, w₂.session.design.owner? v = some f₂.module := (h.owned hoperation).2
  obtain ⟨m₁, hm₁, _, houtputs₁⟩ := h.ready₁.exists_ports hc hcallee made₁
  obtain ⟨m₂, hm₂, _, houtputs₂⟩ := h.ready₂.exists_ports hc hcallee made₂
  obtain ⟨_, body₁, hlive₁, hbody₁, _, hcases₁⟩ :=
    insertInstance_apply hbuilding₁ hm₁ request₁ name howned₁ parameters
  obtain ⟨_, body₂, hlive₂, hbody₂, _, hcases₂⟩ :=
    insertInstance_apply hbuilding₂ hm₂ request₂ name howned₂ parameters
  have hattributes : attributesOf request₁ = attributesOf request₂ := by
    unfold attributesOf
    rw [hrequest.appId]
  rw [houtputs₁, hrequest.location, hattributes] at hcases₁
  rw [houtputs₂] at hcases₂
  have hnext := fun attributes => (h.append hoperation rfl trivial trivial hlive₁ hbody₁ hlive₂ hbody₂
    (callee.outputPorts.map (·.type)) attributes request₂.location).2.2
  -- Whether the check is passed is a matter of the types of the inputs, which are the same on both sides.
  obtain ⟨n₁, hn₁, hports₁, _⟩ := (hnext .empty).ready₁.exists_ports hc hcallee made₁
  obtain ⟨n₂, hn₂, hports₂, _⟩ := (hnext .empty).ready₂.exists_ports hc hcallee made₂
  have hfits := fits_iff (hnext .empty) hn₁ hn₂ (hports₁.trans hports₂.symm)
    (hinputs.imp fun _ _ hab => List.mem_append_left _ hab) name parameters
  rcases hcases₁ with ⟨hfits₁, hok₁⟩ | ⟨hunfit₁, _, hrefused₁⟩ <;>
    rcases hcases₂ with ⟨hfits₂, hok₂⟩ | ⟨hunfit₂, _, hrefused₂⟩
  case inr.inr =>
    exact lockstep_of_apply hrefused₁ hrefused₂ (List.prefix_append _ _) (hnext .empty) (.error _ _)
  case inl.inr => exact absurd (hfits.mp hfits₁) hunfit₂
  case inr.inl => exact absurd (hfits.mpr hfits₂) hunfit₁
  case inl.inl =>
    have hplaced := hnext (attributesOf request₂)
    obtain ⟨draft, hdraft₁, hdraft₂⟩ := hplaced.drafted
    have hworld := { hplaced with
      ready₁ := hplaced.ready₁.edits (edits_addInstance hbuilding₁.here hlive₁ made₁.made body₁ name inputs₁
        parameters _ _ _)
      ready₂ := hplaced.ready₂.edits (edits_addInstance hbuilding₂.here hlive₂ made₂.made body₂ name inputs₂
        parameters _ _ _)
      drafted := ⟨draft, { hdraft₁ with }, { hdraft₂ with }⟩ }
    refine lockstep_of_apply hok₁ hok₂ (List.prefix_append _ _) hworld
      (.ok ⟨hrequest.definition, hc, ?_⟩)
    exact matching_signals (Design.length_nextValues _ _) (Design.length_nextValues _ _)
      fun pair hpair => List.mem_append_right _ hpair

/-! ### Placing -/

/-- Instances are placed on both sides or on neither. -/
theorem placeInstance_lockstep {make₁ make₂ : Materializer σ} (hsound₁ : make₁.Sound) (hsound₂ : make₂.Sound)
    (hsteady₁ : make₁.Steady g f₁.definition.index) (hsteady₂ : make₂.Steady g f₁.definition.index)
    (h : World.Abreast g definition f₁ f₂ k w₁ w₂) {request₁ request₂ : InstanceRequest}
    (hrequest : request₁.Matches k request₂) (hc : g.planned request₁.definition)
    (hlt : request₁.definition.index < f₁.definition.index) :
    Lockstep (World.Abreast g definition f₁ f₂) (fun k a b _ _ => a.Matches g k b)
      (placeInstance make₁ request₁) (placeInstance make₂ request₂) k w₁ w₂ := by
  rw [placeInstance_eq, placeInstance_eq, ← hrequest.definition, ← hrequest.name]
  refine (definition_lockstep h hc).bind fun k₁ callee _ s t hk₁ h₁ hread => ?_
  obtain ⟨rfl, hcallee, rfl, rfl⟩ := hread
  refine (lockstep_get h₁).bind fun k₂ s' t' s t hk₂ h₂ hread => ?_
  obtain ⟨_, rfl, rfl⟩ := hread
  have hblocks : s'.session.hasBlock = true ↔ t'.session.hasBlock = true :=
    iff_of_true h₂.hasBlock.1 h₂.hasBlock.2
  refine Lockstep.guard h₂ hblocks fun _ => ?_
  have hbindings := callee.bindInputs_agree (hrequest.bindings.imp fun _ _ hab =>
    ⟨hab.1, hab.2.mono (hk₁.trans hk₂)⟩)
  refine (lockstep_ofOutcome h₂ (Q := fun k as bs _ _ => List.Forall₂ (fun a b => a.1 = b.1 ∧
    a.2.Matches k b.2) as bs) hbindings).bind fun k₃ as bs s t hk₃ h₃ hconnections => ?_
  refine (materialize_lockstep hsound₁ hsound₂ hsteady₁ hsteady₂ h₃ hc hlt).bind
    fun k₄ id₁ id₂ s t hk₄ h₄ hmade => ?_
  refine (uniquifyInstanceName_lockstep h₄ hmade.1 hmade.2 _).bind fun k₅ name _ s t hk₅ h₅ hnamed => ?_
  obtain ⟨rfl, made₁, made₂⟩ := hnamed
  have hconnections := hconnections.imp fun _ _ hab => And.intro hab.1 (hab.2.mono (hk₄.trans hk₅))
  refine (editInputs_lockstep h₅ made₁ made₂ hconnections).bind fun k₆ inputs₁ inputs₂ s t hk₆ h₆ hread => ?_
  obtain ⟨hinputs, made₁, made₂⟩ := hread
  rw [← hrequest.definition]
  refine (definition_lockstep h₆ hc).bind fun k₇ callee' _ s t hk₇ h₇ hread => ?_
  obtain ⟨rfl, _, rfl, rfl⟩ := hread
  have hk := (((((hk₁.trans hk₂).trans hk₃).trans hk₄).trans hk₅).trans hk₆).trans hk₇
  exact insertInstance_lockstep h₇ (hrequest.mono hk) hc hcallee made₁ made₂ name
    (hinputs.imp fun _ _ hab => hk₇.subset hab) callee'.instanceParameters

theorem outputOf_lockstep (h : World.Abreast g definition f₁ f₂ k w₁ w₂) {placed₁ placed₂ : Instance}
    (hplaced : placed₁.Matches g k placed₂) (port : String) :
    Lockstep (World.Abreast g definition f₁ f₂) (fun k a b _ _ => a.Matches k b) (outputOf placed₁ port)
      (outputOf placed₂ port) k w₁ w₂ := by
  unfold outputOf
  rw [← hplaced.definition]
  refine (definition_lockstep h hplaced.planned).bind fun k₁ callee _ s t hk₁ h₁ hread => ?_
  obtain ⟨rfl, _⟩ := hread
  cases callee.output? port with
  | none => exact lockstep_throw h₁ _ _ _
  | some spec =>
      have hsignal := optionRel_getElem? hplaced.results spec.index
      dsimp only
      generalize placed₁.results[spec.index]? = result₁ at hsignal ⊢
      generalize placed₂.results[spec.index]? = result₂ at hsignal ⊢
      cases hsignal with
      | none => exact lockstep_throw h₁ _ _ _
      | some hab => exact lockstep_pure h₁ (hab.mono hk₁)

end Build

end Wirework
