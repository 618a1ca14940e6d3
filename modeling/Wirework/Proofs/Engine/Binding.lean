import Wirework.Proofs.Engine.Emitting

/-! # Which bindings are accepted

The bindings of an instance come in any order, and they are checked in several passes of which the first that fails
decides the error.  What is accepted in the end does not depend on the passes: bindings are refused exactly if there
is something wrong with one of them (`Definition.Misbinds`) or an input is left without a connection
(`Definition.missing`), and only in the second case the inputs without connection are named
(`Definition.bindInputs_cases`).

In what order they come does not matter (`Definition.bindInputs_perm`): names that are bound are distinct, so a
look-up by name does not depend on the order.  So it does not matter for the instance either
(`Build.placeInstance_perm`). -/

namespace Wirework

namespace Definition

variable {ρ : Type} {d : Definition ρ} {bindings bindings' : List (String × Connection)}

/-! ### What is wrong with bindings -/

/-- One of the bindings is not what the definition asks for. -/
inductive Misbinds (d : Definition ρ) (bindings : List (String × Connection)) : Prop
  | repeated (repeated : ¬ (bindings.map (·.1)).Nodup)
  | unknown {name : String} {connection : Connection} (bound : (name, connection) ∈ bindings)
      (unknown : name ∉ d.inputs.map (·.name))
  | mistyped {port : PortSpec} {s : Signal} (declared : port ∈ d.inputs)
      (bound : (port.name, .signal s) ∈ bindings) (mistyped : s.type ≠ port.type)
  | unfit {port : PortSpec} {value : Int} (declared : port ∈ d.inputs)
      (bound : (port.name, .literal value) ∈ bindings) (unfit : ¬ port.type.Fits value)
  /-- Only modules without generator can have inputs left unconnected. -/
  | absent {port : PortSpec} (declared : port ∈ d.inputs) (bound : (port.name, .absent) ∈ bindings)
      (generated : d.generator?.isSome = true)

/-- The inputs without a connection, in the order of the ports. -/
def missing (d : Definition ρ) (bindings : List (String × Connection)) : List String :=
  (d.inputs.map (·.name)).filter (· ∉ bindings.map (·.1))

theorem unboundInputs_eq_missing (d : Definition ρ) (bindings : List (String × Connection)) :
    d.unboundInputs bindings = d.missing bindings := by
  refine List.filter_congr fun name _ => ?_
  have hlookup : bindings.lookup name = none ↔ name ∉ bindings.map (·.1) := by
    rw [List.lookup_eq_none_iff, List.mem_map]
    constructor
    · rintro hnone ⟨binding, hbinding, rfl⟩
      exact bne_iff_ne.mp (hnone binding hbinding) rfl
    · intro hnot binding hbinding
      exact bne_iff_ne.mpr fun heq => hnot ⟨binding, hbinding, heq.symm⟩
  rw [Bool.eq_iff_iff, decide_eq_true_iff, Option.isNone_iff_eq_none, hlookup]

theorem not_nodup_of_firstRepeated {seen names : List String} {name : String}
    (h : firstRepeated seen names = some name) : ¬ (names.Nodup ∧ ∀ other ∈ names, other ∉ seen) := by
  induction names generalizing seen with
  | nil => cases h
  | cons first rest ih =>
      unfold firstRepeated at h
      rintro ⟨hnodup, hnew⟩
      obtain ⟨hfirst, hrest⟩ := List.nodup_cons.mp hnodup
      rw [if_neg (hnew first List.mem_cons_self)] at h
      refine ih h ⟨hrest, fun other hother hmem => ?_⟩
      rcases List.mem_cons.mp hmem with rfl | hmem
      · exact hfirst hother
      · exact hnew other (List.mem_cons_of_mem first hother) hmem

/-- A binding of an input passes its check unless it is misbound. -/
theorem checkBinding_cases (hd : d.Scanned) {binding : String × Connection} (hmem : binding ∈ bindings)
    (known : (d.input? binding.1).isSome = true) :
    d.checkBinding binding.1 binding.2 = .ok ⟨⟩ ∨ d.Misbinds bindings ∧
      ∃ e, d.checkBinding binding.1 binding.2 = .error e ∧ ∀ module ports, e ≠ .missingInput module ports := by
  obtain ⟨name, connection⟩ := binding
  obtain ⟨port, hport⟩ := Option.isSome_iff_exists.mp known
  obtain ⟨hdeclared, rfl⟩ := hd.input?_eq_some_iff.mp hport
  unfold checkBinding
  simp only [hport]
  by_cases habsent : connection = .absent ∧ d.generator?.isSome = true
  · obtain ⟨rfl, hgenerated⟩ := habsent
    exact .inr ⟨.absent hdeclared hmem hgenerated, _, if_pos ⟨rfl, hgenerated⟩, by rintro _ _ ⟨⟩⟩
  rw [if_neg habsent]
  cases connection with
  | signal s =>
      by_cases htype : s.type = port.type
      · exact .inl (if_pos htype)
      · exact .inr ⟨.mistyped hdeclared hmem htype, _, if_neg htype, by rintro _ _ ⟨⟩⟩
  | literal value =>
      by_cases hfits : port.type.Fits value
      · exact .inl (if_pos hfits)
      · exact .inr ⟨.unfit hdeclared hmem hfits, _, if_neg hfits, by rintro _ _ ⟨⟩⟩
  | absent => exact .inl rfl

/-- Bindings of distinct inputs that have all passed their checks are what the definition asks for. -/
theorem not_misbinds (hd : d.Scanned) (distinct : (bindings.map (·.1)).Nodup)
    (known : ∀ name ∈ bindings.map (·.1), (d.input? name).isSome = true)
    (checked : ∀ binding ∈ bindings, d.checkBinding binding.1 binding.2 = .ok ⟨⟩) :
    ¬ d.Misbinds bindings := by
  have hcheck : ∀ port ∈ d.inputs, ∀ connection, (port.name, connection) ∈ bindings →
      ¬ (connection = .absent ∧ d.generator?.isSome = true) ∧ connection.check d.name port = .ok ⟨⟩ := by
    intro port hport connection hbound
    have hchecked := checked _ hbound
    unfold checkBinding at hchecked
    simp only [hd.input?_eq_some_iff.mpr ⟨hport, rfl⟩] at hchecked
    by_cases habsent : connection = .absent ∧ d.generator?.isSome = true
    · rw [if_pos habsent] at hchecked
      cases hchecked
    · rw [if_neg habsent] at hchecked
      exact ⟨habsent, hchecked⟩
  intro hfault
  cases hfault with
  | repeated hrepeated => exact hrepeated distinct
  | @unknown name connection hbound hunknown =>
      obtain ⟨port, hport⟩ := Option.isSome_iff_exists.mp (known name (List.mem_map_of_mem hbound))
      obtain ⟨hmem, rfl⟩ := hd.input?_eq_some_iff.mp hport
      exact hunknown (List.mem_map_of_mem hmem)
  | @mistyped port s hport hbound hdiffers =>
      cases (if_neg hdiffers).symm.trans (hcheck port hport _ hbound).2
  | @unfit port value hport hbound hunfit =>
      cases (if_neg hunfit).symm.trans (hcheck port hport _ hbound).2
  | absent hport hbound hgenerated => exact (hcheck _ hport _ hbound).1 ⟨rfl, hgenerated⟩

/-- **Bindings are refused for what is wrong with them.**  They are refused if one of them is not what the
definition asks for; otherwise, if an input is left without a connection, and then these inputs are named; and
otherwise they are accepted. -/
theorem bindInputs_cases (hd : d.Scanned) (bindings : List (String × Connection)) :
    (d.Misbinds bindings ∧
      ∃ e, d.bindInputs bindings = .error e ∧ ∀ module ports, e ≠ .missingInput module ports) ∨
    (¬ d.Misbinds bindings ∧ d.missing bindings ≠ [] ∧
      d.bindInputs bindings = .error (.missingInput d.name (d.missing bindings))) ∨
    (¬ d.Misbinds bindings ∧ d.missing bindings = [] ∧ ∃ connections, d.bindInputs bindings = .ok connections) := by
  unfold bindInputs
  cases hrepeated : firstRepeated [] (bindings.map (·.1)) with
  | some name =>
      refine .inl ⟨.repeated fun hnodup => ?_, .duplicateBinding d.name name,
        by simp only [hrepeated]; rfl, by rintro _ _ ⟨⟩⟩
      exact not_nodup_of_firstRepeated hrepeated ⟨hnodup, fun _ _ => List.not_mem_nil⟩
  | none =>
  have hdistinct := (firstRepeated_eq_none hrepeated).1
  cases hunknown : (bindings.map (·.1)).find? fun name => (d.input? name).isNone with
  | some name =>
      obtain ⟨⟨_, connection⟩, hbound, rfl⟩ := List.mem_map.mp (List.mem_of_find?_eq_some hunknown)
      refine .inl ⟨.unknown hbound fun hname => ?_, .portResolution d.name _,
        by simp only [hrepeated, hunknown]; rfl, by rintro _ _ ⟨⟩⟩
      obtain ⟨port, hport, hname⟩ := List.mem_map.mp hname
      have hnone := List.find?_some hunknown
      rw [hd.input?_eq_some_iff.mpr ⟨hport, hname⟩] at hnone
      cases hnone
  | none =>
  have hknown : ∀ name ∈ bindings.map (·.1), (d.input? name).isSome = true := by
    simpa [List.find?_eq_none, Option.isSome_iff_ne_none] using hunknown
  rcases forM_cases (fun binding : String × Connection => d.checkBinding binding.1 binding.2) bindings with
    ⟨hforM, hchecked⟩ | ⟨binding, hmem, e, he, hforM⟩
  · have hgood := not_misbinds hd hdistinct hknown hchecked
    simp only [hrepeated, hunknown, hforM, unboundInputs_eq_missing]
    cases hmissing : d.missing bindings with
    | nil => exact .inr (.inr ⟨hgood, rfl, _, rfl⟩)
    | cons name rest => exact .inr (.inl ⟨hgood, List.cons_ne_nil name rest, rfl⟩)
  · rcases checkBinding_cases hd hmem (hknown _ (List.mem_map_of_mem hmem)) with hok | ⟨hfault, e', he', hne⟩
    · cases he.symm.trans hok
    · obtain rfl := Except.error.inj (he.symm.trans he')
      exact .inl ⟨hfault, e, by simp only [hrepeated, hunknown, hforM]; rfl, hne⟩

/-! ### The order of bindings -/

/-- Bindings that are accepted give the same connections in any other order. -/
theorem bindInputs_perm {connections : List (PortSpec × Connection)} (h : bindings.Perm bindings')
    (hbind : d.bindInputs bindings = .ok connections) : d.bindInputs bindings' = .ok connections := by
  obtain ⟨hrepeated, hunknown, hchecked, hunbound, rfl⟩ := bindInputs_eq_ok_iff.mp hbind
  have hnodup := (firstRepeated_eq_none hrepeated).1
  have hnames : (bindings.map (·.1)).Perm (bindings'.map (·.1)) := h.map _
  have hlookup : ∀ name, bindings'.lookup name = bindings.lookup name := fun name => lookup_perm hnodup h
  refine bindInputs_eq_ok_iff.mpr ⟨?_, ?_, fun binding hmem => hchecked binding (h.mem_iff.mpr hmem), ?_, ?_⟩
  · cases hrepeated' : firstRepeated [] (bindings'.map (·.1)) with
    | none => rfl
    | some name =>
        refine absurd ⟨hnames.nodup_iff.mp hnodup, fun _ _ => List.not_mem_nil⟩
          (not_nodup_of_firstRepeated hrepeated')
  · rw [List.find?_eq_none] at hunknown ⊢
    exact fun name hname => hunknown name (hnames.mem_iff.mpr hname)
  · rw [← hunbound]
    unfold unboundInputs
    simp only [hlookup]
  · simp only [hlookup]

end Definition

namespace Build

open Step

variable {σ : Type} {materialize : Materializer σ} {request : InstanceRequest} {w : World σ}

/-- The bindings of an instance can be given in any order: what happens to the session is the same, and so is the
instance, if it is placed. -/
theorem placeInstance_perm {bindings : List (String × Connection)} (h : request.bindings.Perm bindings) :
    ((placeInstance materialize { request with bindings }).apply w).2 =
        ((placeInstance materialize request).apply w).2 ∧
      ((placeInstance materialize { request with bindings }).apply w).1.toOption =
        ((placeInstance materialize request).apply w).1.toOption := by
  rw [placeInstance_eq, placeInstance_eq]
  simp only [apply_bind, apply_definition, apply_get]
  cases w.workspace.library.getDefinition request.definition with
  | error e => exact ⟨rfl, rfl⟩
  | ok d =>
  by_cases hblock : w.session.hasBlock = true
  case neg => simp only [if_neg hblock, apply_bind, apply_throw, and_self]
  simp only [if_pos hblock, apply_bind, apply_ofOutcome]
  cases hbind : d.bindInputs request.bindings with
  | ok connections =>
      rw [Definition.bindInputs_perm h hbind]
      exact ⟨rfl, rfl⟩
  | error e =>
      cases hbind' : d.bindInputs bindings with
      | ok connections => cases hbind.symm.trans (Definition.bindInputs_perm h.symm hbind')
      | error e' => exact ⟨rfl, rfl⟩

theorem placeInstance_refused {definition : Definition (Routine σ Unit)}
    (hd : w.workspace.library.getDefinition request.definition = .ok definition)
    (hblock : w.session.hasBlock = true) {e : BuildError}
    (hbind : definition.bindInputs request.bindings = .error e) :
    (placeInstance materialize request).apply w = (.error e, w) := by
  rw [placeInstance_eq]
  simp only [apply_bind, apply_definition, hd, apply_get, if_pos hblock, apply_ofOutcome, hbind]

end Build

end Wirework
