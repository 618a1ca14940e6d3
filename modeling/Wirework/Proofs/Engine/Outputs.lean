import Wirework.Proofs.Engine.Attempts

/-! # Outputs of a body

What is in the slots of the outputs when a routine ends follows from its attempts to assign them, and from nothing
else it does.  The proof goes along the attempts, from first to last:

* a single one leaves everything as it was, or fills the one slot that its name or position means
  (`Assignment.Behaves.slot_cases`);
* a log of them fills each slot with what has been assigned last (`Assigned.given`), and if second assignments are
  denied, only the first success for a slot is one (`Assigned.once`);
* the log of a routine is such a log (`Generation.run_assigned`).

A body is then ended with the values in the slots, or refused with the names of the slots that are empty
(`Build.conclude_outputs`).  `outputs_assigned` puts this together for every generator of every definition. -/

namespace Wirework

open Step

variable {σ α : Type}

/-! ### What attempts come to -/

/-- Attempts to assign outputs, one after the other, lead from what is in the slots before to what is there
afterwards. -/
inductive Assigned {ρ : Type} (frame : Frame) (definition : Definition ρ) (policy : ReassignPolicy) :
    List (Option Signal) → List (Assignment σ) → List (Option Signal) → Prop
  | nothing {outputs : List (Option Signal)} : Assigned frame definition policy outputs [] outputs
  | attempt {a : Assignment σ} {log : List (Assignment σ)} {first last : List (Option Signal)}
      (behaves : a.Behaves definition frame policy) (start : a.before.outputs = first)
      (rest : Assigned frame definition policy a.after.outputs log last) :
      Assigned frame definition policy first (a :: log) last

/-- What has been assigned to the output last. -/
def Definition.lastAssigned {ρ : Type} (d : Definition ρ) (k : Nat) (log : List (Assignment σ)) :
    Option (Assignment σ) :=
  (log.filter (·.assigns d k)).getLast?

/-- The attempt is refused since the output has been assigned before. -/
def Assignment.IsDenied (frame : Frame) (port : PortSpec) (a : Assignment σ) : Prop :=
  ∃ found, a.before.world.workspace.library.getDefinition frame.definition = .ok found ∧
    a.outcome = .error (.outputReassigned found.name port.name)

section slots

variable {ρ : Type} {frame : Frame} {definition : Definition ρ} {policy : ReassignPolicy}

theorem Definition.Scanned.position_eq (h : definition.Scanned) {target : OutputRef} {j k : Nat} {p q : PortSpec}
    (hp : definition.outputs[j]? = some p) (hj : target.means definition j = true)
    (hq : definition.outputs[k]? = some q) (hk : target.means definition k = true) : j = k := by
  cases target with
  | position index =>
      exact (OutputRef.means_position_iff.mp hj).trans (OutputRef.means_position_iff.mp hk).symm
  | named name =>
      obtain ⟨members, hreads⟩ := h.interface
      have hindex : ∀ {k port}, definition.outputs[k]? = some port →
          (OutputRef.named name).means definition k = true → _ = some k := fun hport hmeans =>
        hreads.outputIndex?_eq_some_iff.mpr ⟨_, hport, (OutputRef.means_named_iff hport).mp hmeans⟩
      exact Option.some.inj ((hindex hp hj).symm.trans (hindex hq hk))

namespace Assignment.Behaves

variable {a : Assignment σ} {k : Nat} {port : PortSpec}

theorem same_of_refused (h : a.Behaves definition frame policy) (refused : a.outcome.isOk = false) :
    a.after = a.before := by
  cases h with
  | unsuited outcome same | denied defined outcome same => exact same
  | assigned outcome =>
      rw [outcome] at refused
      cases refused

/-- What an attempt does to the slot of an output. -/
theorem slot_cases (h : a.Behaves definition frame policy) (hscanned : definition.Scanned)
    (hport : definition.outputs[k]? = some port) (hk : k < a.before.outputs.length) :
    a.assigns definition k = false ∧ a.after.outputs[k]? = a.before.outputs[k]? ∨
      a.assigns definition k = true ∧ (policy = .deny → a.before.outputs[k]? = some none) ∧
        ∃ s, a.after.outputs[k]? = some (some s) ∧
          a.value.Gives frame.module port a.before.world.session.design a.after.world.session.design s := by
  cases h with
  | unsuited outcome same | denied defined outcome same =>
      refine Or.inl ⟨?_, by rw [same]⟩
      unfold Assignment.assigns
      rw [outcome]
      rfl
  | @assigned j port' s outcome target found assignable free gives outputs =>
      have hassigns : a.assigns definition k = a.target.means definition k := by
        unfold Assignment.assigns
        rw [outcome]
        rfl
      rw [hassigns]
      cases hmeans : a.target.means definition k with
      | false =>
          refine Or.inl ⟨rfl, ?_⟩
          rw [outputs, List.getElem?_set_ne]
          rintro rfl
          cases target.symm.trans hmeans
      | true =>
          obtain rfl := hscanned.position_eq found target hport hmeans
          obtain rfl := Option.some.inj (found.symm.trans hport)
          refine Or.inr ⟨rfl, free, s, ?_, gives⟩
          rw [outputs, List.getElem?_set_self hk]

theorem denied_of_filled (h : a.Behaves definition frame .deny) (hscanned : definition.Scanned)
    (hport : definition.outputs[k]? = some port) (filled : ∃ s, a.before.outputs[k]? = some (some s))
    (target : a.target.means definition k = true) (assignable : a.value.Assignable port) :
    a.IsDenied frame port := by
  cases h with
  | unsuited outcome same unsuited => exact absurd assignable (unsuited k port target hport)
  | denied defined outcome same policy target' found =>
      obtain rfl := hscanned.position_eq found target' hport target
      obtain rfl := Option.some.inj (found.symm.trans hport)
      exact ⟨_, defined, outcome⟩
  | assigned outcome target' found assignable free =>
      obtain rfl := hscanned.position_eq found target' hport target
      obtain ⟨s, hs⟩ := filled
      cases hs.symm.trans (free rfl)

end Assignment.Behaves

namespace Assigned

variable {first last : List (Option Signal)} {log : List (Assignment σ)} {k : Nat} {port : PortSpec}

theorem refused (h : Assigned frame definition policy first log last) :
    ∀ a ∈ log, a.outcome.isOk = false → a.after = a.before := by
  induction h with
  | nothing => exact fun a ha => absurd ha List.not_mem_nil
  | attempt behaves start rest ih => exact List.forall_mem_cons.mpr ⟨behaves.same_of_refused, ih⟩

/-- An output has what it was given last, or what it had if it was given nothing. -/
theorem given (h : Assigned frame definition policy first log last) (hscanned : definition.Scanned)
    (hport : definition.outputs[k]? = some port) (hk : k < first.length) :
    match definition.lastAssigned k log with
    | some a => ∃ s, last[k]? = some (some s) ∧
        a.value.Gives frame.module port a.before.world.session.design a.after.world.session.design s
    | none => last[k]? = first[k]? := by
  induction h with
  | nothing => rfl
  | @attempt a log first last behaves start rest ih =>
      subst start
      have ih := ih (behaves.length_eq.symm ▸ hk)
      unfold Definition.lastAssigned at ih ⊢
      rcases behaves.slot_cases hscanned hport hk with ⟨hnot, hsame⟩ | ⟨hassigns, -, s, hslot, hgives⟩
      · rw [List.filter_cons_of_neg (Bool.eq_false_iff.mp hnot), ← hsame]
        exact ih
      · rw [List.filter_cons_of_pos hassigns, List.getLast?_cons]
        cases hlast : (log.filter (·.assigns definition k)).getLast? with
        | some b =>
            rw [hlast] at ih
            exact ih
        | none =>
            rw [hlast] at ih
            exact ⟨s, ih.trans hslot, hgives⟩

theorem denied (h : Assigned frame definition .deny first log last) (hscanned : definition.Scanned)
    (hport : definition.outputs[k]? = some port) (filled : ∃ s, first[k]? = some (some s)) :
    ∀ b ∈ log, b.assigns definition k = false ∧
      (b.target.means definition k = true → b.value.Assignable port → b.IsDenied frame port) := by
  induction h with
  | nothing => exact fun b hb => absurd hb List.not_mem_nil
  | @attempt a log first last behaves start rest ih =>
      subst start
      obtain ⟨s, hs⟩ := filled
      have hk := (List.getElem?_eq_some_iff.mp hs).1
      rcases behaves.slot_cases hscanned hport hk with ⟨hnot, hsame⟩ | ⟨-, hfree, -⟩
      · refine List.forall_mem_cons.mpr ⟨⟨hnot, ?_⟩, ih ⟨s, hsame.trans hs⟩⟩
        exact behaves.denied_of_filled hscanned hport ⟨s, hs⟩
      · cases hs.symm.trans (hfree rfl)

/-- If second assignments are denied, a successful one is the only one. -/
theorem once (h : Assigned frame definition .deny first log last) (hscanned : definition.Scanned)
    (hport : definition.outputs[k]? = some port) (hk : k < first.length) {earlier later : List (Assignment σ)}
    {a : Assignment σ} (split : log = earlier ++ a :: later) (assigns : a.assigns definition k = true) :
    (∀ b ∈ earlier, b.assigns definition k = false) ∧
      ∀ b ∈ later, b.assigns definition k = false ∧
        (b.target.means definition k = true → b.value.Assignable port → b.IsDenied frame port) := by
  induction h generalizing earlier with
  | nothing => cases (List.append_eq_nil_iff.mp split.symm).2
  | @attempt b log first last behaves start rest ih =>
      subst start
      cases earlier with
      | nil =>
          obtain ⟨rfl, rfl⟩ := List.cons.inj split
          refine ⟨fun b hb => absurd hb List.not_mem_nil, ?_⟩
          rcases behaves.slot_cases hscanned hport hk with ⟨hnot, -⟩ | ⟨-, -, s, hslot, -⟩
          · cases assigns.symm.trans hnot
          · exact rest.denied hscanned hport ⟨s, hslot⟩
      | cons b' earlier =>
          obtain ⟨rfl, rfl⟩ := List.cons.inj split
          obtain ⟨hearlier, hlater⟩ := ih (behaves.length_eq.symm ▸ hk) rfl
          refine ⟨List.forall_mem_cons.mpr ⟨?_, hearlier⟩, hlater⟩
          rcases behaves.slot_cases hscanned hport hk with ⟨hnot, -⟩ | ⟨-, -, s, hslot, -⟩
          · exact hnot
          · -- What is assigned first leaves the slot filled, so the attempt that succeeds could not have.
            have hdenied := rest.denied hscanned hport ⟨s, hslot⟩ a (List.mem_append_right _ List.mem_cons_self)
            cases assigns.symm.trans hdenied.1

end Assigned

end slots

namespace Generation

section run

variable {materialize : Materializer σ} {caller : Caller σ} {frame : Frame}
  {definition : Definition (Routine σ Unit)} {policy : ReassignPolicy} {r : Running σ}

/-- What is in the slots when a routine ends is what its attempts, one after the other, have put there. -/
theorem run_assigned (hm : materialize.Sound) (hc : caller.Sound) (hscanned : definition.Scanned)
    (routine : Routine σ α) (h : r.Fills frame definition policy) :
    let ended := ((run materialize caller frame routine).apply r).2
    ended.Fills frame definition policy ∧
      Assigned frame definition policy r.outputs (assignments materialize caller frame routine r) ended.outputs := by
  induction routine generalizing r with
  | done outcome => exact ⟨h, .nothing⟩
  | host update next ih =>
      exact ih r.world.workspace.host
        (r := { r with world.workspace.host := update r.world.workspace.host })
        ⟨h.coherent, h.here, h.policy_eq, h.defined, h.length_eq⟩
  | ask request next ih =>
      obtain ⟨hfills, hassigned⟩ := ih _ (answer_fills hm hc hscanned request h)
      refine ⟨hfills, ?_⟩
      unfold assignments
      cases hassigns : request.assignment? with
      | none =>
          have hkeeps : _ = r.outputs := (answer_keeps materialize caller frame hassigns r).state
          exact hkeeps ▸ hassigned
      | some assigned => exact .attempt (answer_behaves materialize caller h hscanned hassigns) rfl hassigned

end run

end Generation

/-! ### The end of a body -/

/-- Names of the outputs that no attempt has assigned, in the order of the ports. -/
def Definition.unassigned {ρ : Type} (d : Definition ρ) (log : List (Assignment σ)) : List String :=
  d.outputs.zipIdx.filterMap fun (port, k) => if (d.lastAssigned k log).isNone then some port.name else none

/-- The body of the module ends with the values of its outputs. -/
def Design.EndsWith (d : Design) (id : ModuleId) (values : List ValueId) : Prop :=
  ∃ m body o op, d.module? id = some m ∧ m.body? = some body ∧ body.ops.back? = some o ∧ d.op? o = some op ∧
    op.operation = .output values

theorem Design.Appends.endsWith {d d' : Design} {id : ModuleId} {values : List ValueId}
    (h : d.Appends id (.output values) d') : d'.EndsWith id values := by
  obtain ⟨m, body, -, -, -, hm⟩ := h.module?_self
  obtain ⟨op, hop, -, hoperation⟩ := h.op?_new
  exact ⟨_, _, _, op, hm, rfl, Array.back?_push, hop, hoperation⟩

namespace Generation

theorem apply_edit (step : Edit α) (r : Running σ) :
    (edit step).apply r = ((step.apply r.world.session.design).1.mapError BuildError.ir,
      { r with world.session.design := (step.apply r.world.session.design).2 }) :=
  rfl

/-- Slots that have a value just if something has been assigned to them. -/
theorem filterMap_zip_eq {ports : List PortSpec} {outputs : List (Option Signal)} {p : Nat → Bool} {n : Nat}
    (h : ∀ k port, ports[k]? = some port → ∃ slot, outputs[k]? = some slot ∧ slot.isNone = p (n + k)) :
    ((ports.zip outputs).filterMap fun (port, signal) => if signal.isNone then some port.name else none) =
      (ports.zipIdx n).filterMap fun (port, k) => if p k then some port.name else none := by
  induction ports generalizing outputs n with
  | nil => rfl
  | cons port ports ih =>
      obtain ⟨slot, hslot, hnone⟩ := h 0 port rfl
      cases outputs with
      | nil => cases hslot
      | cons slot' outputs =>
          obtain rfl := Option.some.inj hslot
          have hrest := @ih outputs (n + 1) fun k port hport => by
            obtain ⟨slot, hslot, hnone⟩ := h (k + 1) port hport
            exact ⟨slot, hslot, by rw [hnone, Nat.add_comm k, Nat.add_assoc]⟩
          simp only [List.zip_cons_cons, List.zipIdx_cons, List.filterMap_cons, hnone, Nat.add_zero, hrest]

section slots

variable {definition : Definition (Routine σ Unit)} {policy : ReassignPolicy} {frame : Frame}
  {log : List (Assignment σ)} {outputs : List (Option Signal)}

theorem slot_of_assigned (hscanned : definition.Scanned)
    (h : Assigned frame definition policy (List.replicate definition.outputs.length none) log outputs) {k : Nat}
    {port : PortSpec} (hport : definition.outputs[k]? = some port) :
    match definition.lastAssigned k log with
    | some a => ∃ s, outputs[k]? = some (some s) ∧
        a.value.Gives frame.module port a.before.world.session.design a.after.world.session.design s
    | none => outputs[k]? = some none := by
  have hk := (List.getElem?_eq_some_iff.mp hport).1
  have hgiven := h.given hscanned hport (List.length_replicate.symm ▸ hk)
  rw [List.getElem?_replicate_of_lt hk] at hgiven
  exact hgiven

theorem unconnected_eq_unassigned (hscanned : definition.Scanned)
    (h : Assigned frame definition policy (List.replicate definition.outputs.length none) log outputs) :
    unconnected definition outputs = definition.unassigned log := by
  unfold unconnected Definition.unassigned
  refine filterMap_zip_eq (p := fun k => (definition.lastAssigned k log).isNone) fun k port hport => ?_
  have hslot := slot_of_assigned hscanned h hport
  rw [Nat.zero_add]
  cases hlast : definition.lastAssigned k log with
  | none =>
      rw [hlast] at hslot
      exact ⟨none, hslot, rfl⟩
  | some a =>
      rw [hlast] at hslot
      obtain ⟨s, hs, -⟩ := hslot
      exact ⟨some s, hs, rfl⟩

theorem assigned_of_unassigned_eq_nil (h : definition.unassigned log = []) {k : Nat} {port : PortSpec}
    (hport : definition.outputs[k]? = some port) : ∃ a, definition.lastAssigned k log = some a := by
  have hmem : (port, k) ∈ definition.outputs.zipIdx := List.mk_mem_zipIdx_iff_getElem?.mpr hport
  have hnone := List.filterMap_eq_nil_iff.mp h _ hmem
  cases hlast : definition.lastAssigned k log with
  | some a => exact ⟨a, rfl⟩
  | none =>
      simp only [hlast, Option.isNone_none, if_true] at hnone
      cases hnone

/-- If every output has been assigned, there is a value in every slot. -/
theorem exists_signals (hscanned : definition.Scanned)
    (h : Assigned frame definition policy (List.replicate definition.outputs.length none) log outputs)
    (hlength : outputs.length = definition.outputs.length) (hall : definition.unassigned log = []) :
    ∃ signals, outputs.filterMap id = signals ∧ outputs = signals.map some := by
  refine ⟨_, rfl, ?_⟩
  rw [List.map_filterMap]
  conv_lhs => rw [← List.filterMap_some (l := outputs)]
  refine List.filterMap_congr fun slot hmem => ?_
  obtain ⟨k, hk⟩ := List.mem_iff_getElem?.mp hmem
  have hlt := (List.getElem?_eq_some_iff.mp hk).1
  have hport := List.getElem?_eq_getElem (hlength ▸ hlt : k < definition.outputs.length)
  obtain ⟨a, ha⟩ := assigned_of_unassigned_eq_nil hall hport
  have hslot := slot_of_assigned hscanned h hport
  rw [ha] at hslot
  obtain ⟨s, hs, -⟩ := hslot
  obtain rfl := Option.some.inj (hk.symm.trans hs)
  rfl

end slots

end Generation

namespace Build

variable {definition : Definition (Routine σ Unit)} {policy : ReassignPolicy} {frame : Frame} {r : Running σ}

/-- How a body ends whose routine has come to an outcome. -/
theorem conclude_outputs (h : r.Fills frame definition policy) (ended : Except BuildError Unit) :
    ∃ found, r.world.workspace.library.getDefinition frame.definition = .ok found ∧
      ((∃ e w', (conclude frame r.outputs ended).apply r.world = (.error e, w') ∧
          w'.workspace = r.world.workspace ∧
          (ended = .ok ⟨⟩ → ∀ module ports, e = .unconnectedOutput module ports ↔
            ports ≠ [] ∧ ports = Generation.unconnected definition r.outputs ∧ module = found.name)) ∨
        ended = .ok ⟨⟩ ∧ Generation.unconnected definition r.outputs = [] ∧
          ∃ w', (conclude frame r.outputs ended).apply r.world = (.ok frame.module, w') ∧
            w'.session.design.EndsWith frame.module ((r.outputs.filterMap id).map (·.value))) := by
  obtain ⟨found, hfound, halike⟩ := h.defined
  have hunconnected : Generation.unconnected found r.outputs = Generation.unconnected definition r.outputs := by
    obtain ⟨parameters, rfl⟩ := halike.exists_parameters
    rfl
  have hdiscard := discard_apply (α := ModuleId)
    (w := { r.world with session := r.world.session.leave frame.definition }) hfound frame.module
  refine ⟨found, hfound, ?_⟩
  rw [conclude_apply]
  cases ended with
  | error e => exact Or.inl ⟨e, _, hdiscard e, rfl, fun hok => by cases hok⟩
  | ok _ =>
      have hterminate : (Generation.terminate frame (.ok ⟨⟩)).apply ⟨r.world, r.outputs⟩ = _ :=
        Generation.finish_apply (r := r) hfound
      rw [hterminate, hunconnected]
      by_cases hall : (Generation.unconnected definition r.outputs).isEmpty = true
      case neg =>
        rw [if_neg hall]
        refine Or.inl ⟨_, _, hdiscard _, rfl, fun _ module ports => ?_⟩
        rw [BuildError.unconnectedOutput.injEq]
        constructor
        · rintro ⟨rfl, rfl⟩
          exact ⟨fun hnil => hall (List.isEmpty_iff.mpr hnil), rfl, rfl⟩
        · rintro ⟨-, rfl, rfl⟩
          exact ⟨rfl, rfl⟩
      case pos =>
        rw [if_pos hall]
        have hnone := List.isEmpty_iff.mp hall
        rw [Generation.apply_edit]
        rcases Edit.output_cases (r.outputs.filterMap id) r.world.session.design with
          ⟨e, he⟩ | ⟨parent, design, here, happ, hok⟩
        · rw [he]
          refine Or.inl ⟨.ir e, _, hdiscard (.ir e), rfl, fun _ module ports => ?_⟩
          rw [hnone]
          exact ⟨fun hir => (by cases hir), fun ⟨hne, hnil, _⟩ => absurd hnil hne⟩
        · rw [hok]
          obtain rfl := Option.some.inj (h.here.symm.trans here)
          exact Or.inr ⟨rfl, hnone, _, rfl, happ.endsWith⟩

end Build

/-! ### Generators -/

/-- What a generator of the definition has made of the outputs, by the attempts it has made, by the outcome of its
routine, and by what has become of the module. -/
structure OutputsAssigned (frame : Frame) (definition : Definition (Routine σ Unit)) (policy : ReassignPolicy)
    (log : List (Assignment σ)) (ended : Except BuildError Unit) (made : Except BuildError ModuleId × World σ) :
    Prop where
  /-- An attempt that is refused changes neither the slots nor anything else. -/
  refused : ∀ a ∈ log, a.outcome.isOk = false → a.after = a.before
  /-- If second assignments are denied, only the first attempt that succeeds does, and any later one that could
  is told so. -/
  denied : policy = .deny → ∀ k port earlier a later, definition.outputs[k]? = some port →
    log = earlier ++ a :: later → a.assigns definition k = true →
      (∀ b ∈ earlier, b.assigns definition k = false) ∧
        ∀ b ∈ later, b.assigns definition k = false ∧
          (b.target.means definition k = true → b.value.Assignable port → b.IsDenied frame port)
  /-- A finished body ends with what each output has been given last. -/
  completed : ∀ id, made.1 = .ok id → id = frame.module ∧
    ∃ values, made.2.session.design.EndsWith frame.module values ∧
      values.length = definition.outputs.length ∧
      ∀ k port, definition.outputs[k]? = some port → ∃ a s, definition.lastAssigned k log = some a ∧
        a.value.Gives frame.module port a.before.world.session.design a.after.world.session.design s ∧
        values[k]? = some s.value
  /-- If the routine has not failed itself, just the outputs that have not been assigned are named. -/
  unconnected : ended = .ok ⟨⟩ → ∀ module ports, made.1 = .error (.unconnectedOutput module ports) ↔
    ports ≠ [] ∧ ports = definition.unassigned log ∧
      ∃ found, made.2.workspace.library.getDefinition frame.definition = .ok found ∧ module = found.name

/-- The body of a module has been entered, and its routine is about to run. -/
theorem Build.fills_of_prepare {w w' : World σ} {d : DefId} {frame : Frame} {routine : Routine σ Unit}
    (hw : w.session.Coherent) (enters : (prepare d).apply w = (.ok (frame, routine), w'))
    {definition : Definition (Routine σ Unit)}
    (hd : w.workspace.library.getDefinition d = .ok definition) {outputs : List (Option Signal)}
    (hlength : outputs.length = definition.outputs.length) :
    Running.Fills frame definition w.session.config.reassign ⟨w', outputs⟩ := by
  obtain ⟨hworkspace, hdefinition, -, name, hopens⟩ := prepare_opens enters
  have hopened := hopens _ (refl_of Library.Extends _)
  constructor
  case coherent => exact hw.opens hopened
  case here => exact (prepare_runs enters).2
  case policy_eq => exact congrArg Config.reassign hopened.config_eq
  case length_eq => exact hlength
  case defined =>
    rw [hdefinition, hworkspace]
    exact ⟨definition, hd, rfl⟩

/-- What the attempts of a routine come to when its body is ended. -/
theorem Build.conclude_assigned {frame : Frame} {definition : Definition (Routine σ Unit)} {policy : ReassignPolicy}
    {r : Running σ} {log : List (Assignment σ)} (hscanned : definition.Scanned) (h : r.Fills frame definition policy)
    (hassigned : Assigned frame definition policy (List.replicate definition.outputs.length none) log r.outputs)
    (ended : Except BuildError Unit) :
    OutputsAssigned frame definition policy log ended ((conclude frame r.outputs ended).apply r.world) := by
  have hunconnected := Generation.unconnected_eq_unassigned hscanned hassigned
  obtain ⟨found, hfound, hends⟩ := conclude_outputs h ended
  rw [hunconnected] at hends
  constructor
  case refused => exact hassigned.refused
  case denied =>
    rintro rfl k port earlier a later hport hsplit hassigns
    have hk := (List.getElem?_eq_some_iff.mp hport).1
    exact hassigned.once hscanned hport (List.length_replicate.symm ▸ hk) hsplit hassigns
  case completed =>
    intro id hid
    rcases hends with ⟨e, w', he, -⟩ | ⟨-, hall, w', hok, hend⟩
    · rw [he] at hid
      cases hid
    rw [hok] at hid ⊢
    obtain ⟨signals, hsignals, hslots⟩ := Generation.exists_signals hscanned hassigned h.length_eq hall
    rw [hsignals] at hend
    refine ⟨(Except.ok.inj hid).symm, _, hend, ?_, fun k port hport => ?_⟩
    · rw [List.length_map, ← h.length_eq, hslots, List.length_map]
    · obtain ⟨a, ha⟩ := Generation.assigned_of_unassigned_eq_nil hall hport
      have hslot := Generation.slot_of_assigned hscanned hassigned hport
      rw [ha] at hslot
      obtain ⟨s, hs, hgives⟩ := hslot
      rw [hslots, List.getElem?_map] at hs
      obtain ⟨s', hs', hsome⟩ := Option.map_eq_some_iff.mp hs
      obtain rfl := Option.some.inj hsome
      refine ⟨a, s', ha, hgives, ?_⟩
      rw [List.getElem?_map, hs']
      rfl
  case unconnected =>
    intro hok module ports
    rcases hends with ⟨e, w', he, hworkspace, hnames⟩ | ⟨-, hall, w', hmade, -⟩
    · rw [he, hworkspace, Except.error.injEq, hnames hok module ports]
      refine and_congr_right fun _ => and_congr_right fun _ => ⟨fun hname => ⟨found, hfound, hname⟩, ?_⟩
      rintro ⟨found', hfound', rfl⟩
      exact congrArg _ (Except.ok.inj (hfound'.symm.trans hfound))
    · rw [hmade, hall]
      exact ⟨fun herror => (by cases herror), fun ⟨hne, hnil, _⟩ => absurd hnil hne⟩

/-- **Outputs are what has been assigned to them.**  Whatever a generator does, an attempt to assign an output that
is refused changes nothing; a finished body ends with what each output has been given last, which if second
assignments are denied is the only thing it has been given; and a routine that has not failed itself is told just
of those outputs that it has not assigned, in the order of the ports.

Where several outputs are assigned at once, the attempts are those of setting each of them by its name, in the order
given and up to the first that is refused, whether the routine swallows this error or not. -/
theorem outputs_assigned {config : Config} {workspace : Workspace σ} {w w' : World σ}
    (h : World.Becomes ⟨workspace, .ofConfig config⟩ w) {d : DefId} {frame : Frame} {routine : Routine σ Unit}
    (enters : (Build.prepare d).apply w = (.ok (frame, routine), w')) {spec : DefinitionSpec (Routine σ Unit)}
    {original definition : Definition (Routine σ Unit)} (made : Definition.ofSpec spec = .ok original)
    (alike : original.Alike definition) (hd : w.workspace.library.getDefinition d = .ok definition) (depth : Nat) :
    let start : Running σ := ⟨w', List.replicate definition.outputs.length none⟩
    OutputsAssigned frame definition config.reassign
        (Generation.assignments (Build.materializeWithin depth) (Supply.call depth) frame routine start)
        ((Generation.run (Build.materializeWithin depth) (Supply.call depth) frame routine).apply start).1
        ((Build.materializeWithin (depth + 1) d).apply w) ∧
      ∀ values (r : Running σ), ∃ log outcome r', SetsInTurn frame values r log outcome r' ∧
        Generation.Performs (Build.materializeWithin depth) (Supply.call depth) frame (Routine.setOutputs values)
          r log outcome r' := by
  intro start
  refine ⟨?_, fun values r => ⟨_, _, _, Generation.setOutputs_inTurn _ _ frame values r,
    Generation.performs _ _ frame _ r⟩⟩
  have hregular := World.Becomes.regular h (World.regular_start workspace config)
  have hscanned := alike.scanned (Definition.ofSpec_eq_ok made).1
  have hfills : start.Fills frame definition config.reassign :=
    h.config_eq ▸ Build.fills_of_prepare hregular.coherent enters hd List.length_replicate
  have hcount : definition.table.outputCount = definition.outputs.length := by
    obtain ⟨_, hreads⟩ := hscanned.interface
    rw [hscanned.table]
    exact hreads.outputCount_eq
  have hmaterialize := Build.materializeWith_eq_conclude (Build.materializeWithin depth) (Supply.call depth) enters hd
  rw [hcount] at hmaterialize
  obtain ⟨hended, hassigned⟩ := Generation.run_assigned (Build.materializeWithin_sound depth) (Build.call_sound depth)
    hscanned routine hfills
  have hlast : (Build.materializeWithin (depth + 1) d).apply w = _ := hmaterialize
  rw [hlast]
  exact Build.conclude_assigned hscanned hended hassigned _

/-! ### A stubborn generator -/

namespace Sample

/-- A module that assigns its first output, tries again with its second and with one it does not have, and gives
up on several outputs at the one it does not have. -/
def stubbornSpec : DefinitionSpec (Routine Unit Unit) where
  name := "Stubborn"
  declarations := [
    ("y", .output (.uint 2)),
    ("z", .output (.uint 2)),
    ("build", .generator (do
      Routine.setOutputs [("y", .literal 1)]
      discard (Program.attempt (Routine.set "y" (.literal 2)))
      discard (Program.attempt (Routine.setOutputs [("x", .literal 2), ("z", .literal 2)]))
      discard (Program.attempt (Routine.setAt 1 (.literal 4)))
      Routine.setOutputs [("z", .literal 3)]) .unknown)]

/-- A session in which no output is assigned twice. -/
def strictWorld : World Unit :=
  ⟨((Supply.define stubbornSpec).apply ⟨{}, ()⟩).2, .ofConfig { reassign := .deny }⟩

/-- The attempts of the generator: what it assigns, what it assigns to it, and whether it succeeds. -/
def stubbornAttempts : List (OutputRef × Connection × Bool) :=
  match (Build.prepare ⟨0⟩).apply strictWorld with
  | (.ok (frame, routine), w) =>
    (Generation.assignments (Build.materializeWithin 1) (Supply.call 1) frame routine ⟨w, [none, none]⟩).map
      fun a => (a.target, a.value, a.outcome.isOk)
  | (.error _, _) => []

end Sample

/-- The first output is not assigned twice, nothing is assigned after an output that the module does not have, and
the body ends with the first number for the first output and with the one that fits for the second. -/
theorem outputs_assigned_stubborn :
    (∃ frame routine definition w' log outcome r',
      let start : Running Unit := ⟨w', List.replicate definition.outputs.length none⟩
      let several := [("x", .literal 2), ("z", .literal 2)]
      (Build.prepare ⟨0⟩).apply Sample.strictWorld = (.ok (frame, routine), w') ∧
      OutputsAssigned frame definition .deny
        (Generation.assignments (Build.materializeWithin 1) (Supply.call 1) frame routine start)
        ((Generation.run (Build.materializeWithin 1) (Supply.call 1) frame routine).apply start).1
        ((Build.materializeWithin 2 ⟨0⟩).apply Sample.strictWorld) ∧
      SetsInTurn frame several start log outcome r' ∧
      Generation.Performs (Build.materializeWithin 1) (Supply.call 1) frame (Routine.setOutputs several)
        start log outcome r') ∧
      Sample.stubbornAttempts = [(.named "y", .literal 1, true), (.named "y", .literal 2, false),
        (.named "x", .literal 2, false), (.position 1, .literal 4, false), (.named "z", .literal 3, true)] ∧
      ((Build.materializeWithin 2 ⟨0⟩).apply Sample.strictWorld).1 = .ok ⟨0⟩ ∧
      Sample.operations ((Build.materializeWithin 2 ⟨0⟩).apply Sample.strictWorld).2 ⟨0⟩ =
        [.constant ⟨1, .uint 2, by decide⟩, .constant ⟨3, .uint 2, by decide⟩, .output [⟨0⟩, ⟨1⟩]] := by
  obtain ⟨frame, routine, henters⟩ := Build.prepare_of_isOk
    (d := ⟨0⟩) (w := Sample.strictWorld) (by decide +kernel)
  have hdefined : ((Supply.define Sample.stubbornSpec).apply ⟨{}, ()⟩).1 = .ok ⟨0⟩ := by decide +kernel
  obtain ⟨original, definition, made, alike, hd⟩ := Supply.exists_defined hdefined
    (refl_of Workspace.Extends Sample.strictWorld.workspace)
  obtain ⟨houtputs, hseveral⟩ := outputs_assigned .refl henters made alike hd 1
  obtain ⟨log, outcome, r', hturn, hperforms⟩ := hseveral [("x", .literal 2), ("z", .literal 2)] _
  exact ⟨⟨frame, routine, definition, _, log, outcome, r', henters, houtputs, hturn, hperforms⟩, by decide +kernel⟩

end Wirework
