import Wirework.Proofs.Independence.Plan

/-! # Bodies ended abreast

When two routines that have built bodies abreast have come to an end, either both bodies are finished or both modules
are taken out of their sessions; and if the bodies are finished, one sketch tells what is in both of them
(`Build.conclude_abreast`).

The last operation is refused for its types only (`Edit.output_apply`, `Edit.output_refused`), since the values that
are assigned belong to the body.  Which outputs are left without a value is the same on both sides, as it does not
depend on what the values are (`Generation.unconnected_eq`).  A body that has been ended and left holds what its draft
says with the outputs at its end (`Drafted.close`). -/

namespace Wirework

open Step

variable {ρ σ : Type}

/-! ### The last operation -/

namespace Edit

variable {d : Design} {id : ModuleId} {values : List Signal}

theorem checkOutputs_apply (symbol : String) {ports : List Port}
    (htypes : ports.map (·.type) = values.map (·.type)) (d : Design) :
    Step.apply ((ports.zip values).forM fun (port, value) => checkOutput symbol port value) d = (.ok ⟨⟩, d) := by
  induction ports generalizing values with
  | nil => rfl
  | cons port ports ih =>
      cases values with
      | nil => rfl
      | cons value values =>
          rw [List.map_cons, List.map_cons, List.cons.injEq] at htypes
          rw [List.zip_cons_cons, List.forM_eq_forM, List.forM_cons]
          unfold checkOutput at ih ⊢
          simp only [apply_bind, if_pos htypes.1, apply_pure]
          exact ih htypes.2

theorem checkOutputs_refused (symbol : String) {ports : List Port} (hlength : ports.length = values.length)
    (htypes : ports.map (·.type) ≠ values.map (·.type)) (d : Design) :
    ∃ e, Step.apply ((ports.zip values).forM fun (port, value) => checkOutput symbol port value) d =
      (.error e, d) := by
  induction ports generalizing values with
  | nil =>
      obtain rfl := List.eq_nil_of_length_eq_zero hlength.symm
      exact absurd rfl htypes
  | cons port ports ih =>
      obtain ⟨value, values, rfl⟩ := List.exists_cons_of_length_eq_add_one hlength.symm
      rw [List.zip_cons_cons, List.forM_eq_forM, List.forM_cons]
      unfold checkOutput at ih ⊢
      by_cases htype : port.type = value.type
      · simp only [apply_bind, if_pos htype, apply_pure]
        refine ih (Nat.succ.inj hlength) fun hrest => htypes ?_
        rw [List.map_cons, List.map_cons, htype, hrest]
      · simp only [apply_bind, if_neg htype, apply_throw]
        exact ⟨_, rfl⟩

/-- A body is ended with values of its own that have the types of the outputs. -/
theorem output_apply (h : d.Building id) {m : HwModule} (hm : d.module? id = some m)
    (owned : ∀ v ∈ values.map (·.value), d.owner? v = some id)
    (htypes : m.outputs.map (·.type) = values.map (·.type)) :
    ∃ body, m.body? = some body ∧ (output values).apply d =
      (.ok ⟨⟩, d.append id body (.output (values.map (·.value))) [] .empty d.scopes.location) := by
  have owned' : ∀ v ∈ (Operation.output (values.map (·.value)) : Operation ModuleId ValueId).operands,
      d.owner? v = some id := owned
  obtain ⟨m', body, hm', hbody, _, happly⟩ := insertOp_apply h owned' [] none
  obtain rfl := Option.some.inj (hm.symm.trans hm')
  have hlength : m.outputs.length = values.length := by
    rw [← List.length_map (f := (·.type)), htypes, List.length_map]
  refine ⟨body, hbody, ?_⟩
  unfold output
  simp only [apply_bind, apply_get, h.here, apply_query, Design.getModule_eq_ok_iff.mpr hm, if_pos hlength,
    checkOutputs_apply m.symbol htypes d, apply_discard, happly]
  rfl

theorem output_refused (h : d.Building id) {m : HwModule} (hm : d.module? id = some m)
    (htypes : m.outputs.map (·.type) ≠ values.map (·.type)) :
    ∃ e, (output values).apply d = (.error e, d) := by
  unfold output
  simp only [apply_bind, apply_get, h.here, apply_query, Design.getModule_eq_ok_iff.mpr hm]
  by_cases hlength : m.outputs.length = values.length
  · obtain ⟨e, he⟩ := checkOutputs_refused m.symbol hlength htypes d
    simp only [if_pos hlength, apply_bind, he]
    exact ⟨e, rfl⟩
  · simp only [if_neg hlength, apply_bind, apply_throw]
    exact ⟨_, rfl⟩

end Edit

/-- What is in the body once it has been ended with the values at the given positions. -/
def Draft.close (draft : Draft) (positions : List Nat) : List SketchOp :=
  draft.ops ++ [⟨.output positions, [], .empty, draft.location⟩]

namespace Session.Drafted

variable {s : Session} {definition : Definition ρ} {frame : Frame} {locals : List ValueId} {draft : Draft}

/-- A body that has been ended and left holds what has been drafted. -/
theorem close (h : s.Drafted definition frame locals draft) {m : HwModule} {body : Body}
    (hm : s.design.module? frame.module = some m) (hbody : m.body? = some body) {values : List ValueId}
    {positions : List Nat}
    (hvalues : List.Forall₂ (fun v position => locals[position]? = some v) values positions) :
    let design := s.design.append frame.module body (.output values) [] .empty s.design.scopes.location
    s.design.Appends frame.module (.output values) design ∧
      (Session.leave { s with design } frame.definition).Shows definition frame.module
        (.body (draft.close positions)) := by
  intro design
  obtain ⟨m', ops, hm', hheader, hbody', hsketched⟩ := h.body
  obtain rfl := Option.some.inj (hm.symm.trans hm')
  obtain rfl := Option.some.inj (hbody.symm.trans hbody')
  let drawn : SketchOp := ⟨.output positions, [], .empty, s.design.scopes.location⟩
  have hoperation : (Operation.output values).Corresponds (Function.swap s.MadeFor)
      (fun v position => locals[position]? = some v) drawn.operation := .output hvalues
  have happ : s.design.Appends frame.module (.output values) design :=
    .intro hm hbody rfl (h.owned hoperation) _ _ _
  have hclosed : design.Sketched s.MadeFor (ops.toList ++ [s.design.nextOp]) frame.arguments
      (draft.ops ++ [drawn]) (locals ++ s.design.nextValues 0) := hsketched.extend happ hoperation
  let ended : Body := { arguments := frame.arguments, ops := ops.push s.design.nextOp, terminated := true }
  have hself : design.module? frame.module = some { m with kind := .generated (some ended) } := by
    rw [Design.module?_append, if_pos rfl, hm]
    rfl
  refine ⟨happ, _, hself, hheader, ?_⟩
  unfold Draft.close
  rw [← h.location]
  have hleft : (Session.leave { s with design } frame.definition).design.Sketched
      (Session.leave { s with design } frame.definition).MadeFor (ops.push s.design.nextOp).toList frame.arguments
      (draft.ops ++ [drawn]) (locals ++ s.design.nextValues 0) := by
    rw [Array.toList_push]
    -- Neither the operations nor the values depend on the scopes that have been left.
    refine hclosed.mono (fun _ _ _ hop => hop) (fun _ _ htype => htype) fun c id made => ?_
    exact ⟨made.1, fun hmem => made.2 (List.mem_of_mem_filter hmem)⟩
  exact .body rfl hleft (h.values.append happ rfl).nodup

end Session.Drafted

/-! ### Ending -/

section ending

variable {g : Setting σ} {definition : Definition (Routine σ Unit)} {f₁ f₂ : Frame}
  {k : List (ValueId × ValueId)}

/-- The end of a routine finishes its module, which then holds what is sketched. -/
def Running.Finishes (frame : Frame) (definition : Definition (Routine σ Unit)) (contents : SketchContents)
    (r : Running σ) : Prop :=
  ∃ values design, r.world.session.design.Appends frame.module (.output values) design ∧
    (Generation.finish frame).apply r = (.ok ⟨⟩, { r with world.session.design := design }) ∧
    (Session.leave { r.world.session with design } frame.definition).Shows definition frame.module contents

section single

variable {frame : Frame} {locals : List ValueId} {draft : Draft} {r : Running σ} {values : List Signal}

theorem Session.Drafted.exists_outputs {s : Session} (h : s.Drafted definition frame locals draft) :
    ∃ m, s.design.module? frame.module = some m ∧ m.outputs = definition.outputPorts := by
  obtain ⟨m, _, hm, hheader, _⟩ := h.body
  have houtputs : m.header.outputs = (Compile.plainModule definition m.symbol).header.outputs :=
    congrArg HwModule.outputs hheader
  exact ⟨m, hm, houtputs.trans (Compile.plainModule_outputs _ _)⟩

theorem Session.Drafted.finishes (h : r.world.session.Drafted definition frame locals draft)
    (hfinish : (Generation.finish frame).apply r = (Generation.edit (Edit.output values)).apply r)
    (htypes : definition.outputPorts.map (·.type) = values.map (·.type)) {positions : List Nat}
    (hpositions : List.Forall₂ (fun v position => locals[position]? = some v) (values.map (·.value)) positions) :
    r.Finishes frame definition (.body (draft.close positions)) := by
  obtain ⟨m, hm, houtputs⟩ := h.exists_outputs
  have owned := h.owned (Operation.Corresponds.output (R := Function.swap r.world.session.MadeFor) hpositions)
  obtain ⟨body, hbody, happly⟩ := Edit.output_apply h.building hm owned (houtputs ▸ htypes)
  obtain ⟨happ, hshows⟩ := h.close hm hbody hpositions
  refine ⟨_, _, happ, ?_, hshows⟩
  rw [hfinish]
  simp only [Generation.edit, Generation.build, Build.edit, Build.compile, Compile.edit, apply_zoom, apply_mapError,
    happly]
  rfl

theorem Session.Drafted.refuses (h : r.world.session.Drafted definition frame locals draft)
    (hfinish : (Generation.finish frame).apply r = (Generation.edit (Edit.output values)).apply r)
    (htypes : definition.outputPorts.map (·.type) ≠ values.map (·.type)) :
    ∃ e, (Generation.finish frame).apply r = (.error e, r) := by
  obtain ⟨m, hm, houtputs⟩ := h.exists_outputs
  obtain ⟨e, he⟩ := Edit.output_refused h.building hm (houtputs ▸ htypes)
  refine ⟨.ir e, ?_⟩
  rw [hfinish]
  simp only [Generation.edit, Generation.build, Build.edit, Build.compile, Compile.edit, apply_zoom, apply_mapError,
    he]
  rfl

end single

theorem Generation.unconnected_eq {R : Signal → Signal → Prop} (d : Definition (Routine σ Unit))
    {as bs : List (Option Signal)} (h : List.Forall₂ (Option.Rel R) as bs) :
    unconnected d as = unconnected d bs := by
  unfold unconnected
  generalize d.outputs = ports
  induction h generalizing ports with
  | nil => rfl
  | @cons a b as bs hab _ ih =>
      cases ports with
      | nil => rfl
      | cons port ports =>
          have hnone : a.isNone = b.isNone := by cases hab <;> rfl
          simp only [List.zip_cons_cons, List.filterMap_cons, hnone, ih]

theorem Generation.finish_abreast {r₁ r₂ : Running σ} (hr : Running.Abreast g definition f₁ f₂ k r₁ r₂) :
    (∃ e₁ e₂, (finish f₁).apply r₁ = (.error e₁, r₁) ∧ (finish f₂).apply r₂ = (.error e₂, r₂)) ∨
      ∃ contents, r₁.Finishes f₁ definition contents ∧ r₂.Finishes f₂ definition contents := by
  have hfinish₁ := finish_apply hr.world.definition₁
  have hfinish₂ := finish_apply hr.world.definition₂
  rw [← unconnected_eq definition hr.outputs] at hfinish₂
  by_cases hall : (unconnected definition r₁.outputs).isEmpty = true
  case neg =>
    rw [if_neg hall] at hfinish₁ hfinish₂
    exact Or.inl ⟨_, _, hfinish₁, hfinish₂⟩
  rw [if_pos hall] at hfinish₁ hfinish₂
  have hvalues : List.Forall₂ (Signal.Matches k) (r₁.outputs.filterMap id) (r₂.outputs.filterMap id) :=
    List.rel_filterMap (fun _ _ hab => hab) hr.outputs
  generalize r₁.outputs.filterMap id = values₁ at hvalues hfinish₁
  generalize r₂.outputs.filterMap id = values₂ at hvalues hfinish₂
  have htypes : values₁.map (·.type) = values₂.map (·.type) := by
    refine List.forall₂_eq_eq_eq ▸ ?_
    rw [List.forall₂_map_left_iff, List.forall₂_map_right_iff]
    exact hvalues.imp fun _ _ hab => hab.type
  obtain ⟨positions, hpositions₁, hpositions₂⟩ : ∃ positions : List Nat,
      List.Forall₂ (fun v position => (k.map Prod.fst)[position]? = some v) (values₁.map (·.value)) positions ∧
        List.Forall₂ (fun v position => (k.map Prod.snd)[position]? = some v) (values₂.map (·.value)) positions := by
    refine exists_forall₂_common (R := fun a b => (a, b) ∈ k) (fun _ _ => exists_position) ?_
    rw [List.forall₂_map_left_iff, List.forall₂_map_right_iff]
    exact hvalues.imp fun _ _ hab => hab.value
  obtain ⟨draft, hdraft₁, hdraft₂⟩ := hr.world.drafted
  by_cases hfit : definition.outputPorts.map (·.type) = values₁.map (·.type)
  · exact Or.inr ⟨.body (draft.close positions), hdraft₁.finishes hfinish₁ hfit hpositions₁,
      hdraft₂.finishes hfinish₂ (hfit.trans htypes) hpositions₂⟩
  · obtain ⟨e₁, he₁⟩ := hdraft₁.refuses hfinish₁ hfit
    obtain ⟨e₂, he₂⟩ := hdraft₂.refuses hfinish₂ (htypes ▸ hfit)
    exact Or.inl ⟨e₁, e₂, he₁, he₂⟩

/-- How a body comes out once its routine has ended: its module is finished and holds what is sketched, or it is taken
out of the session. -/
inductive World.ComesOut (frame : Frame) (definition : Definition (Routine σ Unit)) (w : World σ) :
    Option SketchContents → Except BuildError ModuleId × World σ → Prop
  | finished {values : List ValueId} {design : Design} {contents : SketchContents}
      (ends : w.session.design.Appends frame.module (.output values) design)
      (holds : (Session.leave { w.session with design } frame.definition).Shows definition frame.module contents) :
      ComesOut frame definition w (some contents)
        (.ok frame.module, ⟨w.workspace, Session.leave { w.session with design } frame.definition⟩)
  | discarded (e : BuildError) (name : String) :
      ComesOut frame definition w none
        (.error e, ⟨w.workspace, (w.session.leave frame.definition).drop frame.definition name frame.module⟩)

namespace Build

theorem conclude_finished {frame : Frame} {contents : SketchContents} {r : Running σ}
    (h : r.Finishes frame definition contents) :
    r.world.ComesOut frame definition (some contents) ((conclude frame r.outputs (.ok ⟨⟩)).apply r.world) := by
  obtain ⟨values, design, ends, hfinish, holds⟩ := h
  have hterminate : (Generation.terminate frame (.ok ⟨⟩)).apply r = _ := hfinish
  rw [conclude_apply, hterminate]
  exact .finished ends holds

theorem conclude_discarded {frame : Frame} {ended : Except BuildError Unit} {r : Running σ}
    (hd : r.world.workspace.library.getDefinition frame.definition = .ok definition) {e : BuildError}
    (hterminate : (Generation.terminate frame ended).apply r = (.error e, r)) :
    r.world.ComesOut frame definition none ((conclude frame r.outputs ended).apply r.world) := by
  have hdiscard := discard_apply (α := ModuleId)
    (w := { r.world with session := r.world.session.leave frame.definition }) hd frame.module e
  rw [conclude_apply, hterminate]
  dsimp only
  rw [hdiscard]
  exact .discarded e definition.name

/-- Bodies that have been built abreast come out alike. -/
theorem conclude_abreast {r₁ r₂ : Running σ} (hr : Running.Abreast g definition f₁ f₂ k r₁ r₂)
    {ended₁ ended₂ : Except BuildError Unit} (hended : Agree (fun _ _ => True) ended₁ ended₂) :
    ∃ contents?, r₁.world.ComesOut f₁ definition contents? ((conclude f₁ r₁.outputs ended₁).apply r₁.world) ∧
      r₂.world.ComesOut f₂ definition contents? ((conclude f₂ r₂.outputs ended₂).apply r₂.world) := by
  have hd₁ := hr.world.definition₁
  have hd₂ := hr.world.definition₂
  cases hended with
  | error e₁ e₂ => exact ⟨none, conclude_discarded hd₁ rfl, conclude_discarded hd₂ rfl⟩
  | ok _ =>
      rcases Generation.finish_abreast hr with ⟨e₁, e₂, he₁, he₂⟩ | ⟨contents, h₁, h₂⟩
      · exact ⟨none, conclude_discarded hd₁ he₁, conclude_discarded hd₂ he₂⟩
      · exact ⟨some contents, conclude_finished h₁, conclude_finished h₂⟩

end Build

end ending

end Wirework
