import Wirework.Proofs.Independence.Abreast

/-! # Ports abreast

While two routines build bodies abreast, the input ports give signals that stand for each other, and the values
assigned to the output ports stand for each other as well (`Running.Abreast`).

* **Inputs.**  The block arguments of the two bodies stand at the same positions, so what is read from a port has one
  position in the draft.
* **Outputs.**  A connection suits a port or not by its type, which is the same on both sides
  (`Connection.Matches.check_eq`).  An assignment is therefore refused on one side just if it is refused on the other.
  The warnings that a second assignment may lead to are not compared: they are not part of what is built. -/

namespace Wirework

open Step

variable {σ : Type}

/-! ### Connections -/

section connections

variable {k : List (ValueId × ValueId)} {a b : Connection}

theorem Connection.Matches.check_eq (h : a.Matches k b) (module : String) (port : PortSpec) :
    a.check module port = b.check module port := by
  cases h with
  | signal matching => simp only [Connection.check, matching.type]
  | literal value => rfl
  | absent => rfl

theorem Connection.Matches.absent_iff (h : a.Matches k b) : a = .absent ↔ b = .absent := by
  cases h <;> simp

end connections

/-! ### Running routines -/

/-- The routines build bodies abreast, and what they have assigned stands for each other. -/
structure Running.Abreast (g : Setting σ) (definition : Definition (Routine σ Unit)) (f₁ f₂ : Frame)
    (k : List (ValueId × ValueId)) (r₁ r₂ : Running σ) : Prop where
  world : World.Abreast g definition f₁ f₂ k r₁.world r₂.world
  outputs : List.Forall₂ (Option.Rel (Signal.Matches k)) r₁.outputs r₂.outputs

namespace Generation

variable {g : Setting σ} {definition : Definition (Routine σ Unit)} {f₁ f₂ : Frame}
  {k : List (ValueId × ValueId)} {r₁ r₂ : Running σ} {α β : Type}
  {R : List (ValueId × ValueId) → α → β → Prop}

theorem lockstep_build {x : Build σ α} {y : Build σ β}
    (hr : Running.Abreast g definition f₁ f₂ k r₁ r₂)
    (h : Lockstep (World.Abreast g definition f₁ f₂) (fun k a b _ _ => R k a b) x y k r₁.world r₂.world) :
    Lockstep (Running.Abreast g definition f₁ f₂) (fun k a b _ _ => R k a b) (build x) (build y) k r₁ r₂ := by
  refine Lockstep.zoom (h.mono (fun k' w₁ w₂ hk hI => ⟨hI, ?_⟩) fun _ _ _ _ _ _ _ hQ => hQ)
  exact hr.outputs.imp fun _ _ => optionRel_mono fun _ _ => Signal.Matches.mono hk

theorem lockstep_edit {x : Edit α} {y : Edit β} (hr : Running.Abreast g definition f₁ f₂ k r₁ r₂)
    (h : Lockstep (World.AbreastOver g definition f₁ f₂ r₁.world r₂.world) (fun k a b _ _ => R k a b) x y k
      r₁.world.session.design r₂.world.session.design) :
    Lockstep (Running.Abreast g definition f₁ f₂) (fun k a b _ _ => R k a b) (edit x) (edit y) k r₁ r₂ :=
  lockstep_build hr (Build.lockstep_edit h)

theorem ownDefinition_lockstep (h : Running.Abreast g definition f₁ f₂ k r₁ r₂) :
    Lockstep (Running.Abreast g definition f₁ f₂) (fun _ a b _ _ => a = definition ∧ b = definition)
      (ownDefinition f₁) (ownDefinition f₂) k r₁ r₂ :=
  lockstep_of_apply (congrArg (·, r₁) h.world.definition₁) (congrArg (·, r₂) h.world.definition₂)
    (List.prefix_refl k) h (.ok ⟨rfl, rfl⟩)

theorem unknownPort_lockstep (h : Running.Abreast g definition f₁ f₂ k r₁ r₂)
    (Q : List (ValueId × ValueId) → α → β → Running σ → Running σ → Prop)
    (d : Definition (Routine σ Unit)) (port : String) :
    Lockstep (Running.Abreast g definition f₁ f₂) Q (unknownPort d port) (unknownPort d port) k r₁ r₂ :=
  lockstep_throw h Q _ _

/-! ### Inputs -/

theorem argument_lockstep (h : Running.Abreast g definition f₁ f₂ k r₁ r₂) (index : Nat) :
    Lockstep (Running.Abreast g definition f₁ f₂) (fun k a b _ _ => (a, b) ∈ k) (argument f₁ index)
      (argument f₂ index) k r₁ r₂ := by
  have hargument := h.world.argument index
  unfold argument
  generalize f₁.arguments[index]? = a at hargument ⊢
  generalize f₂.arguments[index]? = b at hargument ⊢
  cases hargument with
  | none => exact lockstep_throw h _ _ _
  | some hab => exact lockstep_pure h hab

theorem inputAt_lockstep (h : Running.Abreast g definition f₁ f₂ k r₁ r₂) (index : Nat) :
    Lockstep (Running.Abreast g definition f₁ f₂) (fun k a b _ _ => a.Matches k b) (inputAt f₁ index)
      (inputAt f₂ index) k r₁ r₂ := by
  unfold inputAt
  refine (ownDefinition_lockstep h).bind fun k₁ a b s t _ h₁ hread => ?_
  obtain ⟨rfl, rfl⟩ := hread
  cases b.inputs[index]? with
  | none => exact unknownPort_lockstep h₁ _ b _
  | some port =>
      refine (argument_lockstep h₁ index).bind fun k₂ a' b' s' t' _ h₂ hvalue => lockstep_pure h₂ ?_
      cases b.table.isClock index <;> exact ⟨hvalue, rfl⟩

theorem input_lockstep (h : Running.Abreast g definition f₁ f₂ k r₁ r₂) (port : String) :
    Lockstep (Running.Abreast g definition f₁ f₂) (fun k a b _ _ => a.Matches k b) (input f₁ port)
      (input f₂ port) k r₁ r₂ := by
  unfold input
  refine (ownDefinition_lockstep h).bind fun k₁ a b s t _ h₁ hread => ?_
  obtain ⟨rfl, rfl⟩ := hread
  cases b.table.inputIndex? port with
  | none => exact unknownPort_lockstep h₁ _ b _
  | some index => exact inputAt_lockstep h₁ index

theorem clock_lockstep (h : Running.Abreast g definition f₁ f₂ k r₁ r₂) (port : String) :
    Lockstep (Running.Abreast g definition f₁ f₂) (fun k a b _ _ => a.signal.Matches k b.signal)
      (clock f₁ port) (clock f₂ port) k r₁ r₂ := by
  unfold clock
  refine (ownDefinition_lockstep h).bind fun k₁ a b s t _ h₁ hread => ?_
  obtain ⟨rfl, rfl⟩ := hread
  cases b.table.inputIndex? port with
  | none => exact unknownPort_lockstep h₁ _ b _
  | some index =>
      refine Lockstep.guard h₁ Iff.rfl fun _ => ?_
      refine (argument_lockstep h₁ index).bind fun k₂ a' b' s' t' _ h₂ hvalue => ?_
      exact lockstep_pure h₂ ⟨hvalue, rfl⟩

/-! ### Outputs -/

theorem outputSignal_lockstep {w₁ w₂ : World σ} {d₁ d₂ : Design}
    (h : World.AbreastOver g definition f₁ f₂ w₁ w₂ k d₁ d₂) (port : PortSpec) {value₁ value₂ : Connection}
    (hvalue : value₁.Matches k value₂) :
    Lockstep (World.AbreastOver g definition f₁ f₂ w₁ w₂)
      (fun k a b _ _ => Option.Rel (Signal.Matches k) a b) (outputSignal port value₁)
      (outputSignal port value₂) k d₁ d₂ := by
  cases hvalue with
  | signal matching => exact lockstep_pure h (.some matching)
  | absent => exact lockstep_pure h .none
  | literal value =>
      refine (Edit.constant_lockstep h port.type value).bind fun k₁ a b s t _ h₁ hsignal => ?_
      exact lockstep_pure h₁ (.some hsignal)

theorem warn_lockstep (h : Running.Abreast g definition f₁ f₂ k r₁ r₂) (warning : Warning) :
    Lockstep (Running.Abreast g definition f₁ f₂) (fun _ _ _ _ _ => True)
      (build (Build.compile (Compile.warn warning))) (build (Build.compile (Compile.warn warning))) k r₁ r₂ := by
  obtain ⟨draft, hdraft₁, hdraft₂⟩ := h.world.drafted
  have hworld := { h.world with
    ready₁ := h.world.ready₁.edits (.warn (r₁.world.session.warnings ++ [warning]))
    ready₂ := h.world.ready₂.edits (.warn (r₂.world.session.warnings ++ [warning]))
    drafted := ⟨draft, { hdraft₁ with }, { hdraft₂ with }⟩ }
  exact lockstep_of_apply rfl rfl (List.prefix_refl k) ⟨hworld, h.outputs⟩ (.ok trivial)

theorem setOutput_lockstep (h : Running.Abreast g definition f₁ f₂ k r₁ r₂) (index : Nat)
    {signal₁ signal₂ : Option Signal} (hsignal : Option.Rel (Signal.Matches k) signal₁ signal₂) :
    Lockstep (Running.Abreast g definition f₁ f₂) (fun _ _ _ _ _ => True)
      (modify fun r : Running σ => { r with outputs := r.outputs.set index signal₁ } : Generation σ PUnit)
      (modify fun r : Running σ => { r with outputs := r.outputs.set index signal₂ } : Generation σ PUnit)
      k r₁ r₂ :=
  lockstep_modify ⟨h.world, forall₂_set h.outputs hsignal index⟩

theorem setAt_lockstep (h : Running.Abreast g definition f₁ f₂ k r₁ r₂) (index : Nat)
    {value₁ value₂ : Connection} (hvalue : value₁.Matches k value₂) :
    Lockstep (Running.Abreast g definition f₁ f₂) (fun _ _ _ _ _ => True) (setAt f₁ index value₁)
      (setAt f₂ index value₂) k r₁ r₂ := by
  unfold setAt
  refine (ownDefinition_lockstep h).bind fun k₁ a b s t hk₁ h₁ hread => ?_
  obtain ⟨rfl, rfl⟩ := hread
  cases b.outputs[index]? with
  | none => exact unknownPort_lockstep h₁ _ b _
  | some port =>
      refine Lockstep.guard_not h₁ hvalue.absent_iff fun _ => ?_
      rw [hvalue.check_eq]
      refine (lockstep_sameOutcome h₁ _).bind fun k₂ _ _ s t hk₂ h₂ _ => ?_
      refine (lockstep_get h₂).bind fun k₃ e₁ e₂ s t hk₃ h₃ hread => ?_
      have hpresent := optionRel_getElem? hread.1.outputs index
      generalize e₁.outputs[index]? = present₁ at hpresent ⊢
      generalize e₂.outputs[index]? = present₂ at hpresent ⊢
      cases hpresent with
      | none => exact lockstep_throw h₃ _ _ _
      | @some present₁ present₂ hpresent =>
          refine (lockstep_get h₃).bind fun k₄ e₁ e₂ s t hk₄ h₄ hread => ?_
          have hsome : present₁.isSome = present₂.isSome := by cases hpresent <;> rfl
          have hpolicy : e₁.world.session.config = e₂.world.session.config :=
            hread.1.world.ready₁.config_eq.trans hread.1.world.ready₂.config_eq.symm
          simp only [hsome, hpolicy]
          refine Lockstep.guard_not h₄ Iff.rfl fun _ => ?_
          have hvalue₄ := hvalue.mono (((hk₁.trans hk₂).trans hk₃).trans hk₄)
          refine (lockstep_edit h₄ (outputSignal_lockstep h₄.world port hvalue₄)).bind
            fun k₅ signal₁ signal₂ s t hk₅ h₅ hsignal => ?_
          by_cases hwarn : present₂.isSome = true ∧ e₂.world.session.config.reassign = .warn
          · simp only [if_pos hwarn]
            refine (warn_lockstep h₅ _).bind fun k₆ _ _ s t hk₆ h₆ _ => ?_
            exact setOutput_lockstep h₆ index (optionRel_mono (fun _ _ => Signal.Matches.mono hk₆) hsignal)
          · simp only [if_neg hwarn]
            exact setOutput_lockstep h₅ index hsignal

theorem set_lockstep (h : Running.Abreast g definition f₁ f₂ k r₁ r₂) (port : String)
    {value₁ value₂ : Connection} (hvalue : value₁.Matches k value₂) :
    Lockstep (Running.Abreast g definition f₁ f₂) (fun _ _ _ _ _ => True) (set f₁ port value₁)
      (set f₂ port value₂) k r₁ r₂ := by
  unfold set
  refine (ownDefinition_lockstep h).bind fun k₁ a b s t hk₁ h₁ hread => ?_
  obtain ⟨rfl, rfl⟩ := hread
  cases b.table.outputIndex? port with
  | none => exact unknownPort_lockstep h₁ _ b _
  | some index => exact setAt_lockstep h₁ index (hvalue.mono hk₁)

end Generation

end Wirework
