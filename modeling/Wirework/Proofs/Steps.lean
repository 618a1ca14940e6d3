import Mathlib.Data.List.Forall2
import Mathlib.Order.Defs.Unbundled
import Wirework.Step

/-! # Where steps lead

`step.Leads R Q s` says how a step started in the state `s` ends: it leaves a state behind that `R` relates to `s`,
whether it is refused or not, and a result that it gives satisfies `Q` in that state.  The rules below follow the ways
in which steps are put together.  `R` has to be a preorder, since a sequence of steps passes through states in
between; what the first step of a sequence gives is known to the second through `Q` (`Leads.bind`).

`Spared fault outcome` says of an outcome that it is none of the errors that are faults, and `step.Avoids fault s`
says so of a step started in the state `s`.  The rules are of the same shape: a sequence avoids a fault if its first
step does and if the second does wherever the first can lead (`Step.Avoids.bind`). -/

namespace Wirework

/-! ## Where steps lead -/

namespace Step

variable {ε ε' S T α β : Type}

/-- How a step started in `s` ends. -/
structure Leads (R : S → S → Prop) (Q : α → S → Prop) (step : Step ε S α) (s : S) : Prop where
  state : R s (step.apply s).2
  result : ∀ a, (step.apply s).1 = .ok a → Q a (step.apply s).2

theorem Leads.mono {R R' : S → S → Prop} {Q Q' : α → S → Prop} {step : Step ε S α} {s : S}
    (h : step.Leads R Q s) (hR : ∀ s', R s s' → R' s s') (hQ : ∀ a s', R s s' → Q a s' → Q' a s') :
    step.Leads R' Q' s :=
  ⟨hR _ h.state, fun a ha => hQ a _ h.state (h.result a ha)⟩

theorem Leads.forget {R : S → S → Prop} {Q : α → S → Prop} {step : Step ε S α} {s : S}
    (h : step.Leads R Q s) : step.Leads R (fun _ _ => True) s :=
  h.mono (fun _ h => h) fun _ _ _ _ => trivial

theorem leads_of_apply {R : S → S → Prop} {Q : α → S → Prop} {step : Step ε S α} {s s' : S}
    {outcome : Except ε α} (h : step.apply s = (outcome, s')) (hR : R s s')
    (hQ : ∀ a, outcome = .ok a → Q a s') : step.Leads R Q s := by
  refine ⟨?_, fun a ha => ?_⟩
  · rw [h]
    exact hR
  · rw [h] at ha ⊢
    exact hQ a ha

theorem Leads.zoom {R : S → S → Prop} {R' : T → T → Prop} {Q : α → S → Prop} {Q' : α → T → Prop}
    {part : T → S} {replace : S → T → T} {step : Step ε S α} {t : T} (h : step.Leads R Q (part t))
    (hR : ∀ s', R (part t) s' → R' t (replace s' t))
    (hQ : ∀ a s', R (part t) s' → Q a s' → Q' a (replace s' t)) :
    (step.zoom part replace).Leads R' Q' t := by
  refine ⟨?_, fun a ha => ?_⟩
  · rw [apply_zoom]
    exact hR _ h.state
  · rw [apply_zoom] at ha ⊢
    exact hQ a _ h.state (h.result a ha)

theorem Leads.mapError {R : S → S → Prop} {Q : α → S → Prop} {step : Step ε S α} {s : S}
    (h : step.Leads R Q s) (f : ε → ε') : (step.mapError f).Leads R Q s := by
  refine ⟨?_, fun a ha => ?_⟩
  · rw [apply_mapError]
    exact h.state
  · rw [apply_mapError] at ha ⊢
    cases hs : (step.apply s).1 with
    | error e => rw [hs] at ha; cases ha
    | ok b =>
        rw [hs] at ha
        obtain rfl : b = a := Except.ok.inj ha
        exact h.result b hs

theorem Leads.attempt {R : S → S → Prop} {Q : α → S → Prop} {step : Step ε S α} {s : S}
    (h : step.Leads R Q s) : step.attempt.Leads R (fun o s' => ∀ a, o = .ok a → Q a s') s := by
  refine ⟨?_, fun o ho a ha => ?_⟩
  · rw [apply_attempt]
    exact h.state
  · rw [apply_attempt] at ho ⊢
    cases ho
    exact h.result a ha

/-! ### Steps that succeed -/

theorem apply_eq_of_ok {step : Step ε S α} {s : S} {a : α} (h : (step.apply s).1 = .ok a) :
    step.apply s = (.ok a, (step.apply s).2) :=
  Prod.ext h rfl

theorem apply_bind_eq_ok_iff {step : Step ε S α} {next : α → Step ε S β} {s s' : S} {b : β} :
    (step >>= next).apply s = (.ok b, s') ↔
      ∃ a s₁, step.apply s = (.ok a, s₁) ∧ (next a).apply s₁ = (.ok b, s') := by
  rw [apply_bind]
  rcases step.apply s with ⟨e | a, s₁⟩
  · exact ⟨fun h => (by cases h), fun ⟨_, _, h, _⟩ => by cases h⟩
  · constructor
    · exact fun h => ⟨a, s₁, rfl, h⟩
    · rintro ⟨_, _, ⟨⟩, h⟩
      exact h

theorem apply_query_eq_ok_iff {read : S → Except ε α} {s s' : S} {a : α} :
    (query read).apply s = (.ok a, s') ↔ read s = .ok a ∧ s = s' := by
  rw [apply_query, Prod.mk.injEq]

/-! ### Sequences -/

section preorder

variable {R : S → S → Prop} [IsPreorder S R]

theorem Leads.bind {Q : α → S → Prop} {Q' : β → S → Prop} {step : Step ε S α}
    {next : α → Step ε S β} {s : S} (h : step.Leads R Q s)
    (hnext : ∀ a s', R s s' → Q a s' → (next a).Leads R Q' s') : (step >>= next).Leads R Q' s := by
  have hstate := h.state
  have hresult := h.result
  refine ⟨?_, fun b hb => ?_⟩ <;> simp only [apply_bind] at * <;>
    rcases hs : step.apply s with ⟨_ | a, s'⟩ <;> simp only [hs] at *
  · exact hstate
  · exact trans_of R hstate (hnext a s' hstate (hresult a rfl)).state
  · cases hb
  · exact (hnext a s' hstate (hresult a rfl)).result b hb

theorem Leads.tryCatch {Q : α → S → Prop} {step : Step ε S α} {handler : ε → Step ε S α} {s : S}
    (h : step.Leads R Q s) (hhandler : ∀ e s', R s s' → (handler e).Leads R Q s') :
    (MonadExcept.tryCatch step handler).Leads R Q s := by
  have hstate := h.state
  have hresult := h.result
  refine ⟨?_, fun b hb => ?_⟩ <;> simp only [apply_tryCatch] at * <;>
    rcases hs : step.apply s with ⟨e | a, s'⟩ <;> simp only [hs] at *
  · exact trans_of R hstate (hhandler e s' hstate).state
  · exact hstate
  · exact (hhandler e s' hstate).result b hb
  · exact hresult b hb

theorem leads_ofOutcome (outcome : Except ε α) (s : S) :
    (ofOutcome outcome : Step ε S α).Leads R (fun a s' => s' = s ∧ outcome = .ok a) s :=
  ⟨refl_of R s, fun _ ha => ⟨rfl, ha⟩⟩

theorem leads_query (read : S → Except ε α) (s : S) :
    (query read).Leads R (fun a s' => s' = s ∧ read s = .ok a) s :=
  ⟨refl_of R s, fun _ ha => ⟨rfl, ha⟩⟩

theorem leads_pure (a : α) (s : S) :
    (pure a : Step ε S α).Leads R (fun b s' => s' = s ∧ b = a) s :=
  ⟨refl_of R s, fun _ hb => ⟨rfl, (Except.ok.inj hb).symm⟩⟩

theorem leads_throw (Q : α → S → Prop) (e : ε) (s : S) : (throw e : Step ε S α).Leads R Q s :=
  ⟨refl_of R s, fun _ ha => by cases ha⟩

theorem leads_of_refused {step : Step ε S α} {s : S} {e : ε} (h : step.apply s = (.error e, s))
    (Q : α → S → Prop) : step.Leads R Q s :=
  leads_of_apply h (refl_of R s) fun _ ha => by cases ha

theorem leads_get (s : S) : (get : Step ε S S).Leads R (fun a s' => s' = s ∧ a = s) s :=
  ⟨refl_of R s, fun _ ha => ⟨rfl, (Except.ok.inj ha).symm⟩⟩

theorem Leads.guard {Q : β → S → Prop} {c : Prop} [Decidable c] {e : ε} {step : Step ε S β}
    {next : α → Step ε S β} {s : S} (h : c → step.Leads R Q s) :
    (if c then step else throw e >>= next).Leads R Q s := by
  by_cases hc : c
  · rw [if_pos hc]
    exact h hc
  · rw [if_neg hc]
    exact (leads_throw (fun _ _ => False) e s).bind fun a s' _ ha => ha.elim

theorem Leads.guard_not {Q : β → S → Prop} {c : Prop} [Decidable c] {e : ε} {step : Step ε S β}
    {next : α → Step ε S β} {s : S} (h : ¬ c → step.Leads R Q s) :
    (if c then throw e >>= next else step).Leads R Q s := by
  by_cases hc : c
  · rw [if_pos hc]
    exact (leads_throw (fun _ _ => False) e s).bind fun a s' _ ha => ha.elim
  · rw [if_neg hc]
    exact h hc

theorem leads_mapM {P : α → β → Prop} {f : α → Step ε S β}
    (h : ∀ a s, (f a).Leads R (fun b _ => P a b) s) (xs : List α) (s : S) :
    (xs.mapM f).Leads R (fun bs _ => List.Forall₂ P xs bs) s := by
  induction xs generalizing s with
  | nil =>
      rw [List.mapM_nil]
      exact (leads_pure _ s).mono (fun _ hs => hs) fun _ _ _ hbs => hbs.2 ▸ .nil
  | cons x xs ih =>
      rw [List.mapM_cons]
      refine (h x s).bind fun b s' _ hb => (ih s').bind fun bs s'' _ hbs => ?_
      exact (leads_pure _ s'').mono (fun _ hs => hs) fun _ _ _ heq => heq.2 ▸ .cons hb hbs

end preorder

end Step

/-! ## Faults that cannot come up -/

section faults

variable {ε ε' S T α β : Type} {fault : ε → Prop}

/-! ### Outcomes -/

/-- The outcome is not an error that is a fault. -/
def Spared (fault : ε → Prop) (outcome : Except ε α) : Prop :=
  ∀ e, outcome = .error e → ¬ fault e

theorem spared_ok (a : α) : Spared fault (.ok a : Except ε α) := fun _ h => nomatch h

theorem spared_error {e : ε} (h : ¬ fault e) : Spared fault (.error e : Except ε α) := by
  intro e' he
  exact Except.error.inj he ▸ h

theorem Spared.bind {outcome : Except ε α} {next : α → Except ε β} (h : Spared fault outcome)
    (hnext : ∀ a, outcome = .ok a → Spared fault (next a)) : Spared fault (outcome >>= next) := by
  cases outcome with
  | ok a => exact hnext a rfl
  | error e => exact spared_error (h e rfl)

theorem Spared.mapError {fault' : ε' → Prop} {outcome : Except ε α} {f : ε → ε'}
    (h : ∀ e, outcome = .error e → ¬ fault' (f e)) : Spared fault' (outcome.mapError f) := by
  cases outcome with
  | ok a => exact spared_ok a
  | error e => exact spared_error (h e rfl)

theorem spared_forM {f : α → Except ε PUnit} {xs : List α} (h : ∀ x ∈ xs, Spared fault (f x)) :
    Spared fault (xs.forM f) := by
  induction xs with
  | nil => exact spared_ok _
  | cons x xs ih =>
      exact (h x List.mem_cons_self).bind fun _ _ => ih fun y hy => h y (List.mem_cons_of_mem x hy)

theorem spared_mapM {f : α → Except ε β} {xs : List α} (h : ∀ x ∈ xs, Spared fault (f x)) :
    Spared fault (xs.mapM f) := by
  induction xs with
  | nil => exact spared_ok _
  | cons x xs ih =>
      rw [List.mapM_cons]
      refine (h x List.mem_cons_self).bind fun b _ => ?_
      exact (ih fun y hy => h y (List.mem_cons_of_mem x hy)).bind fun bs _ => spared_ok _

theorem Spared.ite {c : Prop} [Decidable c] {first second : Except ε α} (h : c → Spared fault first)
    (h' : ¬ c → Spared fault second) : Spared fault (if c then first else second) := by
  by_cases hc : c
  · rw [if_pos hc]
    exact h hc
  · rw [if_neg hc]
    exact h' hc

theorem Spared.guard {c : Prop} [Decidable c] {e : ε} {outcome : Except ε β} {next : α → Except ε β}
    (he : ¬ fault e) (h : c → Spared fault outcome) :
    Spared fault (if c then outcome else throw e >>= next) :=
  .ite h fun _ => spared_error he

/-! ### Steps -/

namespace Step

/-- The step, started in `s`, does not end with a fault. -/
def Avoids (fault : ε → Prop) (step : Step ε S α) (s : S) : Prop :=
  Spared fault (step.apply s).1

variable {step : Step ε S α} {s : S}

theorem avoids_of_ok {a : α} {s' : S} (h : step.apply s = (.ok a, s')) : step.Avoids fault s := by
  unfold Avoids
  rw [h]
  exact spared_ok a

theorem avoids_of_error {e : ε} {s' : S} (h : step.apply s = (.error e, s')) (he : ¬ fault e) :
    step.Avoids fault s := by
  unfold Avoids
  rw [h]
  exact spared_error he

theorem avoids_pure (a : α) (s : S) : (pure a : Step ε S α).Avoids fault s := avoids_of_ok rfl

theorem avoids_throw {e : ε} (he : ¬ fault e) (s : S) : (throw e : Step ε S α).Avoids fault s :=
  avoids_of_error rfl he

theorem avoids_modify (f : S → S) (s : S) : (modify f : Step ε S PUnit).Avoids fault s := avoids_of_ok rfl

theorem Avoids.bind {next : α → Step ε S β} (h : step.Avoids fault s)
    (hnext : ∀ a s', step.apply s = (.ok a, s') → (next a).Avoids fault s') :
    (step >>= next).Avoids fault s := by
  unfold Avoids at h ⊢
  rw [apply_bind]
  rcases hs : step.apply s with ⟨e | a, s'⟩
  · rw [hs] at h
    exact spared_error (h e rfl)
  · exact hnext a s' hs

theorem avoids_query_bind {read : S → Except ε α} {next : α → Step ε S β} (h : Spared fault (read s))
    (hnext : ∀ a, read s = .ok a → (next a).Avoids fault s) : (query read >>= next).Avoids fault s := by
  refine Avoids.bind h fun a s' ha => ?_
  obtain ⟨hread, rfl⟩ := Prod.mk.inj ha
  exact hnext a hread

theorem avoids_get_bind {next : S → Step ε S β} (h : (next s).Avoids fault s) :
    (get >>= next).Avoids fault s := by
  refine (avoids_of_ok (apply_get s)).bind fun a s' ha => ?_
  obtain ⟨hread, rfl⟩ := Prod.mk.inj ha
  exact Except.ok.inj hread ▸ h

theorem avoids_forM {f : α → Step ε S PUnit} {xs : List α} (h : ∀ x ∈ xs, ∀ s, (f x).Avoids fault s)
    (s : S) : (xs.forM f).Avoids fault s := by
  induction xs generalizing s with
  | nil => exact avoids_pure _ s
  | cons x xs ih =>
      exact (h x List.mem_cons_self s).bind fun _ s' _ =>
        ih (fun y hy => h y (List.mem_cons_of_mem x hy)) s'

theorem Avoids.ite {c : Prop} [Decidable c] {first second : Step ε S α} (h : c → first.Avoids fault s)
    (h' : ¬ c → second.Avoids fault s) : (if c then first else second).Avoids fault s := by
  by_cases hc : c
  · rw [if_pos hc]
    exact h hc
  · rw [if_neg hc]
    exact h' hc

theorem Avoids.guard {c : Prop} [Decidable c] {e : ε} {step : Step ε S β} {next : α → Step ε S β}
    (he : ¬ fault e) (h : c → step.Avoids fault s) :
    (if c then step else throw e >>= next).Avoids fault s :=
  .ite h fun _ => (avoids_throw he s).bind fun _ _ h => nomatch h

theorem Avoids.guard_not {c : Prop} [Decidable c] {e : ε} {step : Step ε S β} {next : α → Step ε S β}
    (he : ¬ fault e) (h : ¬ c → step.Avoids fault s) :
    (if c then throw e >>= next else step).Avoids fault s :=
  .ite (fun _ => (avoids_throw he s).bind fun _ _ h => nomatch h) h

theorem Avoids.discard (h : step.Avoids fault s) : Avoids fault (Functor.discard step) s := by
  unfold Avoids at h ⊢
  rw [apply_discard]
  cases hs : (step.apply s).1 with
  | ok a => exact spared_ok _
  | error e => exact spared_error (h e hs)

theorem Avoids.attempt_bind {next : Except ε α → Step ε S β} (h : step.Avoids fault s)
    (hok : ∀ a s', step.apply s = (.ok a, s') → (next (.ok a)).Avoids fault s')
    (herror : ∀ e, ¬ fault e → ∀ s', (next (.error e)).Avoids fault s') :
    (step.attempt >>= next).Avoids fault s := by
  unfold Avoids at h ⊢
  rw [apply_bind, apply_attempt]
  rcases hs : step.apply s with ⟨e | a, s'⟩
  · rw [hs] at h
    exact herror e (h e rfl) s'
  · exact hok a s' hs

theorem Avoids.zoom {part : T → S} {replace : S → T → T} {t : T} (h : step.Avoids fault (part t)) :
    (step.zoom part replace).Avoids fault t :=
  h

theorem avoids_mapError {fault' : ε' → Prop} {f : ε → ε'} (h : ∀ e, ¬ fault' (f e)) (step : Step ε S α)
    (s : S) : (step.mapError f).Avoids fault' s :=
  Spared.mapError fun e _ => h e

theorem Avoids.tryCatch {handler : ε → Step ε S α} (h : step.Avoids fault s)
    (hhandler : ∀ e, ¬ fault e → ∀ s', (handler e).Avoids fault s') :
    (MonadExcept.tryCatch step handler).Avoids fault s := by
  unfold Avoids at h ⊢
  rw [apply_tryCatch]
  rcases hs : step.apply s with ⟨e | a, s'⟩
  · rw [hs] at h
    exact hhandler e (h e rfl) s'
  · exact spared_ok a

end Step

end faults

end Wirework
