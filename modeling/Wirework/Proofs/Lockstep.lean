import Wirework.Proofs.Steps

/-! # Steps side by side

`Lockstep I Q x y k s t` says that the steps `x` and `y`, started in the states `s` and `t`, end alike: both are
refused or both give a result, the results are related by `Q`, and the states they leave behind, also when they are
refused, are related by `I`.

Both relations depend on a list `k` of what the two sides have in common, to which steps add at the end; `Q` has to
outlast such additions where a result is used later.

The rules below follow the ways in which steps are put together; with them a function is compared with itself by going
through its text once.  The errors of the two sides are not compared, since they may name what differs. -/

namespace Wirework

variable {ε ε' S T α α' β β' γ : Type}

/-- Both outcomes are errors, or both are results and these are related. -/
inductive Agree (Q : α → β → Prop) : Except ε α → Except ε' β → Prop
  | ok {a : α} {b : β} (related : Q a b) : Agree Q (.ok a) (.ok b)
  | error (e : ε) (e' : ε') : Agree Q (.error e) (.error e')

theorem Agree.refl (outcome : Except ε α) : Agree (· = ·) outcome outcome := by
  cases outcome with
  | ok a => exact .ok rfl
  | error e => exact .error e e

theorem Agree.mono {Q Q' : α → β → Prop} {a : Except ε α} {b : Except ε' β} (h : Agree Q a b)
    (hQ : ∀ a b, Q a b → Q' a b) : Agree Q' a b := by
  cases h with
  | ok related => exact .ok (hQ _ _ related)
  | error e e' => exact .error e e'

namespace Step

/-- The steps end alike, and what they have in common by then begins with `k`. -/
def Lockstep (I : List γ → S → T → Prop) (Q : List γ → α → β → S → T → Prop) (x : Step ε S α)
    (y : Step ε' T β) (k : List γ) (s : S) (t : T) : Prop :=
  ∃ k', k <+: k' ∧ I k' (x.apply s).2 (y.apply t).2 ∧
    Agree (fun a b => Q k' a b (x.apply s).2 (y.apply t).2) (x.apply s).1 (y.apply t).1

variable {I I' : List γ → S → T → Prop} {Q : List γ → α → β → S → T → Prop}
  {Q' : List γ → α' → β' → S → T → Prop} {x : Step ε S α} {y : Step ε' T β} {k : List γ} {s : S} {t : T}

theorem Lockstep.mono {Q' : List γ → α → β → S → T → Prop} (h : Lockstep I Q x y k s t)
    (hI : ∀ k' s t, k <+: k' → I k' s t → I' k' s t)
    (hQ : ∀ k' a b s t, k <+: k' → I k' s t → Q k' a b s t → Q' k' a b s t) :
    Lockstep I' Q' x y k s t := by
  obtain ⟨k', hk, hstates, hagree⟩ := h
  exact ⟨k', hk, hI _ _ _ hk hstates, hagree.mono fun a b => hQ k' a b _ _ hk hstates⟩

/-! ### Single steps -/

theorem lockstep_of_apply {s' : S} {t' : T} {a : Except ε α} {b : Except ε' β} {k' : List γ}
    (hx : x.apply s = (a, s')) (hy : y.apply t = (b, t')) (hk : k <+: k') (hI : I k' s' t')
    (h : Agree (fun a b => Q k' a b s' t') a b) : Lockstep I Q x y k s t := by
  refine ⟨k', hk, ?_, ?_⟩
  · rw [hx, hy]
    exact hI
  · rw [hx, hy]
    exact h

theorem lockstep_pure {a : α} {b : β} (hI : I k s t) (hQ : Q k a b s t) :
    Lockstep I Q (pure a : Step ε S α) (pure b : Step ε' T β) k s t :=
  lockstep_of_apply (apply_pure a s) (apply_pure b t) (List.prefix_refl k) hI (.ok hQ)

theorem lockstep_throw (hI : I k s t) (Q : List γ → α → β → S → T → Prop) (e : ε) (e' : ε') :
    Lockstep I Q (throw e : Step ε S α) (throw e' : Step ε' T β) k s t :=
  lockstep_of_apply (apply_throw e s) (apply_throw e' t) (List.prefix_refl k) hI (.error e e')

theorem lockstep_ofOutcome {a : Except ε α} {b : Except ε' β} (hI : I k s t)
    (h : Agree (fun a b => Q k a b s t) a b) :
    Lockstep I Q (ofOutcome a) (ofOutcome b) k s t :=
  lockstep_of_apply (apply_ofOutcome a s) (apply_ofOutcome b t) (List.prefix_refl k) hI h

theorem lockstep_sameOutcome (hI : I k s t) (outcome : Except ε α) :
    Lockstep I (fun _ a b _ _ => a = b) (ofOutcome outcome) (ofOutcome outcome) k s t :=
  lockstep_ofOutcome hI (.refl outcome)

theorem lockstep_get (hI : I k s t) :
    Lockstep I (fun k a b s t => I k a b ∧ a = s ∧ b = t) (get : Step ε S S) (get : Step ε' T T) k s t :=
  lockstep_of_apply (apply_get s) (apply_get t) (List.prefix_refl k) hI (.ok ⟨hI, rfl, rfl⟩)

theorem lockstep_modify {f : S → S} {g : T → T} (hI : I k (f s) (g t)) :
    Lockstep I (fun _ _ _ _ _ => True) (modify f : Step ε S PUnit) (modify g : Step ε' T PUnit) k s t :=
  lockstep_of_apply (apply_modify f s) (apply_modify g t) (List.prefix_refl k) hI (.ok trivial)

/-! ### Sequences -/

theorem Lockstep.bind {f : α → Step ε S α'} {g : β → Step ε' T β'} (h : Lockstep I Q x y k s t)
    (hnext : ∀ k' a b s' t', k <+: k' → I k' s' t' → Q k' a b s' t' →
      Lockstep I Q' (f a) (g b) k' s' t') : Lockstep I Q' (x >>= f) (y >>= g) k s t := by
  obtain ⟨k', hk, hI, hagree⟩ := h
  rcases hx : x.apply s with ⟨a | a, s'⟩ <;> rcases hy : y.apply t with ⟨b | b, t'⟩ <;>
    rw [hx, hy] at hI hagree
  case error.error =>
    refine lockstep_of_apply (a := .error a) (b := .error b) ?_ ?_ hk hI (.error a b)
    · rw [apply_bind, hx]
    · rw [apply_bind, hy]
  case ok.ok =>
    cases hagree with
    | ok related =>
        obtain ⟨k'', hk', hnext⟩ := hnext k' a b s' t' hk hI related
        refine ⟨k'', hk.trans hk', ?_⟩
        rw [apply_bind, apply_bind, hx, hy]
        exact hnext
  case error.ok => cases hagree
  case ok.error => cases hagree

theorem Lockstep.attempt (h : Lockstep I Q x y k s t) :
    Lockstep I (fun k a b s t => Agree (fun a b => Q k a b s t) a b) x.attempt y.attempt k s t := by
  obtain ⟨k', hk, hI, hagree⟩ := h
  exact lockstep_of_apply (apply_attempt x s) (apply_attempt y t) hk hI (.ok hagree)

theorem Lockstep.mapError {δ δ' : Type} (h : Lockstep I Q x y k s t) (f : ε → δ) (g : ε' → δ') :
    Lockstep I Q (x.mapError f) (y.mapError g) k s t := by
  obtain ⟨k', hk, hI, hagree⟩ := h
  refine lockstep_of_apply (apply_mapError f x s) (apply_mapError g y t) hk hI ?_
  revert hagree
  generalize (x.apply s).1 = a
  generalize (y.apply t).1 = b
  rintro (⟨related⟩ | ⟨e, e'⟩)
  · exact .ok related
  · exact .error (f e) (g e')

theorem Lockstep.zoom {S' T' : Type} {I : List γ → S' → T' → Prop} {Q : List γ → α → β → S' → T' → Prop}
    {part : S' → S} {replace : S → S' → S'} {part' : T' → T} {replace' : T → T' → T'} {s : S'} {t : T'}
    (h : Lockstep (fun k a b => I k (replace a s) (replace' b t))
      (fun k a b s₁ t₁ => Q k a b (replace s₁ s) (replace' t₁ t)) x y k (part s) (part' t)) :
    Lockstep I Q (x.zoom part replace) (y.zoom part' replace') k s t := by
  obtain ⟨k', hk, hI, hagree⟩ := h
  exact lockstep_of_apply (apply_zoom part replace x s) (apply_zoom part' replace' y t) hk hI hagree

theorem Lockstep.guard {c c' : Prop} [Decidable c] [Decidable c'] {e : ε} {e' : ε'}
    {next : α' → Step ε S α} {next' : β' → Step ε' T β} (hI : I k s t) (hc : c ↔ c')
    (h : c → Lockstep I Q x y k s t) :
    Lockstep I Q (if c then x else throw e >>= next) (if c' then y else throw e' >>= next') k s t := by
  by_cases hc' : c'
  · rw [if_pos (hc.mpr hc'), if_pos hc']
    exact h (hc.mpr hc')
  · rw [if_neg (fun h => hc' (hc.mp h)), if_neg hc']
    exact (lockstep_throw hI (fun _ _ _ _ _ => False) e e').bind fun _ _ _ _ _ _ _ h => h.elim

theorem Lockstep.guard_not {c c' : Prop} [Decidable c] [Decidable c'] {e : ε} {e' : ε'}
    {next : α' → Step ε S α} {next' : β' → Step ε' T β} (hI : I k s t) (hc : c ↔ c')
    (h : ¬ c → Lockstep I Q x y k s t) :
    Lockstep I Q (if c then throw e >>= next else x) (if c' then throw e' >>= next' else y) k s t := by
  by_cases hc' : c'
  · rw [if_pos (hc.mpr hc'), if_pos hc']
    exact (lockstep_throw hI (fun _ _ _ _ _ => False) e e').bind fun _ _ _ _ _ _ _ h => h.elim
  · rw [if_neg (fun h => hc' (hc.mp h)), if_neg hc']
    exact h fun h => hc' (hc.mp h)

/-- Steps for the elements of two related lists: what relates the elements has to outlast additions. -/
theorem lockstep_mapM {δ δ' : Type} {P : List γ → δ → δ' → Prop} {R : List γ → α → β → Prop}
    {f : δ → Step ε S α} {g : δ' → Step ε' T β}
    (h : ∀ k a b s t, P k a b → I k s t → Lockstep I (fun k a b _ _ => R k a b) (f a) (g b) k s t)
    (hP : ∀ k k' a b, k <+: k' → P k a b → P k' a b) (hR : ∀ k k' a b, k <+: k' → R k a b → R k' a b)
    {as : List δ} {bs : List δ'} (hPs : List.Forall₂ (P k) as bs) (hI : I k s t) :
    Lockstep I (fun k as bs _ _ => List.Forall₂ (R k) as bs) (as.mapM f) (bs.mapM g) k s t := by
  induction as generalizing k bs s t with
  | nil =>
      cases hPs
      rw [List.mapM_nil, List.mapM_nil]
      exact lockstep_pure hI .nil
  | cons a as ih =>
      cases hPs with
      | @cons _ b _ bs hab hrest =>
          rw [List.mapM_cons, List.mapM_cons]
          refine (h k a b s t hab hI).bind fun k₁ a' b' s₁ t₁ hk hI₁ hfirst => ?_
          refine (ih (hrest.imp fun _ _ => hP k k₁ _ _ hk) hI₁).bind fun k₂ as' bs' s₂ t₂ hk' hI₂ hothers => ?_
          exact lockstep_pure hI₂ (.cons (hR k₁ k₂ _ _ hk' hfirst) hothers)

end Step

end Wirework
