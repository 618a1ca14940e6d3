import Mathlib.Data.List.Induction
import Wirework.Proofs.Library.Memory

/-! # How often a body runs

A body begins only while its slot is empty, and its end fills the slot.  So it ends at most once with a definition,
unless it has been called again for the same slot before its end, as a body may call its own function with another
private argument (`bodies_run_once`).  Then every run that is under way at the first such end may come to an end of
its own (`body_completes_twice`).

Runs are counted along the events of a course, those that have begun, those that have ended and those that are under
way (`count_entered_le`).  After the first end nothing begins for the slot, so what ends then was under way before
(`Course.completions_le`); and without a second call there is at most one such run (`running_le_one`). -/

namespace Wirework

open CallEvent

/-- The runs of the body for a slot that are under way, after an event. -/
def runningAfter (s : CacheSlot) (running : Nat) (e : CallEvent) : Nat :=
  if e = entered s then running + 1 else if e.endsBody s then running - 1 else running

/-- How many runs of the body for a slot are under way. -/
def running (s : CacheSlot) (events : List CallEvent) : Nat :=
  events.foldl (runningAfter s) 0

/-- A body is called again for a slot while a run for this slot is under way. -/
def Reenters (s : CacheSlot) (events : List CallEvent) : Prop :=
  ∃ before after, events = before ++ entered s :: after ∧ 0 < running s before

/-! ### Runs under way -/

section counting

variable {s : CacheSlot} {events : List CallEvent}

theorem running_concat (s : CacheSlot) (events : List CallEvent) (e : CallEvent) :
    running s (events ++ [e]) = runningAfter s (running s events) e := by
  unfold running
  rw [List.foldl_append, List.foldl_cons, List.foldl_nil]

/-- Every run that has begun is under way or has ended. -/
theorem count_entered_le (s : CacheSlot) (events : List CallEvent) :
    events.count (entered s) ≤ running s events + events.countP (endsBody s) := by
  induction events using List.reverseRecOn with
  | nil => exact Nat.le_refl 0
  | append_singleton events e ih =>
      rw [running_concat, List.count_append, List.countP_append, List.count_singleton,
        List.countP_singleton, runningAfter]
      by_cases he : e = entered s
      · simp only [he, beq_self_eq_true, if_true]
        omega
      · rw [if_neg he, if_neg (by simpa using he)]
        by_cases hends : e.endsBody s = true
        · rw [if_pos hends, if_pos hends]
          omega
        · rw [if_neg hends, if_neg hends]
          omega

theorem Reenters.append (h : Reenters s events) (es : List CallEvent) :
    Reenters s (events ++ es) := by
  obtain ⟨before, after, rfl, hrunning⟩ := h
  exact ⟨before, after ++ es, by simp, hrunning⟩

/-- Without a second call before the end of the first, at most one run is under way. -/
theorem running_le_one (h : ¬ Reenters s events) : running s events ≤ 1 := by
  induction events using List.reverseRecOn with
  | nil => exact Nat.zero_le 1
  | append_singleton events e ih =>
      have hbefore := ih fun hr => h (hr.append [e])
      rw [running_concat, runningAfter]
      by_cases he : e = entered s
      · have hnone : ¬ 0 < running s events := fun hr => h ⟨events, [], he ▸ rfl, hr⟩
        rw [if_pos he]
        omega
      · rw [if_neg he]
        by_cases hends : e.endsBody s = true
        · rw [if_pos hends]
          omega
        · rw [if_neg hends]
          exact hbefore

end counting

/-! ### Single execution -/

/-- How often bodies have ended with a definition, in the events of a course. -/
structure RunsOnce {σ : Type} (w : Workspace σ) (events : List CallEvent) : Prop where
  /-- Once a body has ended with a definition for a slot, it does not begin again for this slot; nor does it
  if there has been a definition from the start. -/
  finished : ∀ s before after, events = before ++ entered s :: after →
    w.library.find? s = none ∧ ∀ d, completed s d ∉ before
  /-- It ends with a definition at most as often as there were runs under way at the first such end. -/
  bounded : ∀ s before d after, events = before ++ completed s d :: after →
    (∀ d', completed s d' ∉ before) → completions s events ≤ running s before
  /-- It ends at most once with a definition, unless it is called again before its end. -/
  once : ∀ s, ¬ Reenters s events → completions s events ≤ 1

section execution

variable {σ : Type} {w w' : Workspace σ} {events before after : List CallEvent} {s : CacheSlot}
  {d : DefId}

/-- After its first end with a definition, a body ends at most as often as it was running then. -/
theorem Course.completions_le (h : Course w (before ++ completed s d :: after) w')
    (hfirst : ∀ d', completed s d' ∉ before) :
    completions s (before ++ completed s d :: after) ≤ running s before := by
  have hover : entered s ∉ after := by
    intro hentered
    obtain ⟨between, rest, rfl⟩ := List.append_of_mem hentered
    have happens := h.happens
    rw [← List.cons_append, ← List.append_assoc] at happens
    exact happens.empty_before.2.1 d (by simp)
  have hends := h.ends_le s
  have hbegun := count_entered_le s before
  have hnone : (completed s d :: after).count (entered s) = 0 := by
    rw [List.count_eq_zero]
    simpa using hover
  have hcompleted : completions s (completed s d :: after) ≤
      (completed s d :: after).countP (endsBody s) :=
    List.countP_mono_left fun e _ he => endsBody_of_completion he
  have hbefore := completions_eq_zero hfirst
  unfold completions at hbefore hcompleted ⊢
  rw [List.countP_append, List.count_append] at hends
  rw [List.countP_append]
  omega

/-- **A body ends at most once with a definition for a slot, unless it is called again for this slot before
its end.** -/
theorem bodies_run_once (h : Course w events w') : RunsOnce w events where
  finished s before after hevents := by
    subst hevents
    obtain ⟨hempty, hcompleted, _⟩ := h.happens.empty_before
    exact ⟨hempty, hcompleted⟩
  bounded s before d after hevents hfirst := by
    subst hevents
    exact h.completions_le hfirst
  once s hreenters := by
    cases hfirst : firstCompletion? s events with
    | none =>
        rw [completions_eq_zero (firstCompletion?_eq_none_iff.mp hfirst)]
        exact Nat.zero_le 1
    | some d =>
        obtain ⟨before, e, after, rfl, he, hbefore⟩ := List.findSome?_eq_some_iff.mp hfirst
        obtain rfl := completion?_eq_some_iff.mp he
        have hnone : ∀ d', completed s d' ∉ before :=
          firstCompletion?_eq_none_iff.mp (List.findSome?_eq_none_iff.mpr hbefore)
        have hone := running_le_one fun hr => hreenters (hr.append (completed s d :: after))
        exact Nat.le_trans (h.completions_le hnone) hone

end execution

namespace Sample

/-- The events of two calls for one slot, one after the other. -/
def remakingTwice : List CallEvent :=
  [] ++ Supply.callEvents 2 ⟨0⟩ ⟨0⟩ { positional := [.int 8] } remaking
    ++ Supply.callEvents 2 ⟨0⟩ ⟨0⟩ again
      ((Supply.call 2 ⟨0⟩ ⟨0⟩ { positional := [.int 8] }).apply remaking).2

end Sample

/-- A call for a slot that has been filled does not run the body again. -/
theorem bodies_run_once_remaking :
    completions Sample.eight Sample.remakingTwice = 1 ∧
      RunsOnce Sample.remaking Sample.remakingTwice :=
  ⟨by decide +kernel,
    bodies_run_once ((Course.start.call 2 ⟨0⟩ ⟨0⟩ _).call 2 ⟨0⟩ ⟨0⟩ Sample.again)⟩

/-- A body that calls its function again for the same slot ends twice with a definition. -/
theorem body_completes_twice :
    Course Sample.remaking ([] ++ Supply.callEvents 2 ⟨0⟩ ⟨0⟩ Sample.again Sample.remaking)
        ((Supply.call 2 ⟨0⟩ ⟨0⟩ Sample.again).apply Sample.remaking).2 ∧
      completions Sample.eight
        ([] ++ Supply.callEvents 2 ⟨0⟩ ⟨0⟩ Sample.again Sample.remaking) = 2 :=
  ⟨Course.start.call 2 ⟨0⟩ ⟨0⟩ Sample.again, by decide +kernel⟩

end Wirework
