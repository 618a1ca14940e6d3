import Wirework.Proofs.Library.History

/-! # What caches remember

A slot of a cache takes the first definition that a body for it ends with, and keeps it (`Library.Happens.find?_eq`).

From this follows all that callers rely on (`calls_memoize`), however calls nest: equal calls give the same
definition, a call that finds one runs no body, and a body that fails leaves nothing in its slot but what a nested
call has put there.

A body begins only while its slot is empty (`Library.Happens.empty_before`), and every body that begins in a call ends
in it (`Supply.callEvents_rounded`).  The latter is an induction on the depth of calls, since a body may call
functions again; the former is read off the events before it.  The sample is a function that calls itself for the same
parameters before it makes a definition. -/

namespace Wirework

namespace CallEvent

/-- The definition that a body for the slot has ended with. -/
def completion? (s : CacheSlot) : CallEvent → Option DefId
  | completed t d => if s = t then some d else none
  | _ => none

/-- The event ends a body for the slot. -/
def endsBody (s : CacheSlot) : CallEvent → Bool
  | completed t _ => s = t
  | failed t => s = t
  | _ => false

theorem completion?_eq_some_iff {s : CacheSlot} {e : CallEvent} {d : DefId} :
    e.completion? s = some d ↔ e = completed s d := by
  cases e with
  | completed t d' =>
      simp only [completion?, completed.injEq]
      by_cases hs : s = t
      · simp [hs]
      · simp [hs, Ne.symm hs]
  | made | entered | failed | returned => simp [completion?]

theorem endsBody_of_completion {s : CacheSlot} {e : CallEvent}
    (h : (e.completion? s).isSome = true) : e.endsBody s = true := by
  obtain ⟨d, hd⟩ := Option.isSome_iff_exists.mp h
  rw [completion?_eq_some_iff.mp hd]
  exact decide_eq_true rfl

end CallEvent

open CallEvent

/-- The first definition that a body for the slot has ended with. -/
def firstCompletion? (s : CacheSlot) (events : List CallEvent) : Option DefId :=
  events.findSome? (completion? s)

/-- How often a body for the slot has ended with a definition. -/
def completions (s : CacheSlot) (events : List CallEvent) : Nat :=
  events.countP fun e => (e.completion? s).isSome

theorem firstCompletion?_eq_none_iff {s : CacheSlot} {events : List CallEvent} :
    firstCompletion? s events = none ↔ ∀ d, completed s d ∉ events := by
  unfold firstCompletion?
  rw [List.findSome?_eq_none_iff]
  constructor
  · intro h d hd
    have hnone := h _ hd
    rw [completion?_eq_some_iff.mpr rfl] at hnone
    cases hnone
  · intro h e he
    rw [Option.eq_none_iff_forall_ne_some]
    intro d hd
    exact h d (completion?_eq_some_iff.mp hd ▸ he)

theorem completions_eq_zero {s : CacheSlot} {events : List CallEvent}
    (h : ∀ d, completed s d ∉ events) : completions s events = 0 := by
  unfold completions
  rw [List.countP_eq_zero]
  intro e he hsome
  obtain ⟨d, hd⟩ := Option.isSome_iff_exists.mp hsome
  exact h d (completion?_eq_some_iff.mp hd ▸ he)

/-! ### Contents of a slot -/

namespace Library

variable {σ : Type} {l l' : Library σ} {s : CacheSlot} {d d' : DefId} {es es' : List CallEvent}

/-- A definition in a cache is found in its slot, whatever else is in the cache. -/
def Unshadowed (l : Library σ) : Prop :=
  ∀ entry ∈ l.cached, l.find? ⟨entry.cache, entry.factory, entry.key⟩ = some entry.definition

theorem Occurs.find?_eq {e : CallEvent} (h : Occurs l e l') (s : CacheSlot) :
    l'.find? s = (l.find? s).or (e.completion? s) := by
  cases h with
  | completed t d => exact find?_settle l t s d
  | made fresh => exact Option.or_none.symm
  | entered absent => exact Option.or_none.symm
  | failed t => exact Option.or_none.symm
  | returned present => exact Option.or_none.symm

/-- **A slot keeps what is in it; an empty one takes the first definition that a body for it ends with.** -/
theorem Happens.find?_eq (h : Happens l es l') (s : CacheSlot) :
    l'.find? s = (l.find? s).or (firstCompletion? s es) := by
  induction h with
  | start => exact Option.or_none.symm
  | function h factory ih => exact ih
  | @occur es e _ _ h occurs ih =>
      have happend : firstCompletion? s (es ++ [e]) =
          (firstCompletion? s es).or (e.completion? s) := by
        unfold firstCompletion?
        rw [List.findSome?_append, List.findSome?_singleton]
      rw [occurs.find?_eq, ih, happend, Option.or_assoc]

theorem Happens.stays (h : Happens l es l') (hd : l.find? s = some d) : l'.find? s = some d := by
  rw [h.find?_eq, hd, Option.some_or]

theorem Occurs.unshadowed {e : CallEvent} (h : Occurs l e l') (hl : l.Unshadowed) :
    l'.Unshadowed := by
  have hkeeps : ∀ entry ∈ l.cached,
      l'.find? ⟨entry.cache, entry.factory, entry.key⟩ = some entry.definition := by
    intro entry hentry
    rw [h.find?_eq, hl entry hentry, Option.some_or]
  cases h with
  | made fresh => exact hkeeps
  | entered absent => exact hkeeps
  | failed t => exact hkeeps
  | returned present => exact hkeeps
  | completed t d =>
      intro entry hentry
      have hlabelled : (l.setParameters d t.key).find? t = l.find? t := rfl
      unfold settle at hentry
      simp only [hlabelled] at hentry
      cases ht : l.find? t with
      | some present =>
          rw [ht] at hentry
          exact hkeeps entry hentry
      | none =>
          rw [ht] at hentry
          rcases List.mem_cons.mp hentry with rfl | hold
          · rw [find?_settle]
            simp only [ht, if_true, Option.none_or]
          · exact hkeeps entry hold

theorem Happens.unshadowed (h : Happens l es l') (hl : l.Unshadowed) : l'.Unshadowed := by
  induction h with
  | start => exact hl
  | function h factory ih => exact ih
  | occur h occurs ih => exact occurs.unshadowed ih

theorem Happens.stored (h : Happens l es l') (hd : returned s d ∈ es) : l'.find? s = some d := by
  induction h with
  | start => cases hd
  | function h factory ih => exact ih hd
  | occur h occurs ih =>
      rcases List.mem_append.mp hd with hbefore | hlast
      · rw [occurs.find?_eq, ih hbefore, Option.some_or]
      · obtain rfl := List.mem_singleton.mp hlast
        cases occurs with
        | returned present => exact present

theorem Happens.empty_of_entered (h : Happens l es l') (he : entered s ∈ es) :
    l.find? s = none := by
  induction h with
  | start => cases he
  | function h factory ih => exact ih he
  | occur h occurs ih =>
      rcases List.mem_append.mp he with hbefore | hlast
      · exact ih hbefore
      · obtain rfl := List.mem_singleton.mp hlast
        cases occurs with
        | entered absent =>
            rw [h.find?_eq, Option.or_eq_none_iff] at absent
            exact absent.1

theorem Happens.empty (h : Happens l es l') (hs : l'.find? s = none) :
    l.find? s = none ∧ (∀ d, completed s d ∉ es) ∧ ∀ d, returned s d ∉ es := by
  have hempty := hs
  rw [h.find?_eq, Option.or_eq_none_iff] at hempty
  refine ⟨hempty.1, firstCompletion?_eq_none_iff.mp hempty.2, fun d hd => ?_⟩
  rw [h.stored hd] at hs
  cases hs

/-- The slot of a body is empty when the body begins. -/
theorem Happens.empty_before (h : Happens l (es ++ entered s :: es') l') :
    l.find? s = none ∧ (∀ d, completed s d ∉ es) ∧ ∀ d, returned s d ∉ es := by
  obtain ⟨l₁, hbefore, hafter⟩ := h.split
  exact hbefore.empty (hafter.empty_of_entered List.mem_cons_self)

end Library

/-! ### Bodies and their ends -/

/-- Every body that has begun has ended, and a call that has run a body to a definition has given one. -/
structure Rounded (events : List CallEvent) : Prop where
  ends : ∀ s, events.countP (endsBody s) = events.count (entered s)
  gives : ∀ s d, completed s d ∈ events → ∃ d', returned s d' ∈ events

theorem Rounded.nil : Rounded [] :=
  ⟨fun _ => rfl, fun _ _ h => by cases h⟩

theorem Rounded.made (d : DefId) : Rounded [made d] :=
  ⟨fun _ => rfl, fun s d' h => by cases List.mem_singleton.mp h⟩

theorem Rounded.returned (t : CacheSlot) (d : DefId) : Rounded [returned t d] :=
  ⟨fun _ => rfl, fun s d' h => by cases List.mem_singleton.mp h⟩

theorem Rounded.append {es es' : List CallEvent} (h : Rounded es) (h' : Rounded es') :
    Rounded (es ++ es') := by
  refine ⟨fun s => ?_, fun s d hd => ?_⟩
  · rw [List.countP_append, List.count_append, h.ends, h'.ends]
  · rcases List.mem_append.mp hd with hd | hd
    · obtain ⟨d', hd'⟩ := h.gives s d hd
      exact ⟨d', List.mem_append_left _ hd'⟩
    · obtain ⟨d', hd'⟩ := h'.gives s d hd
      exact ⟨d', List.mem_append_right _ hd'⟩

namespace Supply

open Step

variable {σ α : Type}

/-- A body with its beginning and its end, and the call around it. -/
theorem rounded_body {es : List CallEvent} (h : Rounded es) (s : CacheSlot)
    (result : Except BuildError DefId × Workspace σ) :
    Rounded (entered s :: es ++ [.ended s result.1]
      ++ CallEvent.given s (afterBody s result).1) := by
  constructor
  case ends =>
    intro t
    have hbody := h.ends t
    have hown : (if t = s then 1 else 0) = if s = t then 1 else 0 := if_congr eq_comm rfl rfl
    rcases result with ⟨_ | _, _⟩ <;>
      simp [ended, given, afterBody, endsBody, List.countP_cons, List.count_cons, hbody, hown]
  case gives =>
    intro t d hd
    obtain ⟨_ | d', w⟩ := result
    · obtain ⟨d₁, hd₁⟩ := h.gives t d (by simpa [ended, given, afterBody] using hd)
      exact ⟨d₁, by simp [hd₁]⟩
    · have hcases : completed t d ∈ es ∨ t = s ∧ d = d' := by
        simpa [ended, given, afterBody] using hd
      rcases hcases with hbody | ⟨rfl, rfl⟩
      · obtain ⟨d₁, hd₁⟩ := h.gives t d hbody
        exact ⟨d₁, by simp [hd₁]⟩
      · exact ⟨(w.library.find? t).getD d, by simp [given, afterBody]⟩

theorem runEvents_rounded {caller : Caller σ}
    {calls : FactoryId → CacheId → Args → Workspace σ → List CallEvent}
    (hcalls : ∀ f c args w, Rounded (calls f c args w)) (recipe : Recipe σ α) (w : Workspace σ) :
    Rounded (runEvents caller calls recipe w) := by
  induction recipe generalizing w with
  | done outcome => exact .nil
  | ask request next ih =>
      refine Rounded.append ?_ (ih _ _)
      cases request with
      | define spec =>
          simp only [requestEvents]
          cases ((define spec).apply w).1 with
          | error e => exact .nil
          | ok d => exact .made d
      | call f c args => exact hcalls f c args w
      | cacheSize cache => exact .nil
  | host update next ih => exact ih w.host { w with host := update w.host }

theorem callEvents_rounded (depth : Nat) (f : FactoryId) (c : CacheId) (args : Args)
    (w : Workspace σ) : Rounded (callEvents depth f c args w) := by
  induction depth generalizing f c args w with
  | zero => exact .nil
  | succ depth ih =>
      cases haccept : w.library.accept f args with
      | error e =>
          unfold callEvents
          simp only [haccept]
          exact .nil
      | ok accepted =>
          obtain ⟨factory, bound⟩ := accepted
          cases hfind : w.library.find? ⟨c, f, bound.key⟩ with
          | some d =>
              rw [(call_hit depth haccept hfind).2]
              exact .returned _ d
          | none =>
              rw [(call_miss depth haccept hfind).2]
              exact rounded_body (runEvents_rounded ih _ w) _ _

end Supply

/-- Bodies end only after they have begun. -/
theorem Course.ends_le {σ : Type} {w w' : Workspace σ} {events : List CallEvent}
    (h : Course w events w') (s : CacheSlot) :
    events.countP (endsBody s) ≤ events.count (entered s) := by
  induction h with
  | start => exact Nat.le_refl _
  | host h state ih => exact ih
  | function h factory ih => exact ih
  | define h fresh ih =>
      rw [List.countP_append, List.count_append]
      exact Nat.add_le_add ih (Nat.zero_le _)
  | enter h c accepted absent ih =>
      rw [List.countP_append, List.count_append]
      exact Nat.add_le_add ih (Nat.zero_le _)
  | call h depth f c args ih =>
      rw [List.countP_append, List.count_append, (Supply.callEvents_rounded depth f c args _).ends]
      exact Nat.add_le_add_right ih _

/-! ### Memoization -/

/-- What callers rely on, of the caches after a course. -/
structure Memoizes {σ : Type} (w : Workspace σ) (events : List CallEvent) (w' : Workspace σ) :
    Prop where
  /-- Calls of one function that give results for equal parameters give the same definition. -/
  same : ∀ s d d', returned s d ∈ events → returned s d' ∈ events → d = d'
  /-- A call that has a result tells so. -/
  tells : ∀ depth f c args d w₁, (Supply.call depth f c args).apply w' = (.ok d, w₁) →
    ∃ factory bound, w'.library.accept f args = .ok (factory, bound) ∧
      returned ⟨c, f, bound.key⟩ d ∈ Supply.callEvents depth f c args w'
  /-- What a call gives is in its slot from then on. -/
  stored : ∀ s d, returned s d ∈ events → w'.library.find? s = some d
  /-- What is in a slot stays there. -/
  stays : ∀ s d, w.library.find? s = some d → w'.library.find? s = some d
  /-- What is in a slot depends on the bodies for this slot alone. -/
  separate : ∀ s, w'.library.find? s = (w.library.find? s).or (firstCompletion? s events)
  /-- Every definition in a cache is found in its slot. -/
  unshadowed : w.library.Unshadowed → w'.library.Unshadowed
  /-- A body begins only while its slot is empty and no call has given a result for it. -/
  vacant : ∀ s before after, events = before ++ entered s :: after →
    w.library.find? s = none ∧ (∀ d, completed s d ∉ before) ∧ ∀ d, returned s d ∉ before
  /-- A call that finds its slot taken gives what is there, runs no body and changes nothing. -/
  hit : ∀ depth f c args factory bound d, w'.library.accept f args = .ok (factory, bound) →
    w'.library.find? ⟨c, f, bound.key⟩ = some d →
      (Supply.call (depth + 1) f c args).apply w' = (.ok d, w') ∧
        Supply.callEvents (depth + 1) f c args w' = [returned ⟨c, f, bound.key⟩ d]
  /-- A call whose body fails does no more than the body has done, and what is then in its slot has been
  given by a call in the body. -/
  fails : ∀ depth f c args factory bound e w₁, w'.library.accept f args = .ok (factory, bound) →
    w'.library.find? ⟨c, f, bound.key⟩ = none →
    (Supply.run (Supply.call depth) (factory.body bound)).apply w' = (.error e, w₁) →
      (Supply.call (depth + 1) f c args).apply w' = (.error e, w₁) ∧
        ∀ d, w₁.library.find? ⟨c, f, bound.key⟩ = some d →
          returned ⟨c, f, bound.key⟩ d ∈ Supply.runEvents (Supply.call depth)
            (Supply.callEvents depth) (factory.body bound) w'

section memoization

variable {σ α : Type} {w w' w₁ : Workspace σ}

/-- What a body leaves in a slot that was empty before has been given by a call in the body. -/
theorem Supply.returned_of_run {depth : Nat} {recipe : Recipe σ α} {s : CacheSlot} {d : DefId}
    (hempty : w.library.find? s = none)
    (hfind : ((Supply.run (Supply.call depth) recipe).apply w).2.library.find? s = some d) :
    returned s d ∈ Supply.runEvents (Supply.call depth) (Supply.callEvents depth) recipe w := by
  have happens := Supply.run_happens (Supply.call_happens depth) recipe w
  have hfirst := happens.find?_eq s
  rw [hempty, Option.none_or, hfind] at hfirst
  have hcompleted : ∃ d', completed s d' ∈
      Supply.runEvents (Supply.call depth) (Supply.callEvents depth) recipe w := by
    by_contra hnone
    rw [firstCompletion?_eq_none_iff.mpr fun d' hd' => hnone ⟨d', hd'⟩] at hfirst
    cases hfirst
  obtain ⟨d', hd'⟩ := hcompleted
  have hrounded : Rounded
      (Supply.runEvents (Supply.call depth) (Supply.callEvents depth) recipe w) :=
    Supply.runEvents_rounded (Supply.callEvents_rounded depth) recipe w
  obtain ⟨given, hgiven⟩ := hrounded.gives s d' hd'
  have hstored := happens.stored hgiven
  rw [hfind] at hstored
  obtain rfl := Option.some.inj hstored
  exact hgiven

/-- **Caches remember.**  However calls nest and whatever bodies do, a slot keeps the first definition that a
body for it ends with, and every call for it gives that one. -/
theorem calls_memoize {events : List CallEvent} (h : Course w events w') :
    Memoizes w events w' where
  same s d d' hd hd' := by
    have hfirst := h.happens.stored hd
    rw [h.happens.stored hd'] at hfirst
    exact (Option.some.inj hfirst).symm
  tells depth f c args d w₁ hcall := Supply.call_returned hcall
  stored s d hd := h.happens.stored hd
  stays s d hd := h.happens.stays hd
  separate s := h.happens.find?_eq s
  unshadowed hw := h.happens.unshadowed hw
  vacant s before after hevents := by
    subst hevents
    exact h.happens.empty_before
  hit depth f c args factory bound d haccept hfind := Supply.call_hit depth haccept hfind
  fails depth f c args factory bound e w₁ haccept hempty hbody := by
    refine ⟨?_, fun d hd => ?_⟩
    · rw [(Supply.call_miss depth haccept hempty).1, hbody]
      rfl
    · refine Supply.returned_of_run hempty ?_
      rw [hbody]
      exact hd

end memoization

namespace Sample

/-- A function that may call itself for the same parameters before it makes a definition. -/
def remaker : Factory Unit where
  signature := ⟨"make_reg", [("width", none), ("_again", some (.bool false))]⟩
  body bound := do
    let width ← Program.ofOutcome (bound.view "width" .integer some)
    if ← Program.ofOutcome (bound.bool "_again") then
      let _ ← Recipe.call ⟨0⟩ ⟨0⟩ { positional := [width] }
    Recipe.define { name := "Reg" }

/-- A library with nothing but this function. -/
def remaking : Workspace Unit where
  library := { factories := #[remaker] }
  host := ()

/-- The arguments for which the function calls itself. -/
def again : Args where
  positional := [.int 8]
  keyword := [("_again", .bool true)]

/-- The slot of both calls. -/
def eight : CacheSlot :=
  ⟨⟨0⟩, ⟨0⟩, .ofList [("width", .int 8)]⟩

end Sample

/-- The outer body begins first and ends last; the definition of the inner one stays. -/
theorem calls_memoize_remaking :
    Supply.callEvents 2 ⟨0⟩ ⟨0⟩ Sample.again Sample.remaking =
        [entered Sample.eight, entered Sample.eight, made ⟨0⟩, completed Sample.eight ⟨0⟩,
          returned Sample.eight ⟨0⟩, made ⟨1⟩, completed Sample.eight ⟨1⟩,
          returned Sample.eight ⟨0⟩] ∧
      Memoizes Sample.remaking ([] ++ Supply.callEvents 2 ⟨0⟩ ⟨0⟩ Sample.again Sample.remaking)
        ((Supply.call 2 ⟨0⟩ ⟨0⟩ Sample.again).apply Sample.remaking).2 :=
  ⟨by decide +kernel, calls_memoize (Course.start.call 2 ⟨0⟩ ⟨0⟩ Sample.again)⟩

end Wirework
