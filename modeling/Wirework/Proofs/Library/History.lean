import Wirework.Proofs.Library.Growth

/-! # Histories of a library

What happens to a library is told by events: definitions are made, bodies of functions begin and end, and calls give
results.  `Supply.callEvents` reads the events of a call off its run, however deep the bodies in it call functions
again.  A `Course` is a history of calls and of all else that a library goes through, and it may end within bodies
that have not ended yet (`Course.run`).

Each event has a fixed effect on a library, and some events only occur in certain libraries (`Library.Occurs`).  A
course is a sequence of such occurrences (`Course.happens`), so a law of histories is proved event by event.

A call comes down to one of three equations: its arguments cannot be bound (`apply_call_refused`), its slot is taken
(`call_hit`), or the body of its function runs (`call_miss`).  Nothing after these unfolds a call. -/

namespace Wirework

/-- The place in a cache for the definition that a function makes for some parameters. -/
structure CacheSlot where
  cache : CacheId
  factory : FactoryId
  key : ParameterKey
deriving DecidableEq

/-- Something that happens to a library. -/
inductive CallEvent where
  /-- A definition has been made. -/
  | made (d : DefId)
  /-- A call has found nothing in the slot and begins the body of its function. -/
  | entered (slot : CacheSlot)
  /-- The body has ended with a definition. -/
  | completed (slot : CacheSlot) (d : DefId)
  /-- The body has ended with an error. -/
  | failed (slot : CacheSlot)
  /-- A call has given a result. -/
  | returned (slot : CacheSlot) (d : DefId)
deriving DecidableEq

namespace CallEvent

/-- The end of a body. -/
def ended (slot : CacheSlot) : Except BuildError DefId → CallEvent
  | .ok d => completed slot d
  | .error _ => failed slot

/-- The end of a call, if it has a result. -/
def given (slot : CacheSlot) : Except BuildError DefId → List CallEvent
  | .ok d => [returned slot d]
  | .error _ => []

end CallEvent

/-! ### Slots of a library -/

namespace Library

variable {σ : Type} {l l' : Library σ} {s t : CacheSlot} {d d' : DefId}

def find? (l : Library σ) (s : CacheSlot) : Option DefId :=
  l.cached? s.cache s.factory s.key

/-- Gives a definition the parameters of a slot and puts it there, unless the slot is taken. -/
def settle (l : Library σ) (s : CacheSlot) (d : DefId) : Library σ :=
  let labelled := l.setParameters d s.key
  match labelled.find? s with
  | some _ => labelled
  | none => labelled.remember ⟨s.cache, s.factory, s.key, d⟩

/-- The function of a call and its arguments, if they can be bound. -/
def accept (l : Library σ) (f : FactoryId) (args : Args) :
    Except BuildError (Factory σ × BoundArgs) := do
  let factory ← l.getFactory f
  let bound ← factory.signature.bind args
  return (factory, bound)

theorem find?_remember (l : Library σ) (s t : CacheSlot) (d : DefId) :
    (l.remember ⟨s.cache, s.factory, s.key, d⟩).find? t = if t = s then some d else l.find? t := by
  obtain ⟨c, f, key⟩ := s
  obtain ⟨c', f', key'⟩ := t
  unfold find? cached? cacheEntries remember
  by_cases hc : c = c'
  · simp only [List.filter_cons, hc, decide_true, if_true, List.find?_cons]
    by_cases hfk : f = f' ∧ key = key'
    · obtain ⟨rfl, rfl⟩ := hfk
      simp
    · have hne : ¬ (⟨c', f', key'⟩ : CacheSlot) = ⟨c', f, key⟩ := by
        intro heq
        injection heq with _ hf hkey
        exact hfk ⟨hf.symm, hkey.symm⟩
      rw [if_neg hne, decide_eq_false hfk]
  · have hne : ¬ (⟨c', f', key'⟩ : CacheSlot) = ⟨c, f, key⟩ := by
      intro heq
      injection heq with hcc
      exact hc hcc.symm
    simp only [List.filter_cons, hc, decide_false, Bool.false_eq_true, if_false, hne]

theorem find?_settle (l : Library σ) (s t : CacheSlot) (d : DefId) :
    (l.settle s d).find? t = (l.find? t).or (if t = s then some d else none) := by
  have hlabelled (t : CacheSlot) : (l.setParameters d s.key).find? t = l.find? t := rfl
  unfold settle
  simp only [hlabelled]
  cases hs : l.find? s with
  | some present =>
      by_cases ht : t = s
      · rw [hlabelled, ht, hs, Option.some_or]
      · rw [hlabelled, if_neg ht, Option.or_none]
  | none =>
      simp only [find?_remember, hlabelled]
      by_cases ht : t = s
      · rw [if_pos ht, if_pos ht, ht, hs, Option.none_or]
      · rw [if_neg ht, if_neg ht, Option.or_none]

end Library

/-! ### Events of a call -/

namespace Supply

open Step

variable {σ α : Type}

/-- The events of answering a request, given those of calls. -/
def requestEvents (calls : FactoryId → CacheId → Args → Workspace σ → List CallEvent) :
    FactoryRequest σ → Workspace σ → List CallEvent
  | .define spec, w =>
    match ((define spec).apply w).1 with
    | .ok d => [.made d]
    | .error _ => []
  | .call f c args, w => calls f c args w
  | .cacheSize _, _ => []

/-- The events of running a body, given those of calls. -/
def runEvents (caller : Caller σ)
    (calls : FactoryId → CacheId → Args → Workspace σ → List CallEvent) :
    Recipe σ α → Workspace σ → List CallEvent
  | .done _, _ => []
  | .ask request next, w =>
    requestEvents calls request w
      ++ runEvents caller calls (next ((answer caller request).apply w).1)
        ((answer caller request).apply w).2
  | .host update next, w =>
    runEvents caller calls (next w.host) { w with host := update w.host }

/-- The events of a call; a call whose arguments cannot be bound has none. -/
def callEvents : Nat → FactoryId → CacheId → Args → Workspace σ → List CallEvent
  | 0, _, _, _, _ => []
  | depth + 1, f, c, args, w =>
    match w.library.accept f args with
    | .error _ => []
    | .ok (factory, bound) =>
      let slot : CacheSlot := ⟨c, f, bound.key⟩
      let ran := match w.library.find? slot with
        | some _ => []
        | none =>
          .entered slot :: runEvents (call depth) (callEvents depth) (factory.body bound) w
            ++ [.ended slot ((run (call depth) (factory.body bound)).apply w).1]
      ran ++ CallEvent.given slot ((call (depth + 1) f c args).apply w).1

/-! ### Outcomes of a call -/

theorem apply_ask (read : Library σ → Except BuildError α) (w : Workspace σ) :
    (ask read).apply w = (read w.library, w) := rfl

theorem apply_modifyLibrary (f : Library σ → Library σ) (w : Workspace σ) :
    (modifyLibrary f).apply w = (.ok ⟨⟩, { w with library := f w.library }) := rfl

/-- What a call gives once the body of its function has ended. -/
def afterBody (s : CacheSlot) :
    Except BuildError DefId × Workspace σ → Except BuildError DefId × Workspace σ
  | (.error e, w) => (.error e, w)
  | (.ok d, w) => (.ok ((w.library.find? s).getD d), { w with library := w.library.settle s d })

theorem apply_build (caller : Caller σ) (f : FactoryId) (c : CacheId) (factory : Factory σ)
    (bound : BoundArgs) (w : Workspace σ) :
    (build caller f c factory bound).apply w =
      afterBody ⟨c, f, bound.key⟩ ((run caller (factory.body bound)).apply w) := by
  unfold build
  rw [apply_bind]
  rcases (run caller (factory.body bound)).apply w with ⟨e | d, w₁⟩
  · rfl
  simp only [apply_bind, apply_modifyLibrary, apply_get]
  have hlabelled : (w₁.library.setParameters d bound.key).cached? c f bound.key =
      w₁.library.find? ⟨c, f, bound.key⟩ := rfl
  have hfind : (w₁.library.setParameters d bound.key).find? ⟨c, f, bound.key⟩ =
      w₁.library.find? ⟨c, f, bound.key⟩ := rfl
  simp only [hlabelled, afterBody, Library.settle, hfind]
  cases w₁.library.find? ⟨c, f, bound.key⟩ with
  | some present => rfl
  | none => rfl

/-- A call whose arguments cannot be bound changes nothing. -/
theorem apply_call_refused {depth : Nat} {f : FactoryId} {c : CacheId} {args : Args}
    {w : Workspace σ} {e : BuildError} (h : w.library.accept f args = .error e) :
    (call (depth + 1) f c args).apply w = (.error e, w) := by
  unfold Library.accept at h
  unfold call callWith
  rw [apply_bind, apply_ask]
  cases hf : w.library.getFactory f with
  | error e' =>
      rw [hf] at h
      obtain rfl : e' = e := Except.error.inj h
      rfl
  | ok factory =>
      rw [hf] at h
      simp only [apply_bind, apply_ofOutcome]
      cases hb : factory.signature.bind args with
      | error e' =>
          simp only [Except.bind, bind, hb] at h
          obtain rfl : e' = e := Except.error.inj h
          rfl
      | ok bound =>
          simp only [Except.bind, bind, hb] at h
          cases h

section accepted

variable {f : FactoryId} {c : CacheId} {args : Args} {factory : Factory σ} {bound : BoundArgs}
  {w : Workspace σ}

theorem apply_call_accepted (depth : Nat) (h : w.library.accept f args = .ok (factory, bound)) :
    (call (depth + 1) f c args).apply w =
      match w.library.find? ⟨c, f, bound.key⟩ with
      | some d => (.ok d, w)
      | none =>
        afterBody ⟨c, f, bound.key⟩ ((run (call depth) (factory.body bound)).apply w) := by
  obtain ⟨factory', hf, h⟩ := bind_eq_ok_iff.mp h
  obtain ⟨bound', hb, h⟩ := bind_eq_ok_iff.mp h
  obtain ⟨hfactory, hbound⟩ := Prod.mk.inj (Except.ok.inj h)
  subst hfactory hbound
  change (callWith (call depth) f c args).apply w = _
  unfold callWith
  simp only [apply_bind, apply_ask, hf, apply_ofOutcome, hb, apply_get]
  have hfind : w.library.cached? c f bound'.key = w.library.find? ⟨c, f, bound'.key⟩ := rfl
  rw [hfind]
  cases w.library.find? ⟨c, f, bound'.key⟩ with
  | some d => rfl
  | none => exact apply_build (call depth) f c factory' bound' w

theorem call_hit (depth : Nat) {d : DefId} (h : w.library.accept f args = .ok (factory, bound))
    (hit : w.library.find? ⟨c, f, bound.key⟩ = some d) :
    (call (depth + 1) f c args).apply w = (.ok d, w) ∧
      callEvents (depth + 1) f c args w = [.returned ⟨c, f, bound.key⟩ d] := by
  have happly : (call (depth + 1) f c args).apply w = (.ok d, w) := by
    rw [apply_call_accepted depth h, hit]
  refine ⟨happly, ?_⟩
  unfold callEvents
  simp only [h, hit, happly]
  rfl

/-- A call that finds nothing runs the body of its function. -/
theorem call_miss (depth : Nat) (h : w.library.accept f args = .ok (factory, bound))
    (miss : w.library.find? ⟨c, f, bound.key⟩ = none) :
    (call (depth + 1) f c args).apply w =
        afterBody ⟨c, f, bound.key⟩ ((run (call depth) (factory.body bound)).apply w) ∧
      callEvents (depth + 1) f c args w =
        .entered ⟨c, f, bound.key⟩
          :: runEvents (call depth) (callEvents depth) (factory.body bound) w
          ++ [.ended ⟨c, f, bound.key⟩ ((run (call depth) (factory.body bound)).apply w).1]
          ++ CallEvent.given ⟨c, f, bound.key⟩
            (afterBody ⟨c, f, bound.key⟩ ((run (call depth) (factory.body bound)).apply w)).1 := by
  have happly : (call (depth + 1) f c args).apply w =
      afterBody ⟨c, f, bound.key⟩ ((run (call depth) (factory.body bound)).apply w) := by
    rw [apply_call_accepted depth h, miss]
  refine ⟨happly, ?_⟩
  unfold callEvents
  simp only [h, miss, happly]

end accepted

/-- A call that has a result tells of it. -/
theorem call_returned {depth : Nat} {f : FactoryId} {c : CacheId} {args : Args} {w w' : Workspace σ}
    {d : DefId} (h : (call depth f c args).apply w = (.ok d, w')) :
    ∃ factory bound, w.library.accept f args = .ok (factory, bound) ∧
      .returned ⟨c, f, bound.key⟩ d ∈ callEvents depth f c args w := by
  cases depth with
  | zero => cases h
  | succ depth =>
      cases haccept : w.library.accept f args with
      | error e =>
          rw [apply_call_refused haccept] at h
          cases h
      | ok accepted =>
          obtain ⟨factory, bound⟩ := accepted
          refine ⟨factory, bound, rfl, ?_⟩
          unfold callEvents
          simp only [haccept, h]
          exact List.mem_append_right _ List.mem_cons_self

theorem define_cases (spec : DefinitionSpec (Routine σ Unit)) (w : Workspace σ) :
    (∃ e, (define spec).apply w = (.error e, w)) ∨
      ∃ definition : Definition (Routine σ Unit), definition.parameters = none ∧
        (define spec).apply w = (.ok (w.library.addDefinition definition).1,
          { w with library := (w.library.addDefinition definition).2 }) := by
  unfold define
  simp only [apply_bind, apply_ofOutcome]
  cases h : Definition.ofSpec spec with
  | error e => exact .inl ⟨e, rfl⟩
  | ok definition =>
      exact .inr ⟨definition, Definition.ofSpec_parameters h, rfl⟩

end Supply

/-! ### Courses -/

/-- A history of a library that starts in the workspace `w`: its events, and the workspace it leads to. -/
inductive Course {σ : Type} (w : Workspace σ) : List CallEvent → Workspace σ → Prop
  | start : Course w [] w
  /-- The host changes. -/
  | host {events : List CallEvent} {w' : Workspace σ} (h : Course w events w') (state : σ) :
      Course w events { w' with host := state }
  /-- A definition is made. -/
  | define {events : List CallEvent} {w' : Workspace σ} (h : Course w events w')
      {definition : Definition (Routine σ Unit)} (fresh : definition.parameters = none) :
      Course w (events ++ [.made (w'.library.addDefinition definition).1])
        { w' with library := (w'.library.addDefinition definition).2 }
  /-- A parameterization function is added. -/
  | function {events : List CallEvent} {w' : Workspace σ} (h : Course w events w')
      (factory : Factory σ) :
      Course w events { w' with library := (w'.library.addFactory factory).2 }
  /-- A call finds nothing, and the body of its function begins. -/
  | enter {events : List CallEvent} {w' : Workspace σ} (h : Course w events w') {f : FactoryId}
      {args : Args} {factory : Factory σ} {bound : BoundArgs} (c : CacheId)
      (accepted : w'.library.accept f args = .ok (factory, bound))
      (absent : w'.library.find? ⟨c, f, bound.key⟩ = none) :
      Course w (events ++ [.entered ⟨c, f, bound.key⟩]) w'
  /-- A function is called, and the call ends. -/
  | call {events : List CallEvent} {w' : Workspace σ} (h : Course w events w') (depth : Nat)
      (f : FactoryId) (c : CacheId) (args : Args) :
      Course w (events ++ Supply.callEvents depth f c args w')
        ((Supply.call depth f c args).apply w').2

namespace Course

variable {σ α : Type} {w w' : Workspace σ} {events : List CallEvent}

/-- A body that has been entered leads, request by request, on along the course. -/
theorem run (h : Course w events w') (depth : Nat) (recipe : Recipe σ α) :
    Course w (events ++ Supply.runEvents (Supply.call depth) (Supply.callEvents depth) recipe w')
      ((Supply.run (Supply.call depth) recipe).apply w').2 := by
  induction recipe generalizing w' events with
  | done outcome =>
      rw [Supply.runEvents, List.append_nil]
      exact h
  | ask request next ih =>
      rw [Supply.runEvents, ← List.append_assoc]
      refine ih _ ?_
      cases request with
      | define spec =>
          rcases Supply.define_cases spec w' with ⟨e, he⟩ | ⟨definition, fresh, hok⟩
          · simp only [Supply.requestEvents, he, List.append_nil]
            change Course w events ((Supply.define spec).apply w').2
            rw [he]
            exact h
          · simp only [Supply.requestEvents, hok]
            change Course w _ ((Supply.define spec).apply w').2
            rw [hok]
            exact h.define fresh
      | call f c args => exact h.call depth f c args
      | cacheSize cache =>
          rw [Supply.requestEvents, List.append_nil]
          exact h
  | host update next ih => exact ih _ (h.host _)

end Course

/-! ### Occurrences -/

namespace Library

variable {σ : Type} {l l₁ l' : Library σ} {es es' : List CallEvent}

/-- What an event does to a library, and when it can occur. -/
inductive Occurs : Library σ → CallEvent → Library σ → Prop
  | made (l : Library σ) {definition : Definition (Routine σ Unit)}
      (fresh : definition.parameters = none) :
      Occurs l (.made (l.addDefinition definition).1) (l.addDefinition definition).2
  | entered {l : Library σ} {s : CacheSlot} (absent : l.find? s = none) : Occurs l (.entered s) l
  | completed (l : Library σ) (s : CacheSlot) (d : DefId) :
      Occurs l (.completed s d) (l.settle s d)
  | failed (l : Library σ) (s : CacheSlot) : Occurs l (.failed s) l
  | returned {l : Library σ} {s : CacheSlot} {d : DefId} (present : l.find? s = some d) :
      Occurs l (.returned s d) l

/-- Events occur one after the other; functions may be added in between. -/
inductive Happens (l : Library σ) : List CallEvent → Library σ → Prop
  | start : Happens l [] l
  | function {es : List CallEvent} {l' : Library σ} (h : Happens l es l') (factory : Factory σ) :
      Happens l es (l'.addFactory factory).2
  | occur {es : List CallEvent} {e : CallEvent} {l' l'' : Library σ} (h : Happens l es l')
      (occurs : Occurs l' e l'') : Happens l (es ++ [e]) l''

theorem Occurs.happens {e : CallEvent} (h : Occurs l e l') : Happens l [e] l' :=
  .occur .start h

theorem Happens.trans (h : Happens l es l₁) (h' : Happens l₁ es' l') :
    Happens l (es ++ es') l' := by
  induction h' with
  | start =>
      rw [List.append_nil]
      exact h
  | function h' factory ih => exact ih.function factory
  | occur h' occurs ih =>
      rw [← List.append_assoc]
      exact ih.occur occurs

/-- A history passes through a library between any two of its events. -/
theorem Happens.split (h : Happens l (es ++ es') l') :
    ∃ l₁, Happens l es l₁ ∧ Happens l₁ es' l' := by
  generalize hevents : es ++ es' = events at h
  induction h generalizing es' with
  | start =>
      obtain ⟨rfl, rfl⟩ := List.append_eq_nil_iff.mp hevents
      exact ⟨l, .start, .start⟩
  | function h factory ih =>
      obtain ⟨l₁, h₁, h₂⟩ := ih hevents
      exact ⟨l₁, h₁, h₂.function factory⟩
  | @occur before e _ l'' h occurs ih =>
      rcases List.eq_nil_or_concat es' with rfl | ⟨es'', e', rfl⟩
      · rw [List.append_nil] at hevents
        subst hevents
        exact ⟨l'', h.occur occurs, .start⟩
      · rw [List.concat_eq_append, ← List.append_assoc] at hevents
        obtain ⟨hbefore, he⟩ := List.append_inj' hevents rfl
        obtain rfl : e' = e := List.singleton_inj.mp he
        obtain ⟨l₁, h₁, h₂⟩ := ih hbefore
        rw [List.concat_eq_append]
        exact ⟨l₁, h₁, h₂.occur occurs⟩

end Library

namespace Supply

open Library

variable {σ α : Type}

theorem afterBody_happens (s : CacheSlot) (outcome : Except BuildError DefId) (w : Workspace σ) :
    Happens w.library (.ended s outcome :: CallEvent.given s (afterBody s (outcome, w)).1)
      (afterBody s (outcome, w)).2.library := by
  cases outcome with
  | error e => exact (Occurs.failed w.library s).happens
  | ok d =>
      refine (Occurs.completed w.library s d).happens.trans (Occurs.returned ?_).happens
      rw [find?_settle, if_pos rfl]
      cases w.library.find? s <;> rfl

theorem run_happens {caller : Caller σ}
    {calls : FactoryId → CacheId → Args → Workspace σ → List CallEvent}
    (hcalls : ∀ f c args (w : Workspace σ),
      Happens w.library (calls f c args w) ((caller f c args).apply w).2.library)
    (recipe : Recipe σ α) (w : Workspace σ) :
    Happens w.library (runEvents caller calls recipe w) ((run caller recipe).apply w).2.library := by
  induction recipe generalizing w with
  | done outcome => exact .start
  | ask request next ih =>
      refine Happens.trans (?_ : Happens _ _ ((answer caller request).apply w).2.library) (ih _ _)
      cases request with
      | define spec =>
          rcases define_cases spec w with ⟨e, he⟩ | ⟨definition, fresh, hok⟩
          · simp only [requestEvents, he]
            change Happens w.library [] ((define spec).apply w).2.library
            rw [he]
            exact .start
          · simp only [requestEvents, hok]
            change Happens w.library _ ((define spec).apply w).2.library
            rw [hok]
            exact (Occurs.made w.library fresh).happens
      | call f c args => exact hcalls f c args w
      | cacheSize cache => exact .start
  | host update next ih => exact ih w.host { w with host := update w.host }

/-- The events of a call occur in turn. -/
theorem call_happens (depth : Nat) (f : FactoryId) (c : CacheId) (args : Args) (w : Workspace σ) :
    Happens w.library (callEvents depth f c args w) ((call depth f c args).apply w).2.library := by
  induction depth generalizing f c args w with
  | zero => exact .start
  | succ depth ih =>
      cases haccept : w.library.accept f args with
      | error e =>
          unfold callEvents
          simp only [haccept, apply_call_refused haccept]
          exact .start
      | ok accepted =>
          obtain ⟨factory, bound⟩ := accepted
          cases hfind : w.library.find? ⟨c, f, bound.key⟩ with
          | some d =>
              obtain ⟨happly, hevents⟩ := call_hit depth haccept hfind
              rw [happly, hevents]
              exact (Occurs.returned hfind).happens
          | none =>
              obtain ⟨happly, hevents⟩ := call_miss depth haccept hfind
              rw [happly, hevents, List.append_assoc]
              have hbody := (Occurs.entered hfind).happens.trans
                (run_happens ih (factory.body bound) w)
              exact hbody.trans (afterBody_happens ⟨c, f, bound.key⟩ _ _)

end Supply

/-- A course is a sequence of occurrences. -/
theorem Course.happens {σ : Type} {w w' : Workspace σ} {events : List CallEvent}
    (h : Course w events w') : w.library.Happens events w'.library := by
  induction h with
  | start => exact .start
  | host h state ih => exact ih
  | define h fresh ih => exact ih.occur (.made _ fresh)
  | function h factory ih => exact ih.function factory
  | enter h c accepted absent ih => exact ih.occur (.entered absent)
  | call h depth f c args ih => exact ih.trans (Supply.call_happens depth f c args _)

end Wirework
