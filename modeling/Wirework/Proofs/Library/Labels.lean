import Wirework.Proofs.Library.Memory

/-! # Parameters of definitions

The parameters of a definition are those of the slot for which a body has last ended with it
(`Library.Happens.parameters_eq`): a body may end with a definition that has been made before, and gives it new
parameters then.

Parameters are told along a history (`labelAfter`): an event gives a definition parameters or leaves them as they are,
and only what happens to the definition itself does (`Occurs.label?_eq`).  A property of parameters that holds at
first and of every body that ends with the definition therefore holds in the end (`Happens.label?_induct`).

So the definitions in a cache carry the parameters they were made for as long as no body ends with a definition that
another has ended with for other parameters (`labels_follow_bodies`); a body that does so gives another name to a
definition that is in a cache (`entry_renamed`). -/

namespace Wirework

open CallEvent

/-- The parameters of a definition after an event. -/
def relabel (d : DefId) (label : Option ParameterKey) : CallEvent → Option ParameterKey
  | made d' => if d = d' then none else label
  | completed s d' => if d = d' then some s.key else label
  | _ => label

/-- The parameters of a definition after some events, given those before. -/
def labelAfter (d : DefId) (label : Option ParameterKey) (events : List CallEvent) :
    Option ParameterKey :=
  events.foldl (relabel d) label

/-- Bodies end with definitions that have been made before, and for each with the same parameters. -/
structure Faithful (events : List CallEvent) : Prop where
  made : ∀ s d before after, events = before ++ completed s d :: after → made d ∉ after
  agree : ∀ s t d, completed s d ∈ events → completed t d ∈ events → s.key = t.key

theorem Faithful.left {es es' : List CallEvent} (h : Faithful (es ++ es')) : Faithful es where
  made s d before after hes hmade :=
    h.made s d before (after ++ es') (by simp [hes]) (List.mem_append_left _ hmade)
  agree s t d hs ht := h.agree s t d (List.mem_append_left _ hs) (List.mem_append_left _ ht)

/-- Where bodies are faithful, a definition carries the parameters for which some body has ended with it. -/
theorem Faithful.labelAfter_eq {events : List CallEvent} (h : Faithful events) {s : CacheSlot}
    {d : DefId} (hd : completed s d ∈ events) (label : Option ParameterKey) :
    labelAfter d label events = some s.key := by
  obtain ⟨before, after, rfl⟩ := List.append_of_mem hd
  have hkeeps : ∀ e ∈ after, relabel d (some s.key) e = some s.key := by
    intro e he
    cases e with
    | made d' =>
        refine if_neg ?_
        rintro rfl
        exact h.made s d before after rfl he
    | completed t d' =>
        by_cases hdd : d = d'
        · subst hdd
          have hkey := h.agree s t d hd (by simp [he])
          rw [relabel, if_pos rfl, hkey]
        · exact if_neg hdd
    | entered | failed | returned => rfl
  have hset : relabel d (labelAfter d label before) (completed s d) = some s.key := if_pos rfl
  unfold labelAfter at hset ⊢
  rw [List.foldl_append, List.foldl_cons, hset]
  exact List.foldlRecOn after (relabel d) (motive := (· = some s.key)) rfl
    fun label hlabel e he => hlabel ▸ hkeeps e he

/-! ### Parameters in a library -/

namespace Library

variable {σ : Type} {l l' : Library σ} {d : DefId} {s : CacheSlot} {es : List CallEvent}
  {definition : Definition (Routine σ Unit)}

/-- The parameters of the definition of a handle, if it has any. -/
def label? (l : Library σ) (d : DefId) : Option ParameterKey :=
  l.definitions[d.index]?.bind (·.parameters)

theorem label?_of_getDefinition (hd : l.getDefinition d = .ok definition) :
    l.label? d = definition.parameters := by
  unfold label?
  rw [getDefinition_eq_ok.mp hd, Option.bind_some]

theorem definitions_settle (l : Library σ) (s : CacheSlot) (d : DefId) :
    (l.settle s d).definitions = (l.setParameters d s.key).definitions := by
  unfold settle
  simp only
  cases (l.setParameters d s.key).find? s <;> rfl

theorem label?_addDefinition (l : Library σ) (definition : Definition (Routine σ Unit))
    (d : DefId) : (l.addDefinition definition).2.label? d =
      if d = (l.addDefinition definition).1 then definition.parameters else l.label? d := by
  obtain ⟨i⟩ := d
  unfold label? addDefinition
  simp only [Array.getElem?_push, DefId.mk.injEq]
  by_cases hi : i = l.definitions.size
  · rw [if_pos hi, if_pos hi, Option.bind_some]
  · rw [if_neg hi, if_neg hi]

theorem label?_settle (l : Library σ) (s : CacheSlot) {d : DefId}
    (hd : d.index < l.definitions.size) (d' : DefId) :
    (l.settle s d').label? d = if d = d' then some s.key else l.label? d := by
  obtain ⟨i⟩ := d
  obtain ⟨j⟩ := d'
  unfold label?
  rw [definitions_settle, setParameters, Array.getElem?_modify, Array.getElem?_eq_getElem hd]
  simp only [DefId.mk.injEq]
  by_cases hij : i = j
  · rw [if_pos hij, if_pos hij.symm]
    rfl
  · rw [if_neg hij, if_neg fun h => hij h.symm]

/-- Only what happens to a definition itself changes its parameters. -/
theorem Occurs.label?_eq {e : CallEvent} (h : Occurs l e l') (hd : d.index < l'.definitions.size)
    {label : Option ParameterKey} (hlabel : d.index < l.definitions.size → l.label? d = label) :
    l'.label? d = relabel d label e := by
  cases h with
  | entered absent => exact hlabel hd
  | failed t => exact hlabel hd
  | returned present => exact hlabel hd
  | @made definition fresh =>
      rw [label?_addDefinition, relabel, fresh]
      by_cases hnew : d = (l.addDefinition definition).1
      · rw [if_pos hnew, if_pos hnew]
      · rw [if_neg hnew, if_neg hnew]
        refine hlabel ?_
        have hne : d.index ≠ l.definitions.size := fun h => hnew (congrArg DefId.mk h)
        have hsize : d.index < l.definitions.size + 1 := by
          simpa only [addDefinition, Array.size_push] using hd
        omega
  | completed t d' =>
      rw [definitions_settle, setParameters, Array.size_modify] at hd
      rw [label?_settle l t hd, relabel, hlabel hd]

theorem Happens.label?_eq (h : Happens l es l') (hd : d.index < l'.definitions.size) :
    l'.label? d = labelAfter d (l.label? d) es := by
  induction h with
  | start => rfl
  | function h factory ih => exact ih hd
  | occur h occurs ih =>
      rw [labelAfter, List.foldl_append]
      exact occurs.label?_eq hd ih

/-- **A definition has the parameters of the slot for which a body has last ended with it.** -/
theorem Happens.parameters_eq (h : Happens l es l') (hd : l'.getDefinition d = .ok definition) :
    definition.parameters = labelAfter d (l.label? d) es := by
  rw [← label?_of_getDefinition hd]
  obtain ⟨hlt, _⟩ := Array.getElem?_eq_some_iff.mp (getDefinition_eq_ok.mp hd)
  exact h.label?_eq hlt

theorem Happens.extends (h : Happens l es l') : l.Extends l' := by
  induction h with
  | start => exact refl_of Extends l
  | function h factory ih => exact ih
  | occur h occurs ih =>
      refine trans_of Extends ih ?_
      cases occurs with
      | made fresh => exact extends_addDefinition _ _
      | entered absent => exact refl_of Extends _
      | failed t => exact refl_of Extends _
      | returned present => exact refl_of Extends _
      | completed t d' =>
          intro d₁ found hfound
          have hextends := extends_setParameters _ d' t.key d₁ found hfound
          simp only [getDefinition_eq_ok, definitions_settle] at hextends ⊢
          exact hextends

/-- The parameters of a definition that is there stay as they are, but for bodies that end with it. -/
theorem Happens.label?_induct {P : Option ParameterKey → Prop} (h : Happens l es l')
    (hd : l.getDefinition d = .ok definition) (start : P (l.label? d))
    (ended : ∀ s, .completed s d ∈ es → P (some s.key)) : P (l'.label? d) := by
  induction h with
  | start => exact start
  | function h factory ih => exact ih ended
  | @occur es e l₁ l₂ h occurs ih =>
      have ih := ih fun s hs => ended s (List.mem_append_left _ hs)
      obtain ⟨found, hfound, -⟩ := h.extends d definition hd
      obtain ⟨hlt, -⟩ := Array.getElem?_eq_some_iff.mp (getDefinition_eq_ok.mp hfound)
      cases occurs with
      | entered | failed | returned => exact ih
      | made fresh =>
          rw [label?_addDefinition, if_neg]
          · exact ih
          · rintro rfl
            exact absurd hlt (Nat.lt_irrefl _)
      | completed t d' =>
          rw [label?_settle l₁ t hlt]
          by_cases hd' : d = d'
          · subst hd'
            rw [if_pos rfl]
            exact ended t (List.mem_append_right _ List.mem_cons_self)
          · rw [if_neg hd']
            exact ih

theorem Happens.completed_of_find? (h : Happens l es l') (hl : l.cached = [])
    (hd : l'.find? s = some d) : .completed s d ∈ es := by
  have hempty : l.find? s = none := by
    unfold find? cached? cacheEntries
    rw [hl]
    rfl
  rw [h.find?_eq, hempty, Option.none_or] at hd
  obtain ⟨e, he, hcompletion⟩ := List.exists_of_findSome?_eq_some hd
  exact completion?_eq_some_iff.mp hcompletion ▸ he

theorem Happens.carries (h : Happens l es l') (hl : l.cached = []) (hes : Faithful es)
    (hs : l'.find? s = some d) (hd : l'.getDefinition d = .ok definition) :
    definition.parameters = some s.key := by
  rw [h.parameters_eq hd]
  exact hes.labelAfter_eq (h.completed_of_find? hl hs) _

end Library

/-! ### Caches whose definitions carry their parameters -/

/-- What is known of the parameters of definitions after a course that began with empty caches. -/
structure Labels {σ : Type} (w : Workspace σ) (events : List CallEvent) (w' : Workspace σ) :
    Prop where
  /-- A definition has the parameters of the slot for which a body has last ended with it. -/
  last : ∀ d definition, w'.library.getDefinition d = .ok definition →
    definition.parameters = labelAfter d (w.library.label? d) events
  /-- A definition in a cache carries the parameters of its slot. -/
  entries : Faithful events → ∀ s d definition, w'.library.find? s = some d →
    w'.library.getDefinition d = .ok definition → definition.parameters = some s.key
  /-- What a call gives carries the parameters of the call. -/
  results : ∀ depth f c args d w₁, (Supply.call depth f c args).apply w' = (.ok d, w₁) →
    Faithful (events ++ Supply.callEvents depth f c args w') →
      ∃ factory bound, w'.library.accept f args = .ok (factory, bound) ∧
        ∀ definition, w₁.library.getDefinition d = .ok definition →
          definition.parameters = some bound.key
  /-- A definition that is in a cache keeps its name. -/
  names : ∀ later w'', Course w' later w'' → Faithful (events ++ later) →
    ∀ s d definition, w'.library.find? s = some d → w'.library.getDefinition d = .ok definition →
      ∃ definition', w''.library.getDefinition d = .ok definition' ∧
        definition'.name = definition.name

/-- **Definitions carry the parameters for which bodies end with them.**  As long as no body ends with a
definition that another has ended with for other parameters, those in a cache carry the parameters of
their slots and keep their names. -/
theorem labels_follow_bodies {σ : Type} {w w' : Workspace σ} {events : List CallEvent}
    (h : Course w events w') (hnew : w.library.cached = []) : Labels w events w' where
  last d definition hd := h.happens.parameters_eq hd
  entries hfaithful s d definition hs hd := h.happens.carries hnew hfaithful hs hd
  results depth f c args d w₁ hcall hfaithful := by
    obtain ⟨factory, bound, haccept, hreturned⟩ := Supply.call_returned hcall
    refine ⟨factory, bound, haccept, fun definition hd => ?_⟩
    have happens := (h.call depth f c args).happens
    rw [hcall] at happens
    have hstored := happens.stored (List.mem_append_right _ hreturned)
    exact happens.carries hnew hfaithful hstored hd
  names later w'' hlater hfaithful s d definition hs hd := by
    obtain ⟨definition', hd', halike⟩ := hlater.happens.extends d definition hd
    have happens := h.happens.trans hlater.happens
    have hbefore := h.happens.carries hnew hfaithful.left hs hd
    have hafter := happens.carries hnew hfaithful (hlater.happens.stays hs) hd'
    unfold Definition.Alike at halike
    rw [hafter, ← hbefore] at halike
    exact ⟨definition', hd', congrArg Definition.name halike⟩

namespace Sample

/-- A function that makes a register. -/
def regMaker : Factory Unit where
  signature := ⟨"make_reg", [("width", none)]⟩
  body _ := Recipe.define
    { name := "Reg", declarations := [("build", .generator (pure ()) .unknown)] }

/-- A function that gives the definition that has been made first. -/
def standardMaker : Factory Unit where
  signature := ⟨"standard_reg", [("size", none)]⟩
  body _ := Program.ofOutcome (.ok ⟨0⟩)

/-- A library with both functions. -/
def registers : Workspace Unit where
  library := { factories := #[regMaker, standardMaker] }
  host := ()

/-- A register of width eight has been made. -/
def madeEight : Workspace Unit :=
  ((Supply.call 1 ⟨0⟩ ⟨0⟩ { positional := [.int 8] }).apply registers).2

/-- The other function has given the same register. -/
def standardEight : Workspace Unit :=
  ((Supply.call 1 ⟨1⟩ ⟨0⟩ { positional := [.int 1] }).apply madeEight).2

/-- Parameters and name of the definition of a handle. -/
def Named (w : Workspace Unit) (d : DefId) (key : ParameterKey) (name : String) : Prop :=
  w.library.definitions[d.index]?.map (fun definition => (definition.parameters, definition.name)) =
    some (some key, name)

instance (w : Workspace Unit) (d : DefId) (key : ParameterKey) (name : String) :
    Decidable (Named w d key name) :=
  inferInstanceAs (Decidable (_ = _))

/-- The events of making the register of width eight. -/
def makingEight : List CallEvent :=
  [] ++ Supply.callEvents 1 ⟨0⟩ ⟨0⟩ { positional := [.int 8] } registers

end Sample

theorem labels_follow_bodies_eight :
    Sample.madeEight.library.find? Sample.eight = some ⟨0⟩ ∧
      Sample.Named Sample.madeEight ⟨0⟩ Sample.eight.key "Reg_width8" ∧
      Labels Sample.registers Sample.makingEight Sample.madeEight :=
  ⟨by decide +kernel, by decide +kernel,
    labels_follow_bodies (Course.start.call 1 ⟨0⟩ ⟨0⟩ { positional := [.int 8] }) rfl⟩

/-- A function that gives a definition from a cache changes its parameters and its name there. -/
theorem entry_renamed :
    Course Sample.registers (Sample.makingEight
        ++ Supply.callEvents 1 ⟨1⟩ ⟨0⟩ { positional := [.int 1] } Sample.madeEight)
      Sample.standardEight ∧
      Sample.madeEight.library.find? Sample.eight = some ⟨0⟩ ∧
      Sample.Named Sample.madeEight ⟨0⟩ Sample.eight.key "Reg_width8" ∧
      Sample.standardEight.library.find? Sample.eight = some ⟨0⟩ ∧
      Sample.Named Sample.standardEight ⟨0⟩ (.ofList [("size", .int 1)]) "Reg_size1" :=
  ⟨(Course.start.call 1 ⟨0⟩ ⟨0⟩ _).call 1 ⟨1⟩ ⟨0⟩ _, by decide +kernel, by decide +kernel,
    by decide +kernel, by decide +kernel⟩

end Wirework
