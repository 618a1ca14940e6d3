import Wirework.Proofs.Design.Importing

/-! # Designs that can be built

A design is built by a sequence of calls, each of them one of the steps of `Edit` with any arguments: what they refer
to may never have been made, may have been erased, or may belong to another design (`Design.build`).  A call that is
refused is part of the sequence as well.

What a call can do to the tables of a design are six kinds of changes (`Design.Changes`), and every call is a sequence
of them (`DesignCall.evolves`).  A property that each kind of change preserves therefore holds of every design that
can be built (`Design.Reached.induct`); the same changes are all that a session does to its design. -/

namespace Wirework

/-! ### Calls -/

/-- A call of a step that builds a design. -/
inductive DesignCall where
  | newModule (symbol : String) (inputs outputs : List Port) (attributes : AttributeMap)
      (location : Location)
  | newExternalModule (symbol : String) (inputs outputs : List Port)
      (parameters : List ParameterDecl) (attributes : AttributeMap) (location : Location)
  | eraseModule (id : ModuleId)
  | addEntryBlock (id : ModuleId)
  | pushInsertionPoint (id : ModuleId)
  | popInsertionPoint
  | pushLocation (location : Location)
  | popLocation
  | pushClock (clock : Option Clock)
  | popClock
  | constant (type : HwType) (value : Int)
  | zero (type : HwType)
  | add (lhs rhs : Signal)
  | register (input : Signal)
  | registerWith (input : Signal) (clock : Clock)
  | instantiate (module : ModuleId) (name : String) (inputs : List ValueId)
      (parameters : AttributeMap) (location : Location)
  | setAttribute (id : OpId) (name : String) (value : Attribute)
  | output (values : List Signal)
  | importImage (image : ModuleImage) (symbol : String)

/-- The step that a call takes. -/
def DesignCall.step : DesignCall → Edit Unit
  | newModule symbol inputs outputs attributes location =>
    discard (Edit.newModule symbol inputs outputs attributes location)
  | newExternalModule symbol inputs outputs parameters attributes location =>
    discard (Edit.newExternalModule symbol inputs outputs parameters attributes location)
  | eraseModule id => discard (Edit.eraseModule id)
  | addEntryBlock id => discard (Edit.addEntryBlock id)
  | pushInsertionPoint id => Edit.pushInsertionPoint id
  | popInsertionPoint => discard Edit.popInsertionPoint
  | pushLocation location => Edit.pushLocation location
  | popLocation => discard Edit.popLocation
  | pushClock clock => Edit.pushClock clock
  | popClock => discard Edit.popClock
  | constant type value => discard (Edit.constant type value)
  | zero type => discard (Edit.zero type)
  | add lhs rhs => discard (Edit.add lhs rhs)
  | register input => discard (Edit.register input)
  | registerWith input clock => discard (Edit.registerWith input clock)
  | instantiate module name inputs parameters location =>
    discard (Edit.instantiate module name inputs parameters location)
  | setAttribute id name value => Edit.setAttribute id name value
  | output values => Edit.output values
  | importImage image symbol => discard (Edit.importImage image symbol)

namespace Design

/-- The design after a call, which may have been refused. -/
def after (d : Design) (call : DesignCall) : Design :=
  (call.step.apply d).2

/-- The design that a sequence of calls builds. -/
def build (calls : List DesignCall) : Design :=
  calls.foldl after empty

/-- The design is built by some sequence of calls. -/
def Reached (d : Design) : Prop :=
  ∃ calls, build calls = d

/-! ### Changes -/

/-- What a call can do to a design at a time. -/
inductive Changes (d : Design) : Design → Prop
  | scopes (scopes : Scopes) : d.Changes { d with scopes }
  | addModule (m : HwModule) (unbegun : m.body? = none) :
      d.Changes { d with modules := d.modules.push (some m) }
  | eraseModule (id : ModuleId) :
      d.Changes { d with modules := d.modules.setIfInBounds id.index none }
  | beginBody {id : ModuleId} {m : HwModule} (live : d.module? id = some m)
      (unbegun : m.kind = .generated none) : d.Changes (d.beginBody id m)
  | append {parent : ModuleId} {operation : Operation ModuleId ValueId} {d' : Design}
      (appends : d.Appends parent operation d')
      (callee : ∀ c, operation.callee? = some c → d.IsLive c) : d.Changes d'
  | annotate {id : OpId} {op : Op} (found : d.op? id = some op) (attributes : AttributeMap) :
      d.Changes (d.annotate id op attributes)

/-- Some changes have been made one after another. -/
abbrev Evolves : Design → Design → Prop :=
  Relation.ReflTransGen Changes

instance : IsPreorder Design Evolves where
  refl _ := .refl
  trans _ _ _ := .trans

theorem Grows.evolves {d d' : Design} (h : d.Grows d') : d.Evolves d' := by
  induction h with
  | refl => exact .refl
  | tail _ hstep ih =>
      obtain ⟨parent, operation, _, happ, _, hcallee, _⟩ := hstep
      exact ih.tail (.append happ fun c hc => by rw [hcallee] at hc; cases hc)

end Design

/-! ### What calls do -/

namespace Edit

open Step

variable {α : Type} {d : Design}

/-- The step evolves the design it starts from. -/
abbrev EvolvesFrom (step : Edit α) (d : Design) : Prop :=
  step.Leads Design.Evolves (fun _ _ => True) d

theorem EvolvesFrom.discard {step : Edit α} (h : step.EvolvesFrom d) :
    EvolvesFrom (Functor.discard step) d := by
  refine ⟨?_, fun _ _ => trivial⟩
  rw [apply_discard]
  exact h.state

theorem evolvesFrom_of_cases {step : Edit α}
    (h : (∃ e, step.apply d = (.error e, d)) ∨
      ∃ a d', d.Changes d' ∧ step.apply d = (.ok a, d')) : step.EvolvesFrom d := by
  rcases h with ⟨e, he⟩ | ⟨a, d', hchange, hok⟩
  · exact leads_of_refused he _
  · exact leads_of_apply hok (.single hchange) fun _ _ => trivial

theorem EvolvesFrom.of_grows {step : Edit α} (h : step.Leads Design.Grows (fun _ _ => True) d) :
    step.EvolvesFrom d :=
  h.mono (fun _ h => h.evolves) fun _ _ _ h => h

theorem modifyScopes_evolves (f : Scopes → Scopes) (d : Design) :
    (modifyScopes f).EvolvesFrom d :=
  evolvesFrom_of_cases (.inr ⟨_, _, .scopes (f d.scopes), rfl⟩)

theorem pushInsertionPoint_evolves (id : ModuleId) (d : Design) :
    (pushInsertionPoint id).EvolvesFrom d := by
  refine (leads_query _ d).bind fun m d₁ _ _ => ?_
  by_cases h : m.body?.isNone = true
  · rw [if_pos h]
    exact (leads_throw (fun _ _ => False) _ d₁).bind fun _ _ _ h => h.elim
  · rw [if_neg h]
    exact modifyScopes_evolves _ d₁

theorem pushLocation_evolves (location : Location) (d : Design) :
    (pushLocation location).EvolvesFrom d :=
  modifyScopes_evolves _ d

theorem pushClock_evolves (clock : Option Clock) (d : Design) : (pushClock clock).EvolvesFrom d :=
  modifyScopes_evolves _ d

theorem leave_evolves {β : Type} (f : Scopes → Scopes) (left : Design → β) (d : Design) :
    (do let d ← get; modifyScopes f; return left d : Edit β).EvolvesFrom d :=
  (leads_get d).bind fun _ d₁ _ _ => (modifyScopes_evolves f d₁).bind fun _ d₂ _ _ =>
    (leads_pure _ d₂).forget

theorem addModule_evolves (m : HwModule) (unbegun : m.body? = none) (d : Design) :
    (addModule m).EvolvesFrom d :=
  evolvesFrom_of_cases <| (addModule_cases m d).imp_right fun ⟨_, hok⟩ =>
    ⟨_, _, .addModule m unbegun, hok⟩

theorem eraseModule_evolves (id : ModuleId) (d : Design) : (eraseModule id).EvolvesFrom d :=
  evolvesFrom_of_cases (.inr ⟨_, _, .eraseModule id, rfl⟩)

theorem addEntryBlock_evolves (id : ModuleId) (d : Design) : (addEntryBlock id).EvolvesFrom d :=
  evolvesFrom_of_cases <| (addEntryBlock_cases id d).imp_right fun ⟨_, hm, hkind, hok⟩ =>
    ⟨_, _, .beginBody hm hkind, hok⟩

theorem registerWith_evolves (input : Signal) (clock : Clock) (d : Design) :
    (registerWith input clock).EvolvesFrom d := by
  have hinsert : (insertOp (.register input.value clock.value) [input.type] none).EvolvesFrom d := by
    refine evolvesFrom_of_cases ((insertOp_cases _ _ _ d).imp_right ?_)
    rintro ⟨_, d', _, happ, _, hok⟩
    exact ⟨_, d', .append happ (fun _ hc => by cases hc), hok⟩
  unfold registerWith insertValue
  exact hinsert.bind fun _ d' _ _ => (leads_query _ d').forget

theorem instantiate_evolves (module : ModuleId) (name : String) (inputs : List ValueId)
    (parameters : AttributeMap) (location : Location) (d : Design) :
    (instantiate module name inputs parameters location).EvolvesFrom d := by
  refine evolvesFrom_of_cases ?_
  refine (instantiate_cases module name inputs parameters location d).imp_right ?_
  rintro ⟨callee, _, d', hcallee, _, happ, _, hok⟩
  exact ⟨_, d', .append happ fun c hc => Option.some.inj hc ▸ ⟨callee, hcallee⟩, hok⟩

theorem setAttribute_evolves (id : OpId) (name : String) (value : Attribute) (d : Design) :
    (setAttribute id name value).EvolvesFrom d :=
  evolvesFrom_of_cases <| (setAttribute_cases id name value d).imp_right fun ⟨_, hop, hok⟩ =>
    ⟨_, _, .annotate hop _, hok⟩

theorem output_evolves (values : List Signal) (d : Design) : (output values).EvolvesFrom d :=
  evolvesFrom_of_cases <| (output_cases values d).imp_right fun ⟨_, _, _, happ, hok⟩ =>
    ⟨_, _, .append happ (fun _ hc => by cases hc), hok⟩

theorem importBody_evolves (id : ModuleId) (symbol : String) (ops : List ImageOp) (d : Design) :
    (importBody id symbol ops).EvolvesFrom d := by
  refine (importBody_leads (fun d m hm hkind => ?_) (fun op _ d locals operation d' hop happ => ?_)
    symbol d).forget
  · exact .single (.beginBody hm hkind)
  · refine .single (.append happ fun c hc => ?_)
    obtain ⟨symbol, _, hfind⟩ := hop.callee? hc
    obtain ⟨m, hm, _⟩ := Design.find?_eq_some hfind
    exact ⟨m, hm⟩

theorem importImage_evolves (image : ModuleImage) (symbol : String) (d : Design) :
    (importImage image symbol).EvolvesFrom d := by
  unfold importImage
  cases image.contents with
  | external parameters => exact addModule_evolves _ rfl d
  | body ops =>
      refine (addModule_evolves _ rfl d).bind fun id d₁ _ _ => ?_
      refine Leads.bind (Q := fun _ _ => True) ?_ fun _ d₂ _ _ => (leads_pure id d₂).forget
      refine (importBody_evolves id symbol ops d₁).tryCatch fun e d₂ _ => ?_
      exact (eraseModule_evolves id d₂).discard.bind fun _ d₃ _ _ => leads_throw _ e d₃

end Edit

theorem DesignCall.evolves (call : DesignCall) (d : Design) : call.step.EvolvesFrom d := by
  cases call with
  | newModule => exact (Edit.addModule_evolves _ rfl d).discard
  | newExternalModule => exact (Edit.addModule_evolves _ rfl d).discard
  | eraseModule id => exact (Edit.eraseModule_evolves id d).discard
  | addEntryBlock id => exact (Edit.addEntryBlock_evolves id d).discard
  | pushInsertionPoint id => exact Edit.pushInsertionPoint_evolves id d
  | popInsertionPoint => exact (Edit.leave_evolves _ (·.scopes.insertionPoint?) d).discard
  | pushLocation location => exact Edit.pushLocation_evolves location d
  | popLocation => exact (Edit.leave_evolves _ (·.scopes.locations.head?) d).discard
  | pushClock clock => exact Edit.pushClock_evolves clock d
  | popClock => exact (Edit.leave_evolves _ (·.scopes.clock?) d).discard
  | constant type value => exact (Edit.EvolvesFrom.of_grows (Edit.constant_leads type value d)).discard
  | zero type => exact (Edit.EvolvesFrom.of_grows (Edit.zero_leads type d)).discard
  | add lhs rhs => exact (Edit.EvolvesFrom.of_grows (Edit.add_leads lhs rhs d)).discard
  | register input => exact (Edit.EvolvesFrom.of_grows (Edit.register_leads input d)).discard
  | registerWith input clock =>
      exact (Edit.registerWith_evolves input clock d).discard
  | instantiate module name inputs parameters location =>
      exact (Edit.instantiate_evolves module name inputs parameters location d).discard
  | setAttribute id name value => exact Edit.setAttribute_evolves id name value d
  | output values => exact Edit.output_evolves values d
  | importImage image symbol => exact (Edit.importImage_evolves image symbol d).discard

namespace Design

/-! ### Sequences of calls -/

theorem evolves_after (d : Design) (call : DesignCall) : d.Evolves (d.after call) :=
  (call.evolves d).state

theorem evolves_foldl (calls : List DesignCall) (d : Design) : d.Evolves (calls.foldl after d) := by
  induction calls generalizing d with
  | nil => exact .refl
  | cons call calls ih => exact (d.evolves_after call).trans (ih (d.after call))

theorem evolves_build (calls : List DesignCall) : empty.Evolves (build calls) :=
  evolves_foldl calls empty

theorem Reached.evolves {d : Design} (h : d.Reached) : empty.Evolves d := by
  obtain ⟨calls, rfl⟩ := h
  exact evolves_build calls

/-- What holds of the empty design and is preserved by changes holds of every design that is reached. -/
theorem Reached.induct {P : Design → Prop} {d : Design} (h : d.Reached) (hempty : P empty)
    (hchange : ∀ d d', P d → d.Changes d' → P d') : P d := by
  have hevolves := h.evolves
  clear h
  induction hevolves with
  | refl => exact hempty
  | tail _ hstep ih => exact hchange _ _ ih hstep

end Design

end Wirework
