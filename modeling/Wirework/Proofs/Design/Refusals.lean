import Wirework.Proofs.Design.Structure

/-! # Refused calls

A call that is refused leaves the design as it was.  Nearly all steps make every check before the first change; that
such a step spares the state is read off the way it is put together (`Step.Spares`).  The step that inserts an
operation and then reads its result is the exception in form only: there is such a result
(`Edit.insertValue_cases`).

Making a copy of an image is different.  It may fail after part of the body has been copied; the new module is then
removed, and the operations and values made for it stay behind at the ends of their tables.  What is live is as it
was (`Design.Restores`). -/

namespace Wirework

namespace Step

variable {ε S α β : Type}

/-- A refusal of the step leaves the state as it was. -/
def Spares (step : Step ε S α) (s : S) : Prop :=
  ∀ e, (step.apply s).1 = .error e → (step.apply s).2 = s

section

variable {step : Step ε S α} {s : S}

theorem spares_of_cases (h : (∃ e, step.apply s = (.error e, s)) ∨ ∃ a s', step.apply s = (.ok a, s')) :
    step.Spares s := by
  intro e he
  rcases h with ⟨_, hrefused⟩ | ⟨_, _, hok⟩
  · rw [hrefused]
  · rw [hok] at he
    cases he

theorem Spares.discard (h : step.Spares s) : Spares (Functor.discard step) s := by
  intro e he
  rw [apply_discard] at he ⊢
  cases hs : (step.apply s).1 with
  | ok a => rw [hs] at he; cases he
  | error e' => exact h e' hs

theorem spares_throw (e : ε) (s : S) : (throw e : Step ε S α).Spares s :=
  fun _ _ => rfl

theorem spares_query_bind {read : S → Except ε β} {next : β → Step ε S α}
    (h : ∀ b, read s = .ok b → (next b).Spares s) : (query read >>= next).Spares s := by
  intro e he
  rw [apply_bind, apply_query] at he ⊢
  cases hs : read s with
  | error e' => rfl
  | ok b =>
      rw [hs] at he
      exact h b hs e he

theorem spares_get_bind {next : S → Step ε S α} (h : (next s).Spares s) : (get >>= next).Spares s :=
  h

theorem Spares.guard {c : Prop} [Decidable c] {e : ε} {next : β → Step ε S α} (h : c → step.Spares s) :
    (if c then step else throw e >>= next).Spares s := by
  by_cases hc : c
  · rw [if_pos hc]
    exact h hc
  · rw [if_neg hc]
    exact fun _ _ => rfl

theorem Spares.guard_not {c : Prop} [Decidable c] {e : ε} {next : β → Step ε S α} (h : ¬ c → step.Spares s) :
    (if c then throw e >>= next else step).Spares s := by
  by_cases hc : c
  · rw [if_pos hc]
    exact fun _ _ => rfl
  · rw [if_neg hc]
    exact h hc

end

end Step

namespace Edit

open Step

/-! ### Steps -/

/-- What has been inserted has its result. -/
theorem insertValue_cases (operation : Operation ModuleId ValueId) (type : HwType) (d : Design) :
    (∃ e, (insertValue operation type).apply d = (.error e, d)) ∨
      ∃ signal d', (insertValue operation type).apply d = (.ok signal, d') := by
  unfold insertValue
  rw [apply_bind]
  rcases insertOp_cases operation [type] none d with ⟨e, he⟩ | ⟨parent, d', _, _, hyields, hok⟩
  · exact .inl ⟨e, by rw [he]⟩
  · obtain ⟨op, hop, htypes⟩ := hyields
    obtain ⟨v, _, hv, hnil, hresults⟩ := List.forall₂_cons_left_iff.mp htypes
    obtain rfl := List.forall₂_nil_left_iff.mp hnil
    have hresult : d'.result d.nextOp 0 = .ok ⟨v, type⟩ := by
      refine bind_eq_ok_iff.mpr ⟨op, Design.getOp_eq_ok_iff.mpr hop, ?_⟩
      rw [hresults]
      exact Design.signal_eq_ok_iff.mpr ⟨hv, rfl⟩
    exact .inr ⟨_, d', by rw [hok]; exact congrArg (·, d') hresult⟩

theorem insertValue_spares (operation : Operation ModuleId ValueId) (type : HwType) (d : Design) :
    (insertValue operation type).Spares d :=
  spares_of_cases (insertValue_cases operation type d)

theorem addModule_spares (m : HwModule) (d : Design) : (addModule m).Spares d :=
  spares_of_cases ((addModule_cases m d).imp_right fun ⟨_, hok⟩ => ⟨_, _, hok⟩)

theorem addEntryBlock_spares (id : ModuleId) (d : Design) : (addEntryBlock id).Spares d :=
  spares_of_cases ((addEntryBlock_cases id d).imp_right fun ⟨_, _, _, hok⟩ => ⟨_, _, hok⟩)

theorem pushInsertionPoint_spares (id : ModuleId) (d : Design) : (pushInsertionPoint id).Spares d :=
  spares_query_bind fun _ _ => .guard_not fun _ => spares_of_cases (.inr ⟨_, _, rfl⟩)

theorem constant_spares (type : HwType) (value : Int) (d : Design) : (constant type value).Spares d := by
  unfold constant
  cases Constant.ofInt? type value with
  | none => exact spares_throw _ d
  | some c => exact insertValue_spares _ type d

theorem add_spares (lhs rhs : Signal) (d : Design) : (add lhs rhs).Spares d := by
  unfold add
  exact .guard fun _ => .guard fun _ => insertValue_spares _ lhs.type d

theorem register_spares (input : Signal) (d : Design) : (register input).Spares d := by
  unfold register
  refine spares_get_bind ?_
  cases d.scopes.clock? with
  | none => exact spares_throw _ d
  | some clock => exact insertValue_spares _ input.type d

theorem instantiate_spares (module : ModuleId) (name : String) (inputs : List ValueId) (parameters : AttributeMap)
    (location : Location) (d : Design) : (instantiate module name inputs parameters location).Spares d :=
  spares_of_cases <| (instantiate_cases module name inputs parameters location d).imp_right
    fun ⟨_, _, _, _, _, _, _, hok⟩ => ⟨_, _, hok⟩

theorem setAttribute_spares (id : OpId) (name : String) (value : Attribute) (d : Design) :
    (setAttribute id name value).Spares d :=
  spares_of_cases ((setAttribute_cases id name value d).imp_right fun ⟨_, _, hok⟩ => ⟨_, _, hok⟩)

theorem output_spares (values : List Signal) (d : Design) : (output values).Spares d :=
  spares_of_cases ((output_cases values d).imp_right fun ⟨_, _, _, _, hok⟩ => ⟨_, _, hok⟩)

end Edit

/-- Only making a copy of an image may leave something behind as it is refused. -/
theorem DesignCall.spares {call : DesignCall} (h : ∀ image symbol, call ≠ .importImage image symbol) (d : Design) :
    call.step.Spares d := by
  cases call with
  | newModule => exact (Edit.addModule_spares _ d).discard
  | newExternalModule => exact (Edit.addModule_spares _ d).discard
  | eraseModule id => exact .discard (Step.spares_of_cases (.inr ⟨_, _, rfl⟩))
  | addEntryBlock id => exact (Edit.addEntryBlock_spares id d).discard
  | pushInsertionPoint id => exact Edit.pushInsertionPoint_spares id d
  | popInsertionPoint => exact .discard (Step.spares_of_cases (.inr ⟨_, _, rfl⟩))
  | pushLocation location => exact Step.spares_of_cases (.inr ⟨_, _, rfl⟩)
  | popLocation => exact .discard (Step.spares_of_cases (.inr ⟨_, _, rfl⟩))
  | pushClock clock => exact Step.spares_of_cases (.inr ⟨_, _, rfl⟩)
  | popClock => exact .discard (Step.spares_of_cases (.inr ⟨_, _, rfl⟩))
  | constant type value => exact (Edit.constant_spares type value d).discard
  | zero type => exact (Edit.insertValue_spares _ type d).discard
  | add lhs rhs => exact (Edit.add_spares lhs rhs d).discard
  | register input => exact (Edit.register_spares input d).discard
  | registerWith input clock => exact (Edit.insertValue_spares _ input.type d).discard
  | instantiate module name inputs parameters location =>
      exact (Edit.instantiate_spares module name inputs parameters location d).discard
  | setAttribute id name value => exact Edit.setAttribute_spares id name value d
  | output values => exact Edit.output_spares values d
  | importImage image symbol => exact absurd rfl (h image symbol)

namespace Design

variable {d d' : Design}

/-! ### What is left of a copy -/

/-- What is live in `d'` and where construction stands is as it is in `d`, and the tables of operations and values
begin as those of `d`. -/
structure Restores (d d' : Design) : Prop where
  live : d'.liveModules = d.liveModules
  symbols : ∀ symbol, d'.find? symbol = d.find? symbol
  scopes : d'.scopes = d.scopes
  ops : d.ops.toList <+: d'.ops.toList
  values : d.values.toList <+: d'.values.toList

theorem Restores.refl (d : Design) : d.Restores d :=
  ⟨rfl, fun _ => rfl, rfl, List.prefix_rfl, List.prefix_rfl⟩

theorem Takes.restores (h : d.Takes none d') : d.Restores d' := by
  have hlive : d'.liveModules = d.liveModules := by
    refine liveModules_congr fun id => ?_
    by_cases hid : id = d.nextModule
    · rw [hid, h.module?_next, d.module?_nextModule]
    · exact h.module?_old id hid
  refine ⟨hlive, fun symbol => ?_, h.scopes_eq, ?_, ?_⟩
  · unfold find?
    rw [hlive]
  · refine List.prefix_iff_getElem?.mpr fun i hi => ?_
    rw [Array.getElem?_toList]
    exact h.op_old ⟨i⟩ _ (Array.getElem?_eq_getElem hi)
  · refine List.prefix_iff_getElem?.mpr fun i hi => ?_
    rw [Array.getElem?_toList]
    exact h.value_old ⟨i⟩ _ (Array.getElem?_eq_getElem hi)

theorem Restores.op?_eq_some (h : d.Restores d') {o : OpId} {op : Op} (ho : d.op? o = some op) :
    d'.op? o = some op := by
  obtain ⟨rest, hrest⟩ := h.ops
  unfold op? at ho ⊢
  rw [← Array.getElem?_toList] at ho ⊢
  rw [← hrest, List.getElem?_append_left (List.getElem?_eq_some_iff.mp ho).1, ho]

theorem restores_after {call : DesignCall} {e : IrError} (h : (call.step.apply d).1 = .error e) :
    d.Restores (d.after call) := by
  by_cases hcall : ∃ image symbol, call = .importImage image symbol
  · obtain ⟨image, symbol, rfl⟩ := hcall
    change ((discard (Edit.importImage image symbol)).apply d).1 = .error e at h
    change d.Restores ((discard (Edit.importImage image symbol)).apply d).2
    rw [Step.apply_discard] at h ⊢
    rcases Edit.importImage_cases image symbol d with ⟨_, left, hrefused, rfl | htakes⟩ | ⟨m, made, hok, _⟩
    · rw [hrefused]
      exact .refl left
    · rw [hrefused]
      exact htakes.restores
    · rw [hok] at h
      cases h
  · have hspares := DesignCall.spares (fun image symbol he => hcall ⟨image, symbol, he⟩) d
    change d.Restores (call.step.apply d).2
    rw [hspares e h]
    exact .refl d

end Design

/-- **Refused calls.**  A call that is refused leaves the design as it was.  Only a copy of an image that fails may
have extended the tables of operations and values; the live modules, with all that their bodies list, and the
scopes are as they were. -/
theorem refused_calls_undone {d : Design} {call : DesignCall} {e : IrError}
    (refused : (call.step.apply d).1 = .error e) :
    ((∀ image symbol, call ≠ .importImage image symbol) → d.after call = d) ∧
      d.Restores (d.after call) ∧
        (d.Reached → ∀ id m body, d.module? id = some m → m.body? = some body →
          ∀ o ∈ body.ops, ∃ op, d.op? o = some op ∧ (d.after call).op? o = some op) := by
  have hrestores := Design.restores_after refused
  refine ⟨fun hcall => DesignCall.spares hcall d e refused, hrestores, fun hd id m body hm hbody o ho => ?_⟩
  obtain ⟨op, hop, _⟩ := (hd.linked.bodies id m body hm hbody).parent o ho
  exact ⟨op, hop, hrestores.op?_eq_some hop⟩

/-- A copy that fails at its second operation. -/
theorem refused_calls_undone_copy :
    let image : ModuleImage :=
      { symbol := "Top", inputs := [], outputs := [], attributes := .empty, location := .unknown
        contents := .body [⟨.constant (.zero (.uint 8)), [.uint 8], .empty, .unknown⟩,
          ⟨.instantiate "Leaf" "leaf" [] .empty, [], .empty, .unknown⟩] }
    let d := Design.empty.after (.importImage image "Top")
    d.find? "Top" = none ∧ d.modules.size = 1 ∧ d.ops.size = 1 := by
  intro image d
  have hrefused : ((DesignCall.importImage image "Top").step.apply .empty).1 = .error (.unknownModule "Leaf") := by
    decide
  obtain ⟨-, hrestores, -⟩ := refused_calls_undone hrefused
  exact ⟨hrestores.symbols "Top", by decide, by decide⟩

end Wirework
