import Wirework.Proofs.Design.Importing
import Wirework.Proofs.Steps

/-! # Operations that are looked up are there

While an image is copied into a design, each of its operations is appended and then looked up again, for the check and
for its results.  No other step of copying refers to an operation, and an operation that has just been appended is in
the table, so a copy never ends with a missing operation (`Edit.importImage_avoids`), in whatever design it is made
and whatever the image says.

Each step of copying is shown to avoid that error, in the order in which the steps call one another; only the step
that appends has to know what it leaves behind (`Edit.importOps_avoids`). -/

namespace Wirework

open Step

/-- An operation has been looked up that is not in the table. -/
def IrError.IsOpFault (e : IrError) : Prop := ∃ id, e = .invalidOp id

namespace Edit

/-! ### Modules and bodies -/

theorem getModule_spared (d : Design) (id : ModuleId) : Spared IrError.IsOpFault (d.getModule id) := by
  unfold Design.getModule
  cases d.module? id with
  | some m => exact spared_ok m
  | none => exact spared_error nofun

theorem getValue_spared (d : Design) (id : ValueId) : Spared IrError.IsOpFault (d.getValue id) := by
  unfold Design.getValue
  cases d.value? id with
  | some value => exact spared_ok value
  | none => exact spared_error nofun

theorem addModule_avoids (m : HwModule) (d : Design) : (addModule m).Avoids IrError.IsOpFault d := by
  unfold addModule
  refine avoids_get_bind (.guard nofun fun _ => .guard_not nofun fun _ => ?_)
  exact avoids_of_ok rfl

theorem addEntryBlock_avoids (id : ModuleId) (d : Design) :
    (addEntryBlock id).Avoids IrError.IsOpFault d := by
  unfold addEntryBlock
  refine avoids_query_bind (getModule_spared d id) fun m _ => ?_
  cases m.kind with
  | external parameters => exact avoids_throw nofun d
  | generated body =>
      cases body with
      | some body => exact avoids_throw nofun d
      | none => exact avoids_of_ok rfl

theorem checkOperand_avoids (parent : ModuleId) (value : ValueId) (d : Design) :
    (checkOperand parent value).Avoids IrError.IsOpFault d := by
  unfold checkOperand
  refine avoids_get_bind ?_
  cases d.owner? value with
  | none => exact avoids_throw nofun d
  | some owner =>
      refine .ite (fun _ => avoids_pure _ d) fun _ => ?_
      exact avoids_query_bind (getModule_spared d parent) fun m _ => avoids_throw nofun d

theorem appendOp_avoids (parent : ModuleId) (operation : Operation ModuleId ValueId)
    (types : List HwType) (attributes : AttributeMap) (location : Location) (d : Design) :
    (appendOp parent operation types attributes location).Avoids IrError.IsOpFault d := by
  unfold appendOp
  refine (avoids_forM (fun v _ d => checkOperand_avoids parent v d) d).bind fun _ d₁ _ => ?_
  refine avoids_query_bind (getModule_spared d₁ parent) fun m _ => ?_
  cases m.body? with
  | none => exact avoids_throw nofun d₁
  | some body => exact .guard_not nofun fun _ => avoids_of_ok rfl

/-! ### Copies of images -/

theorem traverse_avoids (copied : Operation String Nat) (locals : List ValueId) (d : Design) :
    (copied.traverse importedCallee (importedValue locals)).Avoids IrError.IsOpFault d := by
  have hvalue (position : Nat) : Spared IrError.IsOpFault (valueAt locals position) := by
    unfold valueAt
    cases locals[position]? with
    | some v => exact spared_ok v
    | none => exact spared_error nofun
  have hmodule (symbol : String) : Spared IrError.IsOpFault (moduleNamed d symbol) := by
    unfold moduleNamed
    cases d.find? symbol with
    | some id => exact spared_ok id
    | none => exact spared_error nofun
  unfold Avoids
  rw [traverse_apply]
  unfold Operation.traverse
  cases copied with
  | constant c => exact spared_ok _
  | add lhs rhs => exact (hvalue lhs).bind fun _ _ => (hvalue rhs).bind fun _ _ => spared_ok _
  | register input clock => exact (hvalue input).bind fun _ _ => (hvalue clock).bind fun _ _ => spared_ok _
  | instantiate module name inputs parameters =>
      exact (spared_mapM fun v _ => hvalue v).bind fun _ _ => (hmodule module).bind fun _ _ => spared_ok _
  | output values => exact (spared_mapM fun v _ => hvalue v).bind fun _ _ => spared_ok _

/-- Checking an operation of the table. -/
theorem verify_spared {d : Design} {id : OpId} {op : Op} (hop : d.op? id = some op) :
    Spared IrError.IsOpFault (d.verify id) := by
  have hoperand (v : ValueId) : Spared IrError.IsOpFault (discard (d.getValue v)) :=
    (getValue_spared d v).bind fun _ _ => spared_ok _
  unfold Design.verify
  rw [Design.getOp_eq_ok_iff.mpr hop]
  refine Spared.bind (spared_ok op) fun op' hop' => ?_
  refine (spared_forM fun v _ => hoperand v).bind fun _ _ => ?_
  cases op'.operation with
  | instantiate module name inputs parameters =>
      dsimp only
      unfold Design.verifyInstance
      refine .guard nofun fun _ => (getModule_spared d module).bind fun callee _ => .guard nofun fun _ => ?_
      refine spared_forM fun (port, input) _ => ?_
      dsimp only
      unfold Design.verifyInput
      refine (getValue_spared d input).bind fun value _ => ?_
      dsimp only
      exact .ite (fun _ => spared_error nofun) fun _ => spared_ok _
  | _ => exact spared_ok _

/-- The operation that has just been appended is found in the table. -/
theorem importOps_avoids (parent : ModuleId) (ops : List ImageOp) (locals : List ValueId) (d : Design) :
    (importOps parent ops locals).Avoids IrError.IsOpFault d := by
  induction ops generalizing locals d with
  | nil => exact avoids_pure _ d
  | cons op ops ih =>
      unfold importOps
      refine (traverse_avoids op.operation locals d).bind fun operation d₁ _ => ?_
      refine (appendOp_avoids parent operation op.resultTypes op.attributes op.location d₁).bind fun o d₂ ho => ?_
      obtain ⟨inserted, hinserted⟩ : ∃ inserted, d₂.op? o = some inserted := by
        rcases appendOp_cases parent operation op.resultTypes op.attributes op.location d₁ with
          ⟨e, he⟩ | ⟨d', happ, _, hok⟩
        · cases he.symm.trans ho
        · obtain ⟨hid, rfl⟩ := Prod.mk.inj (hok.symm.trans ho)
          obtain ⟨inserted, hinserted, _⟩ := happ.op?_new
          exact ⟨inserted, Except.ok.inj hid ▸ hinserted⟩
      refine avoids_query_bind (verify_spared hinserted) fun _ _ => ?_
      have hfound : d₂.getOp o = .ok inserted := Design.getOp_eq_ok_iff.mpr hinserted
      exact avoids_query_bind (hfound ▸ spared_ok inserted) fun _ _ => ih _ d₂

theorem importBody_avoids (id : ModuleId) (symbol : String) (ops : List ImageOp) (d : Design) :
    (importBody id symbol ops).Avoids IrError.IsOpFault d := by
  unfold importBody
  refine (addEntryBlock_avoids id d).bind fun arguments d₁ _ => ?_
  refine (importOps_avoids id ops arguments d₁).bind fun _ d₂ _ => avoids_get_bind ?_
  exact .ite (fun _ => avoids_pure _ d₂) fun _ => avoids_throw nofun d₂

/-- A copy of an image finds every operation it has made. -/
theorem importImage_avoids (image : ModuleImage) (symbol : String) (d : Design) :
    (importImage image symbol).Avoids IrError.IsOpFault d := by
  unfold importImage
  cases image.contents with
  | external parameters => exact addModule_avoids _ d
  | body ops =>
      refine (addModule_avoids _ d).bind fun id d₁ _ => ?_
      refine ((importBody_avoids id symbol ops d₁).tryCatch fun e he d₂ => ?_).bind fun _ d₃ _ =>
        avoids_pure id d₃
      refine Avoids.bind (.discard (avoids_of_ok rfl)) fun _ d₄ _ => avoids_throw he d₄

end Edit
end Wirework
