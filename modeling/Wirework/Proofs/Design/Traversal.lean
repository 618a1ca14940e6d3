import Wirework.Design.Basic
import Wirework.Proofs.Sequences
import Wirework.Step

/-! # Replacing the references of an operation

The operations of an image are those of a body with other references: positions in place of values, and symbols in
place of modules.  Two operations correspond if they differ at most in what they refer to (`Operation.Corresponds`).

A traversal that succeeds yields a corresponding operation, and it succeeds whenever there is one
(`Operation.traverse_eq_ok_iff`); so taking images and copying them are both told by this relation, in one direction
and in the other.  Correspondence can be turned around and put together (`Corresponds.swap`, `Corresponds.comp`), and
it determines the operation if it determines the references (`Corresponds.right_unique`).  A traversal that only reads
a state leaves it alone (`Operation.apply_traverse`). -/

namespace Wirework

variable {α β ε S : Type}

/-! ### Reading the state -/

theorem apply_bind_read {step : Step ε S α} {next : α → Step ε S β} {s : S} {outcome : Except ε α}
    {read : α → Except ε β} (h : step.apply s = (outcome, s))
    (hnext : ∀ a, (next a).apply s = (read a, s)) :
    (step >>= next).apply s = (outcome >>= read, s) := by
  rw [Step.apply_bind, h]
  cases outcome with
  | error e => rfl
  | ok a => exact hnext a

theorem apply_mapM {step : α → Step ε S β} {s : S} {read : α → Except ε β}
    (h : ∀ a, (step a).apply s = (read a, s)) (xs : List α) :
    (xs.mapM step).apply s = (xs.mapM read, s) := by
  induction xs with
  | nil => rfl
  | cons x xs ih =>
      rw [List.mapM_cons, List.mapM_cons]
      exact apply_bind_read (h x) fun y => apply_bind_read ih fun ys => rfl

namespace Operation

variable {μ μ' ν ν' : Type}

/-! ### Corresponding operations -/

/-- The operations are of one kind and have the same data, and their references are related. -/
inductive Corresponds (R : μ → μ' → Prop) (Q : ν → ν' → Prop) :
    Operation μ ν → Operation μ' ν' → Prop
  | constant (value : Constant) : Corresponds R Q (.constant value) (.constant value)
  | add {lhs rhs lhs' rhs'} (left : Q lhs lhs') (right : Q rhs rhs') :
      Corresponds R Q (.add lhs rhs) (.add lhs' rhs')
  | register {input clock input' clock'} (fed : Q input input') (clocked : Q clock clock') :
      Corresponds R Q (.register input clock) (.register input' clock')
  | instantiate {module module' inputs inputs'} (name : String) (parameters : AttributeMap)
      (callee : R module module') (fed : List.Forall₂ Q inputs inputs') :
      Corresponds R Q (.instantiate module name inputs parameters)
        (.instantiate module' name inputs' parameters)
  | output {values values'} (driven : List.Forall₂ Q values values') :
      Corresponds R Q (.output values) (.output values')

namespace Corresponds

variable {R R' : μ → μ' → Prop} {Q Q' : ν → ν' → Prop} {a : Operation μ ν} {b : Operation μ' ν'}

theorem mono (h : a.Corresponds R Q b) (hR : ∀ x y, a.callee? = some x → R x y → R' x y)
    (hQ : ∀ x ∈ a.operands, ∀ y, Q x y → Q' x y) : a.Corresponds R' Q' b := by
  have hlist : ∀ {xs : List ν} {ys : List ν'}, (∀ x ∈ xs, x ∈ a.operands) →
      List.Forall₂ Q xs ys → List.Forall₂ Q' xs ys := by
    intro xs ys hsub hxs
    induction hxs with
    | nil => exact .nil
    | cons hx _ ih =>
        refine .cons (hQ _ (hsub _ List.mem_cons_self) _ hx) (ih fun x hx => ?_)
        exact hsub x (List.mem_cons_of_mem _ hx)
  cases h with
  | constant value => exact .constant value
  | add left right =>
      exact .add (hQ _ List.mem_cons_self _ left)
        (hQ _ (List.mem_cons_of_mem _ List.mem_cons_self) _ right)
  | register fed clocked =>
      exact .register (hQ _ List.mem_cons_self _ fed)
        (hQ _ (List.mem_cons_of_mem _ List.mem_cons_self) _ clocked)
  | instantiate name parameters callee fed =>
      exact .instantiate name parameters (hR _ _ rfl callee) (hlist (fun _ hx => hx) fed)
  | output driven => exact .output (hlist (fun _ hx => hx) driven)

theorem swap (h : a.Corresponds R Q b) : b.Corresponds (Function.swap R) (Function.swap Q) a := by
  cases h with
  | constant value => exact .constant value
  | add left right => exact .add left right
  | register fed clocked => exact .register fed clocked
  | instantiate name parameters callee fed => exact .instantiate name parameters callee fed.flip
  | output driven => exact .output driven.flip

/-- Operations that correspond to one another in turn. -/
theorem comp {μ₃ ν₃ : Type} {R₂ : μ' → μ₃ → Prop} {Q₂ : ν' → ν₃ → Prop} {R₃ : μ → μ₃ → Prop}
    {Q₃ : ν → ν₃ → Prop} {c : Operation μ₃ ν₃} (h : a.Corresponds R Q b) (h' : b.Corresponds R₂ Q₂ c)
    (hR : ∀ x y z, R x y → R₂ y z → R₃ x z) (hQ : ∀ x y z, Q x y → Q₂ y z → Q₃ x z) :
    a.Corresponds R₃ Q₃ c := by
  cases h with
  | constant value => cases h' with | constant => exact .constant value
  | add left right =>
      cases h' with | add left' right' => exact .add (hQ _ _ _ left left') (hQ _ _ _ right right')
  | register fed clocked =>
      cases h' with
      | register fed' clocked' => exact .register (hQ _ _ _ fed fed') (hQ _ _ _ clocked clocked')
  | instantiate name parameters callee fed =>
      cases h' with
      | instantiate _ _ callee' fed' =>
          exact .instantiate name parameters (hR _ _ _ callee callee') (forall₂_comp hQ fed fed')
  | output driven =>
      cases h' with | output driven' => exact .output (forall₂_comp hQ driven driven')

theorem eq {a b : Operation μ ν} (h : a.Corresponds (· = ·) (· = ·) b) : a = b := by
  cases h with
  | constant value => rfl
  | add left right => rw [left, right]
  | register fed clocked => rw [fed, clocked]
  | instantiate name parameters callee fed =>
      rw [List.forall₂_eq_eq_eq] at fed
      rw [callee, fed]
  | output driven =>
      rw [List.forall₂_eq_eq_eq] at driven
      rw [driven]

theorem right_unique {b' : Operation μ' ν'} (h : a.Corresponds R Q b) (h' : a.Corresponds R Q b')
    (hR : ∀ x y y', R x y → R x y' → y = y') (hQ : ∀ x y y', Q x y → Q x y' → y = y') : b = b' :=
  (h.swap.comp h' (fun _ x _ => hR x _ _) fun _ x _ => hQ x _ _).eq

/-- Operations whose references have something in common correspond to one operation. -/
theorem exists_common {μ₃ ν₃ : Type} {R₁ : μ → μ₃ → Prop} {R₂ : μ' → μ₃ → Prop} {Q₁ : ν → ν₃ → Prop}
    {Q₂ : ν' → ν₃ → Prop} (h : a.Corresponds R Q b) (hR : ∀ x y, R x y → ∃ z, R₁ x z ∧ R₂ y z)
    (hQ : ∀ x y, Q x y → ∃ z, Q₁ x z ∧ Q₂ y z) :
    ∃ c : Operation μ₃ ν₃, a.Corresponds R₁ Q₁ c ∧ b.Corresponds R₂ Q₂ c := by
  cases h with
  | constant value => exact ⟨_, .constant value, .constant value⟩
  | add left right =>
      obtain ⟨_, hl, hl'⟩ := hQ _ _ left
      obtain ⟨_, hr, hr'⟩ := hQ _ _ right
      exact ⟨_, .add hl hr, .add hl' hr'⟩
  | register fed clocked =>
      obtain ⟨_, hi, hi'⟩ := hQ _ _ fed
      obtain ⟨_, hc, hc'⟩ := hQ _ _ clocked
      exact ⟨_, .register hi hc, .register hi' hc'⟩
  | instantiate name parameters callee fed =>
      obtain ⟨_, hm, hm'⟩ := hR _ _ callee
      obtain ⟨_, hi, hi'⟩ := exists_forall₂_common hQ fed
      exact ⟨_, .instantiate name parameters hm hi, .instantiate name parameters hm' hi'⟩
  | output driven =>
      obtain ⟨_, hv, hv'⟩ := exists_forall₂_common hQ driven
      exact ⟨_, .output hv, .output hv'⟩

theorem operands (h : a.Corresponds R Q b) : List.Forall₂ Q a.operands b.operands := by
  cases h with
  | constant value => exact .nil
  | add left right => exact .cons left (.cons right .nil)
  | register fed clocked => exact .cons fed (.cons clocked .nil)
  | instantiate name parameters callee fed => exact fed
  | output driven => exact driven

theorem isTerminator_eq (h : a.Corresponds R Q b) : b.isTerminator = a.isTerminator := by
  cases h <;> rfl

theorem callee_rel (h : a.Corresponds R Q b) : Option.Rel R a.callee? b.callee? := by
  cases h with
  | instantiate name parameters callee fed => exact .some callee
  | _ => exact .none

theorem callee? (h : a.Corresponds R Q b) {y : μ'} (hy : b.callee? = some y) :
    ∃ x, a.callee? = some x ∧ R x y := by
  have hrel := h.callee_rel
  rw [hy] at hrel
  cases hx : a.callee? with
  | none => rw [hx] at hrel; cases hrel
  | some x =>
      rw [hx] at hrel
      cases hrel with
      | some hxy => exact ⟨x, rfl, hxy⟩

end Corresponds

/-! ### Traversals -/

/-- A traversal gives exactly the operations whose references are those the replacements give. -/
theorem traverse_eq_ok_iff {onModule : μ → Except ε μ'} {onValue : ν → Except ε ν'}
    {a : Operation μ ν} {b : Operation μ' ν'} :
    a.traverse onModule onValue = .ok b ↔
      a.Corresponds (fun x y => onModule x = .ok y) (fun x y => onValue x = .ok y) b := by
  constructor
  · intro h
    cases a <;> simp only [traverse, bind_eq_ok_iff, pure_eq_ok_iff, mapM_eq_ok_iff] at h
    case constant value =>
      subst h
      exact .constant value
    case add lhs rhs =>
      obtain ⟨_, hl, _, hr, rfl⟩ := h
      exact .add hl hr
    case register input clock =>
      obtain ⟨_, hi, _, hc, rfl⟩ := h
      exact .register hi hc
    case instantiate module name inputs parameters =>
      obtain ⟨_, hi, _, hm, rfl⟩ := h
      exact .instantiate name parameters hm hi
    case output values =>
      obtain ⟨_, hv, rfl⟩ := h
      exact .output hv
  · intro h
    cases h <;> simp only [traverse, bind_eq_ok_iff, pure_eq_ok_iff, mapM_eq_ok_iff]
    case add left right => exact ⟨_, left, _, right, rfl⟩
    case register fed clocked => exact ⟨_, fed, _, clocked, rfl⟩
    case instantiate callee fed => exact ⟨_, fed, _, callee, rfl⟩
    case output driven => exact ⟨_, driven, rfl⟩

/-- A traversal that only reads a state. -/
theorem apply_traverse {onModule : μ → Step ε S μ'} {onValue : ν → Step ε S ν'} {s : S}
    {readModule : μ → Except ε μ'} {readValue : ν → Except ε ν'}
    (hm : ∀ x, (onModule x).apply s = (readModule x, s))
    (hv : ∀ x, (onValue x).apply s = (readValue x, s)) (a : Operation μ ν) :
    (a.traverse onModule onValue).apply s = (a.traverse readModule readValue, s) := by
  cases a with
  | constant value => rfl
  | add lhs rhs =>
      exact apply_bind_read (hv lhs) fun _ => apply_bind_read (hv rhs) fun _ => rfl
  | register input clock =>
      exact apply_bind_read (hv input) fun _ => apply_bind_read (hv clock) fun _ => rfl
  | instantiate module name inputs parameters =>
      exact apply_bind_read (apply_mapM hv inputs) fun _ => apply_bind_read (hm module) fun _ => rfl
  | output values => exact apply_bind_read (apply_mapM hv values) fun _ => rfl

/-- References that can each be replaced can be replaced together. -/
theorem exists_corresponds {R : μ → μ' → Prop} {Q : ν → ν' → Prop} (a : Operation μ ν)
    (hm : ∀ x, a.callee? = some x → ∃ y, R x y) (hv : ∀ x ∈ a.operands, ∃ y, Q x y) :
    ∃ b, a.Corresponds R Q b := by
  cases a with
  | constant value => exact ⟨_, .constant value⟩
  | add lhs rhs =>
      obtain ⟨lhs', hl⟩ := hv lhs List.mem_cons_self
      obtain ⟨rhs', hr⟩ := hv rhs (List.mem_cons_of_mem _ List.mem_cons_self)
      exact ⟨_, .add hl hr⟩
  | register input clock =>
      obtain ⟨input', hi⟩ := hv input List.mem_cons_self
      obtain ⟨clock', hc⟩ := hv clock (List.mem_cons_of_mem _ List.mem_cons_self)
      exact ⟨_, .register hi hc⟩
  | instantiate module name inputs parameters =>
      obtain ⟨module', hmodule⟩ := hm module rfl
      obtain ⟨inputs', hinputs⟩ := exists_forall₂ hv
      exact ⟨_, .instantiate name parameters hmodule hinputs⟩
  | output values =>
      obtain ⟨values', hvalues⟩ := exists_forall₂ hv
      exact ⟨_, .output hvalues⟩

end Operation

end Wirework
