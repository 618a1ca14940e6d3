import Wirework.Proofs.Design.Importing

/-! # Operations belong to modules

Every operation listed in the body of a live module names that module as its parent (`Design.Owned`), and it stays
where it is whatever is added (`Design.Widens`).

Both are stated for designs that differ in more than the change at hand, and each has one lemma for each kind of
change: an operation is appended, one is annotated, a module is added, and one is erased.  What a body instantiates is
read off its own operations, so it does not depend on what is added elsewhere (`Widens.callee`), and an appended
operation adds at most its own callee (`Appends.callee`). -/

namespace Wirework

namespace Design

variable {d d' : Design}

/-! ### Ownership -/

/-- Bodies list operations of their own. -/
structure Owned (d : Design) : Prop where
  inside : ∀ id m body, d.module? id = some m → m.body? = some body →
    ∀ o ∈ body.ops, ∃ op, d.op? o = some op ∧ op.parent = id
  parent_lt : ∀ o op, d.op? o = some op → op.parent.index < d.modules.size

namespace Owned

theorem empty : Owned {} where
  inside id m body hm := by cases hm
  parent_lt o op hop := by cases hop

theorem congr (h : d.Owned) (hm : d'.modules = d.modules) (ho : d'.ops = d.ops) : d'.Owned where
  inside id m body hid hbody o hmem := by
    rw [module?_congr hm] at hid
    unfold op?
    rw [ho]
    exact h.inside id m body hid hbody o hmem
  parent_lt o op hop := by
    unfold op? at hop
    rw [ho] at hop
    rw [hm]
    exact h.parent_lt o op hop

theorem appends (h : d.Owned) {parent : ModuleId} {operation : Operation ModuleId ValueId}
    (happ : d.Appends parent operation d') : d'.Owned := by
  obtain ⟨m₀, body₀, hm₀, hbody₀, _, hm₀'⟩ := happ.module?_self
  obtain ⟨new, hnew, hparent, _⟩ := happ.op?_new
  constructor
  case inside =>
    intro id m body hid hbody o hmem
    by_cases hself : id = parent
    · subst hself
      rw [hm₀'] at hid
      obtain rfl := Option.some.inj hid
      obtain rfl : body₀.extend ⟨d.ops.size⟩ operation = body := Option.some.inj hbody
      rcases Array.mem_push.mp hmem with hold | rfl
      · obtain ⟨op, hop, hp⟩ := h.inside id m₀ body₀ hm₀ hbody₀ o hold
        exact ⟨op, happ.op?_old hop, hp⟩
      · exact ⟨new, hnew, hparent⟩
    · rw [happ.module?_ne hself] at hid
      obtain ⟨op, hop, hp⟩ := h.inside id m body hid hbody o hmem
      exact ⟨op, happ.op?_old hop, hp⟩
  case parent_lt =>
    intro o op hop
    rw [happ.modules_size]
    by_cases ho : o = ⟨d.ops.size⟩
    · rw [ho, hnew] at hop
      obtain rfl := Option.some.inj hop
      rw [hparent]
      exact lt_size_of_module? hm₀
    · rw [happ.op?_ne ho] at hop
      exact h.parent_lt o op hop

theorem annotate (h : d.Owned) {id : OpId} {op : Op} (hid : d.op? id = some op)
    (attributes : AttributeMap) : (d.annotate id op attributes).Owned := by
  constructor
  case inside =>
    intro j m body hm hbody o hmem
    obtain ⟨found, hfound, hparent⟩ := h.inside j m body hm hbody o hmem
    by_cases ho : o = id
    · subst ho
      rw [hid] at hfound
      obtain rfl := Option.some.inj hfound
      exact ⟨{ op with attributes }, by rw [op?_annotate hid, if_pos rfl], hparent⟩
    · exact ⟨found, by rw [op?_annotate hid, if_neg ho, hfound], hparent⟩
  case parent_lt =>
    intro o found hfound
    rw [op?_annotate hid] at hfound
    by_cases ho : o = id
    · rw [if_pos ho] at hfound
      obtain rfl := Option.some.inj hfound
      exact h.parent_lt id op hid
    · rw [if_neg ho] at hfound
      exact h.parent_lt o found hfound

theorem takes (h : d.Owned) {slot : Option HwModule} (htakes : d.Takes slot d') : d'.Owned := by
  constructor
  case inside =>
    intro id m body hm hbody o hmem
    by_cases hid : id = d.nextModule
    · subst hid
      rw [htakes.module?_next] at hm
      exact htakes.owned m body hm hbody o hmem
    · rw [htakes.module?_old id hid] at hm
      obtain ⟨op, hop, hp⟩ := h.inside id m body hm hbody o hmem
      exact ⟨op, htakes.op_old o op hop, hp⟩
  case parent_lt =>
    intro o op hop
    rw [htakes.size_eq]
    rcases htakes.op_new o op hop with hold | hp
    · exact Nat.lt_succ_of_lt (h.parent_lt o op hold)
    · rw [hp]
      exact Nat.lt_succ_self _

theorem erase (h : d.Owned) {id : ModuleId}
    (hm : d'.modules = d.modules.setIfInBounds id.index none) (ho : d'.ops = d.ops) : d'.Owned := by
  constructor
  case inside =>
    intro j m body hj hbody o hmem
    rw [module?_erase hm] at hj
    by_cases hjid : j = id
    · rw [if_pos hjid] at hj
      cases hj
    · rw [if_neg hjid] at hj
      unfold op?
      rw [ho]
      exact h.inside j m body hj hbody o hmem
  case parent_lt =>
    intro o op hop
    unfold op? at hop
    rw [ho] at hop
    rw [hm, Array.size_setIfInBounds]
    exact h.parent_lt o op hop

end Owned

/-! ### Additions -/

/-- In `d'` every live module of `d` is live with the same symbol and has all the operations of its body,
in which nothing but attributes has changed. -/
structure Widens (d d' : Design) : Prop where
  modules : ∀ id m, d.module? id = some m → ∃ m', d'.module? id = some m' ∧ m'.symbol = m.symbol ∧
    ∀ body, m.body? = some body →
      ∃ body', m'.body? = some body' ∧ ∀ o ∈ body.ops, o ∈ body'.ops
  ops : ∀ o op, d.op? o = some op →
    ∃ op', d'.op? o = some op' ∧ op'.parent = op.parent ∧ op'.operation = op.operation

theorem Widens.isLive (h : d.Widens d') {id : ModuleId} (hid : d.IsLive id) : d'.IsLive id := by
  obtain ⟨m, hm⟩ := hid
  obtain ⟨m', hm', _⟩ := h.modules id m hm
  exact ⟨m', hm'⟩

theorem widens_congr (hm : d'.modules = d.modules) (ho : d'.ops = d.ops) : d.Widens d' where
  modules id m hid := ⟨m, by rw [module?_congr hm, hid], rfl, fun body hb => ⟨body, hb, fun _ h => h⟩⟩
  ops o op hop := ⟨op, by unfold op? at hop ⊢; rw [ho, hop], rfl, rfl⟩

theorem Appends.widens {parent : ModuleId} {operation : Operation ModuleId ValueId}
    (h : d.Appends parent operation d') : d.Widens d' where
  modules id m hid := by
    by_cases hself : id = parent
    · obtain ⟨m₀, body₀, hm₀, hbody₀, _, hm₀'⟩ := h.module?_self
      subst hself
      rw [hid] at hm₀
      obtain rfl := Option.some.inj hm₀
      refine ⟨_, hm₀', rfl, fun body hbody => ⟨_, rfl, fun o hmem => ?_⟩⟩
      rw [hbody₀] at hbody
      obtain rfl := Option.some.inj hbody
      exact Array.mem_push_of_mem _ hmem
    · exact ⟨m, by rw [h.module?_ne hself, hid], rfl, fun body hb => ⟨body, hb, fun _ h => h⟩⟩
  ops o op hop := ⟨op, h.op?_old hop, rfl, rfl⟩

theorem widens_annotate {id : OpId} {op : Op} (h : d.op? id = some op) (attributes : AttributeMap) :
    d.Widens (d.annotate id op attributes) where
  modules id m hid := ⟨m, hid, rfl, fun body hb => ⟨body, hb, fun _ h => h⟩⟩
  ops o found hfound := by
    by_cases ho : o = id
    · subst ho
      rw [h] at hfound
      obtain rfl := Option.some.inj hfound
      exact ⟨{ op with attributes }, by rw [op?_annotate h, if_pos rfl], rfl, rfl⟩
    · exact ⟨found, by rw [op?_annotate h, if_neg ho, hfound], rfl, rfl⟩

theorem Takes.widens {slot : Option HwModule} (h : d.Takes slot d') : d.Widens d' where
  modules id m hid := by
    have hne : id ≠ d.nextModule := IsLive.ne_nextModule ⟨m, hid⟩
    exact ⟨m, by rw [h.module?_old id hne, hid], rfl, fun body hb => ⟨body, hb, fun _ h => h⟩⟩
  ops o op hop := ⟨op, h.op_old o op hop, rfl, rfl⟩

/-! ### Callees -/

section callees

variable {m : HwModule} {c : ModuleId}

theorem Widens.callee (hw : d.Widens d') (howned : d.Owned) {id : ModuleId}
    (hm : d.module? id = some m) (hc : c ∈ d'.callees m) : c ∈ d.callees m := by
  obtain ⟨body, o, op', hbody, ho, hop', hcallee⟩ := mem_callees.mp hc
  obtain ⟨op, hop, _⟩ := howned.inside id m body hm hbody o ho
  obtain ⟨found, hfound, _, hoperation⟩ := hw.ops o op hop
  rw [hop'] at hfound
  obtain rfl := Option.some.inj hfound
  exact mem_callees.mpr ⟨body, o, op, hbody, ho, hop, hoperation ▸ hcallee⟩

/-- An appended operation adds at most its own callee. -/
theorem Appends.callee {parent : ModuleId} {operation : Operation ModuleId ValueId}
    (h : d.Appends parent operation d') (howned : d.Owned) {id : ModuleId}
    (hm : d'.module? id = some m) (hc : c ∈ d'.callees m) :
    (∃ m₀, d.module? id = some m₀ ∧ c ∈ d.callees m₀) ∨
      id = parent ∧ operation.callee? = some c := by
  by_cases hid : id = parent
  · obtain ⟨m₀, body₀, hm₀, hbody₀, _, hm₀'⟩ := h.module?_self
    rw [hid, hm₀'] at hm
    obtain rfl := Option.some.inj hm
    obtain ⟨body, o, op, hbody, ho, hop, hcallee⟩ := mem_callees.mp hc
    obtain rfl : body₀.extend ⟨d.ops.size⟩ operation = body := Option.some.inj hbody
    rcases Array.mem_push.mp ho with hold | rfl
    · obtain ⟨op', hop', _⟩ := howned.inside parent m₀ body₀ hm₀ hbody₀ o hold
      rw [h.op?_old hop'] at hop
      obtain rfl := Option.some.inj hop
      exact Or.inl ⟨m₀, hid ▸ hm₀, mem_callees.mpr ⟨body₀, o, op', hbody₀, hold, hop', hcallee⟩⟩
    · obtain ⟨new, hnew, _, hoperation⟩ := h.op?_new
      rw [hnew] at hop
      obtain rfl := Option.some.inj hop
      exact Or.inr ⟨hid, hoperation ▸ hcallee⟩
  · rw [h.module?_ne hid] at hm
    exact Or.inl ⟨m, hm, h.widens.callee howned hm hc⟩

end callees

end Design

end Wirework
