import Mathlib.Data.List.Forall2

/-! # Lists and sequences of outcomes

Facts about lists that the library does not have and that more than one part of the project needs.

* **Related lists.**  Two lists related element by element by `List.Forall₂`, and what follows for the elements at one
  position, for lists put together, and for two lists related to a common one.
* **Sequences of outcomes.**  A computation with errors that runs through a list succeeds just if each of its steps
  does (`mapM_eq_ok_iff`, `forM_eq_ok_iff`), and otherwise fails as one of them does (`mapM_cases`, `forM_cases`).
* **Association lists.**  Where no key occurs twice every entry is found (`lookup_eq_some_iff_mem`), in whatever order
  the entries stand (`lookup_perm`). -/

namespace Wirework

/-! ### Related lists -/

section related

variable {α β γ δ : Type}

theorem exists_forall₂ {R : α → β → Prop} {as : List α} (h : ∀ a ∈ as, ∃ b, R a b) :
    ∃ bs, List.Forall₂ R as bs := by
  induction as with
  | nil => exact ⟨[], .nil⟩
  | cons a as ih =>
      obtain ⟨b, hb⟩ := h a List.mem_cons_self
      obtain ⟨bs, hbs⟩ := ih fun a ha => h a (List.mem_cons_of_mem _ ha)
      exact ⟨b :: bs, .cons hb hbs⟩

theorem forall₂_comp {R : α → β → Prop} {S : β → γ → Prop} {T : α → γ → Prop}
    (h : ∀ a b c, R a b → S b c → T a c) {as : List α} {bs : List β} {cs : List γ}
    (hR : List.Forall₂ R as bs) (hS : List.Forall₂ S bs cs) : List.Forall₂ T as cs := by
  induction hR generalizing cs with
  | nil => cases hS; exact .nil
  | cons hr _ ih =>
      cases hS with
      | cons hs hS => exact .cons (h _ _ _ hr hs) (ih hS)

theorem exists_forall₂_common {R : α → β → Prop} {S : α → γ → Prop} {T : β → γ → Prop}
    (h : ∀ a b, R a b → ∃ c, S a c ∧ T b c) {as : List α} {bs : List β} (hR : List.Forall₂ R as bs) :
    ∃ cs, List.Forall₂ S as cs ∧ List.Forall₂ T bs cs := by
  induction hR with
  | nil => exact ⟨[], .nil, .nil⟩
  | cons hab _ ih =>
      obtain ⟨c, hac, hbc⟩ := h _ _ hab
      obtain ⟨cs, has, hbs⟩ := ih
      exact ⟨c :: cs, .cons hac has, .cons hbc hbs⟩

theorem exists_of_mem_right {R : α → β → Prop} {as : List α} {bs : List β}
    (h : List.Forall₂ R as bs) {b : β} (hb : b ∈ bs) : ∃ a ∈ as, R a b := by
  induction h with
  | nil => cases hb
  | cons hr _ ih =>
      rcases List.mem_cons.mp hb with rfl | hb
      · exact ⟨_, List.mem_cons_self, hr⟩
      · obtain ⟨a, ha, har⟩ := ih hb
        exact ⟨a, List.mem_cons_of_mem _ ha, har⟩

theorem exists_getElem?_of_forall₂ {R : α → β → Prop} {as : List α} {bs : List β}
    (h : List.Forall₂ R as bs) {i : Nat} {a : α} (ha : as[i]? = some a) :
    ∃ b, bs[i]? = some b ∧ R a b := by
  induction h generalizing i with
  | nil => cases ha
  | @cons a' b' _ _ hab _ ih =>
      cases i with
      | zero => exact ⟨b', rfl, Option.some.inj ha ▸ hab⟩
      | succ i => exact ih ha

theorem optionRel_getElem? {R : α → β → Prop} {as : List α} {bs : List β} (h : List.Forall₂ R as bs)
    (i : Nat) : Option.Rel R as[i]? bs[i]? := by
  induction h generalizing i with
  | nil => exact .none
  | cons hab _ ih =>
      cases i with
      | zero => exact .some hab
      | succ i => exact ih i

theorem forall₂_set {R : α → β → Prop} {as : List α} {bs : List β} (h : List.Forall₂ R as bs) {a : α} {b : β}
    (hab : R a b) (i : Nat) : List.Forall₂ R (as.set i a) (bs.set i b) := by
  induction h generalizing i with
  | nil => exact .nil
  | cons hfirst hrest ih =>
      cases i with
      | zero => exact .cons hab hrest
      | succ i => exact .cons hfirst (ih i)

theorem forall₂_zipWith {R : α → β → Prop} {S : β → γ → Prop} {f : β → α → γ}
    (h : ∀ a b, R a b → S b (f b a)) {as : List α} {bs : List β} (hR : List.Forall₂ R as bs) :
    List.Forall₂ S bs (List.zipWith f bs as) := by
  induction hR with
  | nil => exact .nil
  | cons hab _ ih => exact .cons (h _ _ hab) ih

theorem eq_map_of_forall₂ {f : β → α} {as : List α} {bs : List β}
    (h : List.Forall₂ (fun a b => a = f b) as bs) : as = bs.map f := by
  induction h with
  | nil => rfl
  | cons hab _ ih => rw [List.map_cons, ← hab, ← ih]

theorem forall₂_filterMap {f : α → Option β} {P : α → β → Prop} {l : List α}
    (h : ∀ a ∈ l, ∃ b, f a = some b ∧ P a b) : List.Forall₂ P l (l.filterMap f) := by
  induction l with
  | nil => exact .nil
  | cons a l ih =>
      obtain ⟨b, hb, hP⟩ := h a List.mem_cons_self
      rw [List.filterMap_cons_some hb]
      exact .cons hP (ih fun a ha => h a (List.mem_cons_of_mem _ ha))

theorem optionRel_mono {R S : α → β → Prop} (h : ∀ a b, R a b → S a b) {a : Option α} {b : Option β}
    (hR : Option.Rel R a b) : Option.Rel S a b := by
  cases hR with
  | some hab => exact .some (h _ _ hab)
  | none => exact .none

theorem optionRel_bind {R : α → β → Prop} {S : γ → δ → Prop} {a : Option α} {b : Option β}
    (h : Option.Rel R a b) {f : α → Option γ} {g : β → Option δ}
    (hfg : ∀ a b, R a b → Option.Rel S (f a) (g b)) : Option.Rel S (a.bind f) (b.bind g) := by
  cases h with
  | some hab => exact hfg _ _ hab
  | none => exact .none

theorem optionRel_map {R : α → β → Prop} {S : γ → δ → Prop} {a : Option α} {b : Option β}
    (h : Option.Rel R a b) {f : α → γ} {g : β → δ} (hfg : ∀ a b, R a b → S (f a) (g b)) :
    Option.Rel S (a.map f) (b.map g) := by
  cases h with
  | some hab => exact .some (hfg _ _ hab)
  | none => exact .none

theorem optionRel_mapM {R : β → γ → Prop} {f : α → Option β} {g : α → Option γ}
    (h : ∀ a, Option.Rel R (f a) (g a)) (l : List α) :
    Option.Rel (List.Forall₂ R) (l.mapM f) (l.mapM g) := by
  induction l with
  | nil => exact .some .nil
  | cons a l ih =>
      rw [List.mapM_cons, List.mapM_cons]
      refine optionRel_bind (h a) fun b c hbc => optionRel_bind ih fun bs cs hrest => ?_
      exact .some (.cons hbc hrest)

end related

/-! ### Sequences of outcomes -/

section outcomes

variable {α β ε : Type}

theorem bind_eq_ok_iff {x : Except ε α} {f : α → Except ε β} {b : β} :
    (x >>= f) = .ok b ↔ ∃ a, x = .ok a ∧ f a = .ok b := by
  constructor
  · intro h
    cases x with
    | error e => cases h
    | ok a => exact ⟨a, rfl, h⟩
  · rintro ⟨a, rfl, h⟩
    exact h

theorem pure_eq_ok_iff {a b : α} : (pure a : Except ε α) = .ok b ↔ a = b :=
  ⟨Except.ok.inj, fun h => h ▸ rfl⟩

theorem mapM_eq_ok_iff {f : α → Except ε β} {xs : List α} {ys : List β} :
    xs.mapM f = .ok ys ↔ List.Forall₂ (fun x y => f x = .ok y) xs ys := by
  induction xs generalizing ys with
  | nil => rw [List.mapM_nil, pure_eq_ok_iff, List.forall₂_nil_left_iff, eq_comm]
  | cons x xs ih =>
      simp only [List.mapM_cons, bind_eq_ok_iff, pure_eq_ok_iff, ih, List.forall₂_cons_left_iff]
      constructor
      · rintro ⟨y, hy, ys', hys, rfl⟩
        exact ⟨y, ys', hy, hys, rfl⟩
      · rintro ⟨y, ys', hy, hys, rfl⟩
        exact ⟨y, hy, ys', hys, rfl⟩

theorem mapM_cases (f : α → Except ε β) (l : List α) :
    (∃ bs, l.mapM f = .ok bs) ∨ ∃ a ∈ l, ∃ e, f a = .error e ∧ l.mapM f = .error e := by
  induction l with
  | nil => exact Or.inl ⟨[], rfl⟩
  | cons a l ih =>
      rw [List.mapM_cons]
      cases ha : f a with
      | error e => exact Or.inr ⟨a, List.mem_cons_self, e, ha, rfl⟩
      | ok b =>
          rcases ih with ⟨bs, hbs⟩ | ⟨a', ha', e, he, hl⟩
          · exact Or.inl ⟨b :: bs, by rw [hbs]; rfl⟩
          · exact Or.inr ⟨a', List.mem_cons_of_mem _ ha', e, he, by rw [hl]; rfl⟩

theorem forM_eq_ok_iff {f : α → Except ε Unit} {xs : List α} :
    xs.forM f = .ok ⟨⟩ ↔ ∀ x ∈ xs, f x = .ok ⟨⟩ := by
  induction xs with
  | nil => exact ⟨fun _ x hx => absurd hx List.not_mem_nil, fun _ => rfl⟩
  | cons x xs ih =>
      rw [List.forM_eq_forM] at ih ⊢
      rw [List.forM_cons, bind_eq_ok_iff, List.forall_mem_cons, ← ih]
      exact ⟨fun ⟨_, hx, hxs⟩ => ⟨hx, hxs⟩, fun ⟨hx, hxs⟩ => ⟨⟨⟩, hx, hxs⟩⟩

theorem forM_cases (f : α → Except ε Unit) (l : List α) :
    (l.forM f = .ok ⟨⟩ ∧ ∀ a ∈ l, f a = .ok ⟨⟩) ∨ ∃ a ∈ l, ∃ e, f a = .error e ∧ l.forM f = .error e := by
  induction l with
  | nil => exact Or.inl ⟨rfl, fun a ha => absurd ha List.not_mem_nil⟩
  | cons a l ih =>
      rw [List.forM_eq_forM] at ih ⊢
      rw [List.forM_cons]
      cases ha : f a with
      | error e => exact Or.inr ⟨a, List.mem_cons_self, e, ha, rfl⟩
      | ok _ =>
          rcases ih with ⟨hl, hall⟩ | ⟨a', ha', e, he, hl⟩
          · exact Or.inl ⟨hl, List.forall_mem_cons.mpr ⟨ha, hall⟩⟩
          · exact Or.inr ⟨a', List.mem_cons_of_mem _ ha', e, he, hl⟩

end outcomes

/-! ### Association lists -/

section lookup

variable {α β : Type} [BEq α] [LawfulBEq α] {l : List (α × β)} {k : α} {v : β}

theorem lookup_cons_ne {p : α × β} (h : k ≠ p.1) : (p :: l).lookup k = l.lookup k := by
  rw [List.lookup_cons, beq_eq_false_iff_ne.mpr h]

theorem lookup_isSome_iff_mem : (l.lookup k).isSome ↔ k ∈ l.map (·.1) := by
  rw [List.lookup_isSome_iff, List.mem_map]
  exact exists_congr fun p => and_congr_right fun _ => beq_iff_eq.trans eq_comm

theorem mem_of_lookup (h : l.lookup k = some v) : (k, v) ∈ l := by
  obtain ⟨l₁, l₂, rfl, -⟩ := List.lookup_eq_some_iff.mp h
  exact List.mem_append_right l₁ List.mem_cons_self

theorem lookup_eq_some_iff_mem (hl : (l.map (·.1)).Nodup) : l.lookup k = some v ↔ (k, v) ∈ l := by
  refine ⟨mem_of_lookup, fun hmem => ?_⟩
  obtain ⟨l₁, l₂, rfl⟩ := List.append_of_mem hmem
  refine List.lookup_eq_some_iff.mpr ⟨l₁, l₂, rfl, fun p hp => ?_⟩
  rw [bne_iff_ne]
  rintro rfl
  rw [List.map_append] at hl
  exact (List.nodup_append.mp hl).2.2 p.1 (List.mem_map_of_mem hp) p.1 List.mem_cons_self rfl

theorem lookup_perm {l' : List (α × β)} (hl : (l.map (·.1)).Nodup) (h : l.Perm l') :
    l'.lookup k = l.lookup k := by
  refine Option.ext fun v => ?_
  rw [lookup_eq_some_iff_mem hl, lookup_eq_some_iff_mem ((h.map (·.1)).nodup_iff.mp hl), h.mem_iff]

theorem lookup_filter_ne [DecidableEq α] {k' : α} (h : k ≠ k') :
    (l.filter fun p => p.1 ≠ k').lookup k = l.lookup k := by
  induction l with
  | nil => rfl
  | cons p l ih =>
      by_cases hp : p.1 = k'
      · rw [List.filter_cons_of_neg (by simpa using hp), ih, List.lookup_cons,
          beq_eq_false_iff_ne.mpr (hp ▸ h)]
      · rw [List.filter_cons_of_pos (by simpa using hp), List.lookup_cons, List.lookup_cons, ih]

end lookup

end Wirework
