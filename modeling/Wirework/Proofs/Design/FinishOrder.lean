import Mathlib.Data.List.Basic
import Wirework.Design.Printer

/-! # The finish order of a ranked hierarchy

If the modules of a hierarchy can be ranked so that every edge leads to a lower rank, the depth-first search from each
of them leaves every module after the modules it instantiates, and it reaches all of them (`finishOrder_spec`,
`order?_eq_some`).

During the search the modules that have been reached but not left are those on the way to the current one; they rank
above it, so an edge never leads back to one of them.  The invariant has two parts: what the search has left is in
order (`Sound`), and a visit adds to it without changing which modules are open (`Advances`).  The induction is on the
number of modules that have not been reached (`unreached`), which a visit makes smaller before it goes on to the
callees. -/

namespace Wirework

namespace Hierarchy

/-- Every module of the list comes before the modules it instantiates, which are in the list as well. -/
def Descends (h : Hierarchy) : List ModuleId → Prop
  | [] => True
  | id :: rest => id ∉ rest ∧ (∀ c ∈ h.children id, c ∈ rest) ∧ h.Descends rest

theorem mem_children {h : Hierarchy} {id c : ModuleId} : c ∈ h.children id ↔ (id, c) ∈ h.edges := by
  unfold children
  rw [List.mem_filterMap]
  constructor
  · rintro ⟨⟨a, b⟩, hmem, hc⟩
    by_cases ha : a = id
    · rw [if_pos ha] at hc
      obtain rfl := Option.some.inj hc
      exact ha ▸ hmem
    · rw [if_neg ha] at hc
      cases hc
  · exact fun hmem => ⟨(id, c), hmem, if_pos rfl⟩

theorem Descends.nodup {h : Hierarchy} {l : List ModuleId} (hl : h.Descends l) : l.Nodup := by
  induction l with
  | nil => exact List.nodup_nil
  | cons id rest ih => exact List.nodup_cons.mpr ⟨hl.1, ih hl.2.2⟩

/-- In the reversed list every module comes after the modules it instantiates. -/
theorem Descends.idxOf_lt {h : Hierarchy} {l : List ModuleId} (hl : h.Descends l) {id c : ModuleId}
    (hid : id ∈ l) (hc : c ∈ h.children id) : l.reverse.idxOf c < l.reverse.idxOf id := by
  induction l with
  | nil => exact absurd hid List.not_mem_nil
  | cons x rest ih =>
      obtain ⟨hx, hchildren, hrest⟩ := hl
      rw [List.reverse_cons]
      rcases List.mem_cons.mp hid with rfl | hid
      · have hmem := List.mem_reverse.mpr (hchildren c hc)
        have hnot : id ∉ rest.reverse := fun h => hx (List.mem_reverse.mp h)
        rw [List.idxOf_append_of_mem hmem, List.idxOf_append_of_notMem hnot]
        exact Nat.lt_of_lt_of_le (List.idxOf_lt_length_iff.mpr hmem) (Nat.le_add_right _ _)
      · have hlt := ih hrest hid
        have hmem := List.mem_reverse.mpr hid
        have hmemc : c ∈ rest.reverse := by
          refine List.idxOf_lt_length_iff.mp (Nat.lt_trans hlt ?_)
          exact List.idxOf_lt_length_iff.mpr hmem
        rw [List.idxOf_append_of_mem hmem, List.idxOf_append_of_mem hmemc]
        exact hlt

/-! ### The search -/

/-- The module has been reached but not been left. -/
def Search.Open (s : Search) (id : ModuleId) : Prop :=
  id ∈ s.discovered ∧ id ∉ s.finished

/-- What the search has left is in order, and it has left only modules of the hierarchy it has reached. -/
structure Sound (h : Hierarchy) (s : Search) : Prop where
  descends : h.Descends s.finished
  finished_mem : ∀ id ∈ s.finished, id ∈ s.discovered ∧ id ∈ h.nodes

/-- The search has gone on from `s` to `s'`, with the same modules open. -/
structure Advances (h : Hierarchy) (s s' : Search) : Prop where
  sound : h.Sound s'
  discovered : s.discovered ⊆ s'.discovered
  finished : s.finished ⊆ s'.finished
  opened : ∀ id, s'.Open id → s.Open id
  kept : ∀ id, s.Open id → s'.Open id

theorem Advances.refl {h : Hierarchy} {s : Search} (hs : h.Sound s) : h.Advances s s :=
  ⟨hs, List.Subset.refl _, List.Subset.refl _, fun _ h => h, fun _ h => h⟩

theorem Advances.trans {h : Hierarchy} {s s' s'' : Search} (h₁ : h.Advances s s')
    (h₂ : h.Advances s' s'') : h.Advances s s'' :=
  ⟨h₂.sound, List.Subset.trans h₁.discovered h₂.discovered,
    List.Subset.trans h₁.finished h₂.finished,
    fun id hid => h₁.opened id (h₂.opened id hid), fun id hid => h₂.kept id (h₁.kept id hid)⟩

/-- The modules of the hierarchy that have not been reached. -/
def unreached (h : Hierarchy) (s : Search) : List ModuleId :=
  h.nodes.filter (· ∉ s.discovered)

theorem unreached_length_le {h : Hierarchy} {s s' : Search} (hsub : s.discovered ⊆ s'.discovered) :
    (h.unreached s').length ≤ (h.unreached s).length := by
  unfold unreached
  refine List.Sublist.length_le (List.monotone_filter_right h.nodes fun id hid => ?_)
  simp only [decide_eq_true_eq] at hid ⊢
  exact fun hmem => hid (hsub hmem)

theorem unreached_length_lt {h : Hierarchy} {s : Search} {id : ModuleId} (hid : id ∈ h.nodes)
    (hnew : id ∉ s.discovered) :
    (h.unreached { s with discovered := id :: s.discovered }).length < (h.unreached s).length := by
  have hfilter : h.unreached { s with discovered := id :: s.discovered } =
      (h.unreached s).filter (· ≠ id) := by
    unfold unreached
    rw [List.filter_filter]
    refine List.filter_congr fun x _ => ?_
    by_cases hx : x = id <;> simp [hx]
  rw [hfilter, List.length_filter_lt_length_iff_exists]
  exact ⟨id, List.mem_filter.mpr ⟨hid, by simpa using hnew⟩, by simp⟩

/-! ### Visiting modules -/

section ranked

variable {h : Hierarchy} {rank : ModuleId → Nat}

/-- Visiting modules one after another, given what a visit of each of them does. -/
theorem foldl_visit {depth : Nat}
    (hvisit : ∀ s id, h.Sound s → id ∈ h.nodes → (h.unreached s).length < depth →
      (∀ g, s.Open g → rank id < rank g) →
      h.Advances s (h.visit depth s id) ∧ id ∈ (h.visit depth s id).finished)
    (ids : List ModuleId) {s : Search} (hs : h.Sound s) (hids : ∀ id ∈ ids, id ∈ h.nodes)
    (hdepth : (h.unreached s).length < depth)
    (hopen : ∀ id ∈ ids, ∀ g, s.Open g → rank id < rank g) :
    h.Advances s (ids.foldl (h.visit depth) s) ∧
      ∀ id ∈ ids, id ∈ (ids.foldl (h.visit depth) s).finished := by
  induction ids generalizing s with
  | nil => exact ⟨.refl hs, fun id hid => absurd hid List.not_mem_nil⟩
  | cons id ids ih =>
      obtain ⟨hfirst, hmem⟩ := hvisit s id hs (hids id List.mem_cons_self) hdepth
        (hopen id List.mem_cons_self)
      have hless := unreached_length_le (h := h) hfirst.discovered
      obtain ⟨hrest, hall⟩ := ih hfirst.sound (fun x hx => hids x (List.mem_cons_of_mem _ hx))
        (Nat.lt_of_le_of_lt hless hdepth)
        fun x hx g hg => hopen x (List.mem_cons_of_mem _ hx) g (hfirst.opened g hg)
      refine ⟨hfirst.trans hrest, fun x hx => ?_⟩
      rcases List.mem_cons.mp hx with rfl | hx
      · exact hrest.finished hmem
      · exact hall x hx

/-- A visit leaves the module, after everything it leads to. -/
theorem visit_spec (hnodes : ∀ a b, (a, b) ∈ h.edges → b ∈ h.nodes)
    (hrank : ∀ a b, (a, b) ∈ h.edges → rank b < rank a) (depth : Nat) (s : Search) (id : ModuleId)
    (hs : h.Sound s) (hid : id ∈ h.nodes) (hdepth : (h.unreached s).length < depth)
    (hopen : ∀ g, s.Open g → rank id < rank g) :
    h.Advances s (h.visit depth s id) ∧ id ∈ (h.visit depth s id).finished := by
  induction depth generalizing s id with
  | zero => exact absurd hdepth (Nat.not_lt_zero _)
  | succ depth ih =>
      unfold visit
      by_cases hdiscovered : id ∈ s.discovered
      · -- The module has been left before, since an open one would rank above itself.
        rw [if_pos hdiscovered]
        refine ⟨.refl hs, ?_⟩
        by_contra hnot
        exact Nat.lt_irrefl _ (hopen id ⟨hdiscovered, hnot⟩)
      rw [if_neg hdiscovered]
      have hnew : id ∉ s.finished := fun hmem => hdiscovered (hs.finished_mem id hmem).1
      let s₀ : Search := { s with discovered := id :: s.discovered }
      have hs₀ : h.Sound s₀ := ⟨hs.descends, fun x hx =>
        ⟨List.mem_cons_of_mem _ (hs.finished_mem x hx).1, (hs.finished_mem x hx).2⟩⟩
      have hopen₀ : ∀ g, s₀.Open g ↔ g = id ∨ s.Open g := by
        intro g
        constructor
        · rintro ⟨hmem, hnot⟩
          exact (List.mem_cons.mp hmem).imp_right fun hmem => ⟨hmem, hnot⟩
        · rintro (rfl | ⟨hmem, hnot⟩)
          · exact ⟨List.mem_cons_self, hnew⟩
          · exact ⟨List.mem_cons_of_mem _ hmem, hnot⟩
      have hchild : ∀ c ∈ (h.children id).reverse, (id, c) ∈ h.edges :=
        fun c hc => mem_children.mp (List.mem_reverse.mp hc)
      have hless : (h.unreached s₀).length < (h.unreached s).length :=
        unreached_length_lt hid hdiscovered
      obtain ⟨hfold, hall⟩ := foldl_visit ih (h.children id).reverse hs₀
        (fun c hc => hnodes id c (hchild c hc)) (by omega) (by
          intro c hc g hg
          have hlt := hrank id c (hchild c hc)
          rcases (hopen₀ g).mp hg with rfl | hg
          · exact hlt
          · exact Nat.lt_trans hlt (hopen g hg))
      change h.Advances s { (h.children id).reverse.foldl (h.visit depth) s₀ with
        finished := id :: ((h.children id).reverse.foldl (h.visit depth) s₀).finished } ∧ id ∈ _
      generalize (h.children id).reverse.foldl (h.visit depth) s₀ = s₁ at hfold hall ⊢
      obtain ⟨hid₁, hnot₁⟩ := hfold.kept id ((hopen₀ id).mpr (Or.inl rfl))
      refine ⟨⟨⟨⟨hnot₁, ?_, hfold.sound.descends⟩, ?_⟩, ?_, ?_, ?_, ?_⟩, List.mem_cons_self⟩
      · exact fun c hc => hall c (List.mem_reverse.mpr hc)
      · intro x hx
        rcases List.mem_cons.mp hx with rfl | hx
        · exact ⟨hid₁, hid⟩
        · exact hfold.sound.finished_mem x hx
      · exact fun x hx => hfold.discovered (List.mem_cons_of_mem _ hx)
      · exact fun x hx => List.mem_cons_of_mem _ (hfold.finished hx)
      · rintro g ⟨hmem, hnot⟩
        have hopened := hfold.opened g ⟨hmem, List.not_mem_of_not_mem_cons hnot⟩
        exact ((hopen₀ g).mp hopened).resolve_left (List.ne_of_not_mem_cons hnot)
      · intro g hg
        obtain ⟨hmem, hnot⟩ := hfold.kept g ((hopen₀ g).mpr (Or.inr hg))
        refine ⟨hmem, List.not_mem_cons_of_ne_of_not_mem ?_ hnot⟩
        rintro rfl
        exact hdiscovered hg.1

/-- A search in a ranked hierarchy leaves every module after the modules it instantiates, and it leaves
exactly the modules of the hierarchy. -/
theorem finishOrder_spec (hedges : ∀ a b, (a, b) ∈ h.edges → a ∈ h.nodes ∧ b ∈ h.nodes)
    (hrank : ∀ a b, (a, b) ∈ h.edges → rank b < rank a) :
    h.Descends h.finishOrder.reverse ∧ ∀ id, id ∈ h.finishOrder ↔ id ∈ h.nodes := by
  have hempty : h.Sound {} := ⟨trivial, fun id hid => absurd hid List.not_mem_nil⟩
  have hvisit := visit_spec (fun a b hab => (hedges a b hab).2) hrank (h.nodes.length + 1)
  obtain ⟨hsearch, hall⟩ := foldl_visit hvisit h.nodes hempty (fun _ hid => hid)
    (Nat.lt_succ_of_le (List.length_filter_le _ _)) fun _ _ g hg => absurd hg.1 List.not_mem_nil
  unfold finishOrder
  rw [List.reverse_reverse]
  refine ⟨hsearch.sound.descends, fun id => ?_⟩
  rw [List.mem_reverse]
  exact ⟨fun hid => (hsearch.sound.finished_mem id hid).2, hall id⟩

/-- The finish order of a ranked hierarchy is an order in which every module comes after the modules it
instantiates. -/
theorem order?_eq_some (hedges : ∀ a b, (a, b) ∈ h.edges → a ∈ h.nodes ∧ b ∈ h.nodes)
    (hrank : ∀ a b, (a, b) ∈ h.edges → rank b < rank a) : h.order? = some h.finishOrder := by
  obtain ⟨hdescends, hmem⟩ := finishOrder_spec hedges hrank
  have hrespects : h.respects h.finishOrder = true := by
    refine List.all_eq_true.mpr fun ⟨a, b⟩ hab => decide_eq_true ?_
    have hlt := hdescends.idxOf_lt (List.mem_reverse.mpr ((hmem a).mpr (hedges a b hab).1))
      (mem_children.mpr hab)
    rwa [List.reverse_reverse] at hlt
  unfold order?
  rw [if_pos hrespects]

end ranked

end Hierarchy

end Wirework
