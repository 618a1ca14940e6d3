import Mathlib.Algebra.GroupWithZero.Nat
import Mathlib.Algebra.Order.BigOperators.Group.List
import Mathlib.Algebra.Order.Group.Nat
import Wirework.Proofs.Design.FinishOrder
import Mathlib.Data.Finset.Card
import Wirework.Proofs.Design.Emission

/-! # The text of a design

A design has a text just if its hierarchy has no cycle and no body refers to a module that has been erased, and a
cycle is reported just if there is one.  The text lists the live modules, every one once and after the modules it
instantiates, in the order in which a search with one stack leaves them (`text_listing`).

* **One stack.**  A depth-first search can keep the modules it still has to look at on one stack.  A module that has
  not been reached stays where it is when it is looked at, and the modules it instantiates go on top of it; it is left
  when it comes to the top again.  A module may so be on the stack several times, and it is left only once.  Every
  look either takes a module off the stack or reaches a module, whose edges pay for what is put on the stack
  (`effort`), so the search ends.  Whether or not the hierarchy has cycles it leaves the modules in the order in which
  visits one within the other leave them (`stackOrder_eq`).
* **Ranks.**  Without a cycle the modules are ranked by the number of modules they lead to, since a module leads to
  everything its callees lead to and to these callees, which do not lead to themselves.  So an order in which callees
  come first exists just if there is no cycle, and the search finds it. -/

namespace Wirework

/-! ## Searching with one stack -/

namespace Hierarchy

variable {h : Hierarchy}

/-! ### The search -/

/-- The number of times a module on the stack is still to be looked at. -/
def Search.looks (s : Search) (id : ModuleId) : Nat :=
  if id ∈ s.discovered then 1 else 2

/-- A bound on the number of looks until the stack is empty. -/
def effort (h : Hierarchy) (s : Search) (stack : List ModuleId) : Nat :=
  2 * (h.edges.filter fun edge => edge.1 ∉ s.discovered).length + (stack.map s.looks).sum

def Search.reach (s : Search) (id : ModuleId) : Search :=
  { s with discovered := id :: s.discovered }

/-- The module has been left; only the first time counts. -/
def Search.leave (s : Search) (id : ModuleId) : Search :=
  if id ∈ s.finished then s else { s with finished := id :: s.finished }

/-- The modules that a module instantiates and that have not been reached, the last of them on top. -/
def above (h : Hierarchy) (s : Search) (id : ModuleId) : List ModuleId :=
  ((h.children id).filter (· ∉ s.discovered)).reverse

theorem leave_discovered (s : Search) (id : ModuleId) : (s.leave id).discovered = s.discovered := by
  unfold Search.leave
  split <;> rfl

/-- The edges that lead away from a module are no longer counted once it has been reached. -/
theorem length_edges_reach {s : Search} {id : ModuleId} (hid : id ∉ s.discovered) :
    (h.edges.filter fun edge => edge.1 ∉ s.discovered).length =
      (h.edges.filter fun edge => edge.1 ∉ (s.reach id).discovered).length + (h.children id).length := by
  unfold children Search.reach
  simp only [List.mem_cons, not_or]
  induction h.edges with
  | nil => rfl
  | cons edge edges ih =>
      by_cases hsource : edge.1 = id
      · have hreached : edge.1 ∉ s.discovered := hsource ▸ hid
        simp only [List.filter_cons, List.filterMap_cons, hsource, hid, not_true_eq_false, false_and,
          not_false_eq_true, decide_true, decide_false, if_true, Bool.false_eq_true, if_false,
          List.length_cons]
        omega
      · by_cases hreached : edge.1 ∈ s.discovered
        · simpa [hsource, hreached] using ih
        · simp only [List.filter_cons, List.filterMap_cons, hsource, hreached, not_false_eq_true, and_self,
            decide_true, if_true, if_false, List.length_cons]
          omega

theorem looks_le_two (s : Search) (id : ModuleId) : s.looks id ≤ 2 := by
  unfold Search.looks
  split <;> omega

theorem looks_reach_le (s : Search) (id x : ModuleId) : (s.reach id).looks x ≤ s.looks x := by
  unfold Search.looks Search.reach
  by_cases hx : x ∈ s.discovered
  · simp [hx]
  · rw [if_neg hx]
    split <;> omega

theorem effort_leave_lt {s : Search} {id : ModuleId} (stack : List ModuleId) (hid : id ∈ s.discovered) :
    h.effort (s.leave id) stack < h.effort s (id :: stack) := by
  have hlooks : (s.leave id).looks = s.looks := by
    funext x
    unfold Search.looks
    rw [leave_discovered]
  have hone : s.looks id = 1 := if_pos hid
  unfold effort
  rw [hlooks, leave_discovered, List.map_cons, List.sum_cons, hone]
  omega

/-- Reaching a module pays for the modules that go on the stack. -/
theorem effort_reach_lt {s : Search} {id : ModuleId} (stack : List ModuleId) (hid : id ∉ s.discovered) :
    h.effort (s.reach id) (h.above (s.reach id) id ++ id :: stack) < h.effort s (id :: stack) := by
  have habove : ((h.above (s.reach id) id).map (s.reach id).looks).sum ≤ 2 * (h.children id).length := by
    have hsum := List.sum_le_card_nsmul ((h.above (s.reach id) id).map (s.reach id).looks) 2
      (fun n hn => by
        obtain ⟨x, _, rfl⟩ := List.mem_map.mp hn
        exact looks_le_two _ x)
    have hlength : (h.above (s.reach id) id).length ≤ (h.children id).length := by
      unfold above
      rw [List.length_reverse]
      exact List.length_filter_le _ _
    rw [List.length_map, Nat.nsmul_eq_mul] at hsum
    omega
  have hstack : (stack.map (s.reach id).looks).sum ≤ (stack.map s.looks).sum :=
    List.sum_le_sum fun x _ => looks_reach_le s id x
  have hedges := length_edges_reach (h := h) hid
  have hbefore : s.looks id = 2 := if_neg hid
  have hafter : (s.reach id).looks id = 1 := if_pos List.mem_cons_self
  unfold effort
  simp only [List.map_append, List.sum_append, List.map_cons, List.sum_cons, hbefore, hafter]
  omega

/-- Looks at the module on top of the stack until the stack is empty. -/
def drain (h : Hierarchy) (s : Search) : List ModuleId → Search
  | [] => s
  | id :: stack =>
    if id ∈ s.discovered then
      h.drain (s.leave id) stack
    else
      h.drain (s.reach id) (h.above (s.reach id) id ++ id :: stack)
termination_by stack => h.effort s stack
decreasing_by
  · exact effort_leave_lt stack ‹_›
  · exact effort_reach_lt stack ‹_›

/-- The modules in the order in which a search with one stack from each of them leaves them. -/
def stackOrder (h : Hierarchy) : List ModuleId :=
  (h.nodes.foldl (fun s id => if id ∈ s.discovered then s else h.drain s [id]) {}).finished.reverse

/-! ### The same search by visits -/

/-- The search has gone on from `s` to `s'`, and the modules that are open are the same. -/
structure Continues (s s' : Search) : Prop where
  reached : s'.finished ⊆ s'.discovered
  discovered : s.discovered ⊆ s'.discovered
  open_iff : ∀ id, s'.Open id ↔ s.Open id

theorem Continues.refl {s : Search} (hs : s.finished ⊆ s.discovered) : Continues s s :=
  ⟨hs, List.Subset.refl _, fun _ => Iff.rfl⟩

theorem Continues.trans {s s' s'' : Search} (h₁ : Continues s s') (h₂ : Continues s' s'') :
    Continues s s'' :=
  ⟨h₂.reached, List.Subset.trans h₁.discovered h₂.discovered,
    fun id => (h₂.open_iff id).trans (h₁.open_iff id)⟩

theorem visit_of_mem {depth : Nat} {s : Search} {id : ModuleId} (hid : id ∈ s.discovered) :
    h.visit depth s id = s := by
  cases depth with
  | zero => rfl
  | succ depth =>
      unfold visit
      rw [if_pos hid]

theorem discovered_subset_foldl {visit : Search → ModuleId → Search}
    (hvisit : ∀ s id, s.discovered ⊆ (visit s id).discovered) (ids : List ModuleId) (s : Search) :
    s.discovered ⊆ (ids.foldl visit s).discovered := by
  induction ids generalizing s with
  | nil => exact List.Subset.refl _
  | cons id ids ih => exact List.Subset.trans (hvisit s id) (ih (visit s id))

theorem discovered_subset_visit (depth : Nat) (s : Search) (id : ModuleId) :
    s.discovered ⊆ (h.visit depth s id).discovered := by
  induction depth generalizing s id with
  | zero => exact List.Subset.refl _
  | succ depth ih =>
      unfold visit
      split
      · exact List.Subset.refl _
      · exact List.Subset.trans (List.subset_cons_self id _)
          (discovered_subset_foldl ih (h.children id).reverse (s.reach id))

theorem foldl_visit_filter {depth : Nat} {s₀ : Search} (ids : List ModuleId) {s : Search}
    (hs : s₀.discovered ⊆ s.discovered) :
    (ids.filter (· ∉ s₀.discovered)).foldl (h.visit depth) s = ids.foldl (h.visit depth) s := by
  induction ids generalizing s with
  | nil => rfl
  | cons id ids ih =>
      by_cases hid : id ∈ s₀.discovered
      · rw [List.filter_cons_of_neg (by simpa using hid), List.foldl_cons, visit_of_mem (hs hid)]
        exact ih hs
      · rw [List.filter_cons_of_pos (by simpa using hid), List.foldl_cons, List.foldl_cons]
        exact ih (List.Subset.trans hs (discovered_subset_visit depth s id))

/-- Modules on top of the stack are visited one after another, given what becomes of each of them. -/
theorem drain_append {depth : Nat}
    (hvisit : ∀ s id stack, s.finished ⊆ s.discovered → id ∈ h.nodes → ¬ s.Open id →
      (h.unreached s).length < depth →
      h.drain s (id :: stack) = h.drain (h.visit depth s id) stack ∧ Continues s (h.visit depth s id))
    (ids : List ModuleId) {s : Search} (stack : List ModuleId) (hs : s.finished ⊆ s.discovered)
    (hids : ∀ id ∈ ids, id ∈ h.nodes ∧ ¬ s.Open id) (hdepth : (h.unreached s).length < depth) :
    h.drain s (ids ++ stack) = h.drain (ids.foldl (h.visit depth) s) stack ∧
      Continues s (ids.foldl (h.visit depth) s) := by
  induction ids generalizing s with
  | nil => exact ⟨rfl, .refl hs⟩
  | cons id ids ih =>
      obtain ⟨hnode, hopen⟩ := hids id List.mem_cons_self
      obtain ⟨hfirst, hgone⟩ := hvisit s id (ids ++ stack) hs hnode hopen hdepth
      have hless := unreached_length_le (h := h) hgone.discovered
      obtain ⟨hrest, hall⟩ := ih hgone.reached
        (fun x hx => (hids x (List.mem_cons_of_mem _ hx)).imp_right fun hx => (hgone.open_iff x).not.mpr hx)
        (Nat.lt_of_le_of_lt hless hdepth)
      exact ⟨hfirst.trans hrest, hgone.trans hall⟩

/-- What a search with one stack does until it has left the module on top is a visit. A module on top is not
open: what stood above it has been left, and what stands below has been on the stack longer than the modules
that are open now. -/
theorem drain_cons (hnodes : ∀ a b, (a, b) ∈ h.edges → b ∈ h.nodes) (depth : Nat) (s : Search)
    (id : ModuleId) (stack : List ModuleId) (hs : s.finished ⊆ s.discovered) (hid : id ∈ h.nodes)
    (hopen : ¬ s.Open id) (hdepth : (h.unreached s).length < depth) :
    h.drain s (id :: stack) = h.drain (h.visit depth s id) stack ∧ Continues s (h.visit depth s id) := by
  induction depth generalizing s id stack with
  | zero => exact absurd hdepth (Nat.not_lt_zero _)
  | succ depth ih =>
      rw [drain]
      by_cases hdiscovered : id ∈ s.discovered
      · have hfinished : id ∈ s.finished := by
          by_contra hnot
          exact hopen ⟨hdiscovered, hnot⟩
        rw [if_pos hdiscovered, visit_of_mem hdiscovered, Search.leave, if_pos hfinished]
        exact ⟨rfl, .refl hs⟩
      rw [if_neg hdiscovered]
      have hnew : id ∉ s.finished := fun hmem => hdiscovered (hs hmem)
      have hreach : (s.reach id).finished ⊆ (s.reach id).discovered :=
        List.Subset.trans hs (List.subset_cons_self id _)
      have hless : (h.unreached (s.reach id)).length < (h.unreached s).length :=
        unreached_length_lt hid hdiscovered
      have habove : ∀ x ∈ h.above (s.reach id) id, x ∈ h.nodes ∧ ¬ (s.reach id).Open x := by
        intro x hx
        obtain ⟨hchild, hunreached⟩ := List.mem_filter.mp (List.mem_reverse.mp hx)
        exact ⟨hnodes id x (mem_children.mp hchild), fun h => of_decide_eq_true hunreached h.1⟩
      obtain ⟨hdrain, hgone⟩ := drain_append ih (h.above (s.reach id) id) (id :: stack) hreach habove
        (by omega)
      have hfold : (h.above (s.reach id) id).foldl (h.visit depth) (s.reach id) =
          (h.children id).reverse.foldl (h.visit depth) (s.reach id) := by
        unfold above
        rw [← List.filter_reverse]
        exact foldl_visit_filter _ (List.Subset.refl _)
      rw [hfold] at hdrain hgone
      have hvisit : h.visit (depth + 1) s id =
          { (h.children id).reverse.foldl (h.visit depth) (s.reach id) with
            finished := id ::
              ((h.children id).reverse.foldl (h.visit depth) (s.reach id)).finished } := by
        rw [visit, if_neg hdiscovered]
        rfl
      rw [hdrain, hvisit]
      generalize (h.children id).reverse.foldl (h.visit depth) (s.reach id) = s₁ at hgone ⊢
      -- The module itself is still open when it comes to the top again.
      obtain ⟨hid₁, hnot₁⟩ := (hgone.open_iff id).mpr ⟨List.mem_cons_self, hnew⟩
      refine ⟨?_, ?_, ?_, fun x => ?_⟩
      · rw [drain, if_pos hid₁, Search.leave, if_neg hnot₁]
      · exact List.cons_subset.mpr ⟨hid₁, hgone.reached⟩
      · exact List.Subset.trans (List.subset_cons_self id _) hgone.discovered
      · have hopened := hgone.open_iff x
        simp only [Search.Open, Search.reach, List.mem_cons, not_or] at hopened ⊢
        by_cases hx : x = id
        · subst hx
          simp [hdiscovered]
        · simp only [hx, false_or, not_false_eq_true, true_and] at hopened ⊢
          exact hopened

/-- **A search with one stack leaves the modules in the order of the visits**, in every hierarchy whose edges
lead to modules it has. -/
theorem stackOrder_eq (hnodes : ∀ a b, (a, b) ∈ h.edges → b ∈ h.nodes) : h.stackOrder = h.finishOrder := by
  suffices hfold : ∀ (ids : List ModuleId) (s : Search), (∀ id ∈ ids, id ∈ h.nodes) → s.finished ⊆ s.discovered →
      (∀ id, ¬ s.Open id) →
      ids.foldl (fun s id => if id ∈ s.discovered then s else h.drain s [id]) s =
        ids.foldl (h.visit (h.nodes.length + 1)) s by
    unfold stackOrder finishOrder
    rw [hfold h.nodes {} (fun _ hid => hid) (List.Subset.refl _) fun id hid => List.not_mem_nil hid.1]
  intro ids s hids hs hopen
  induction ids generalizing s with
  | nil => rfl
  | cons id ids ih =>
      have hdepth : (h.unreached s).length < h.nodes.length + 1 :=
        Nat.lt_succ_of_le (List.length_filter_le _ _)
      obtain ⟨hdrain, hgone⟩ := drain_cons hnodes _ s id [] hs (hids id List.mem_cons_self) (hopen id) hdepth
      have hstep : (if id ∈ s.discovered then s else h.drain s [id]) =
          h.visit (h.nodes.length + 1) s id := by
        split
        · exact (visit_of_mem ‹_›).symm
        · rw [hdrain, drain]
      rw [List.foldl_cons, List.foldl_cons, hstep]
      exact ih _ (fun x hx => hids x (List.mem_cons_of_mem _ hx)) hgone.reached
        fun x => (hgone.open_iff x).not.mpr (hopen x)

end Hierarchy

/-! ## Listings -/

namespace Design

variable {d : Design}

/-! ### Ranks -/

open Classical in
/-- The live modules that a module instantiates, directly or through others. -/
noncomputable def descendants (d : Design) (id : ModuleId) : Finset ModuleId :=
  d.hierarchy.nodes.toFinset.filter fun c => Relation.TransGen d.Instantiates id c

open Classical in
theorem mem_descendants {id c : ModuleId} :
    c ∈ d.descendants id ↔ d.IsLive c ∧ Relation.TransGen d.Instantiates id c := by
  unfold descendants
  rw [Finset.mem_filter, List.mem_toFinset, mem_nodes]

theorem Acyclic.card_lt (hacyclic : d.Acyclic) {a b : ModuleId} (hab : d.Instantiates a b)
    (hb : d.IsLive b) : (d.descendants b).card < (d.descendants a).card := by
  refine Finset.card_lt_card (Finset.ssubset_iff_subset_ne.mpr ⟨fun c hc => ?_, fun heq => ?_⟩)
  · obtain ⟨hlive, hbc⟩ := mem_descendants.mp hc
    exact mem_descendants.mpr ⟨hlive, .head hab hbc⟩
  · have hmem : b ∈ d.descendants b := heq ▸ mem_descendants.mpr ⟨hb, .single hab⟩
    exact hacyclic b (mem_descendants.mp hmem).2

theorem Acyclic.ranked (hacyclic : d.Acyclic) (a b : ModuleId) (hab : (a, b) ∈ d.hierarchy.edges) :
    (d.descendants b).card < (d.descendants a).card :=
  hacyclic.card_lt (mem_edges.mp hab).1 (mem_edges.mp hab).2

theorem order?_eq_some_iff {order : List ModuleId} :
    d.hierarchy.order? = some order ↔ d.Acyclic ∧ order = d.hierarchy.finishOrder := by
  constructor
  · intro horder
    refine ⟨acyclic_of_order order horder, ?_⟩
    unfold Hierarchy.order? at horder
    split at horder
    · exact (Option.some.inj horder).symm
    · cases horder
  · rintro ⟨hacyclic, rfl⟩
    exact Hierarchy.order?_eq_some edges_subset hacyclic.ranked

/-! ### Listings -/

/-- The text lists the modules of a design. -/
structure Listing (d : Design) (order : List ModuleId) (texts : List String) (text : String) : Prop where
  /-- The order is that of a depth-first search with one stack. -/
  searched : order = d.hierarchy.stackOrder
  /-- No module is listed twice. -/
  nodup : order.Nodup
  /-- The live modules are listed and no others. -/
  mem_iff : ∀ id, id ∈ order ↔ d.IsLive id
  /-- Modules come after those they instantiate. -/
  callees_first : ∀ a b, d.Instantiates a b → order.idxOf b < order.idxOf a
  /-- Every module is listed with its own text, -/
  modules : List.Forall₂ (fun id moduleText => d.moduleText id = .ok moduleText) order texts
  /-- whose last line is not blank, -/
  paragraphs : ∀ moduleText ∈ texts, Paragraph moduleText
  /-- and a blank line between one text and the next. -/
  text_eq : text = "\n".intercalate texts

/-- What the finish order of a design without a cycle is like. -/
theorem Acyclic.finishOrder_spec (hacyclic : d.Acyclic) :
    d.hierarchy.finishOrder.Nodup ∧ (∀ id, id ∈ d.hierarchy.finishOrder ↔ d.IsLive id) ∧
      ∀ a b, d.Instantiates a b → d.IsLive b →
        d.hierarchy.finishOrder.idxOf b < d.hierarchy.finishOrder.idxOf a := by
  obtain ⟨hdescends, hmem⟩ := Hierarchy.finishOrder_spec edges_subset hacyclic.ranked
  refine ⟨List.nodup_reverse.mp hdescends.nodup, fun id => (hmem id).trans mem_nodes, fun a b hab hb => ?_⟩
  have hedge := mem_edges.mpr ⟨hab, hb⟩
  have hlt := hdescends.idxOf_lt (List.mem_reverse.mpr ((hmem a).mpr (edges_subset a b hedge).1))
    (Hierarchy.mem_children.mpr hedge)
  rwa [List.reverse_reverse] at hlt

/-- Without a cycle a design is listed or has a body that refers to a module that has been erased. -/
theorem Acyclic.text_cases (hacyclic : d.Acyclic) :
    (∃ order texts text, d.text = .ok text ∧ d.Listing order texts text ∧
      ∀ a b, d.Instantiates a b → d.IsLive b) ∨
      ∃ a b, d.Instantiates a b ∧ ¬ d.IsLive b ∧ d.text = .error (.invalidModule b) := by
  obtain ⟨hnodup, hmem, hfirst⟩ := hacyclic.finishOrder_spec
  have horder := order?_eq_some_iff.mpr ⟨hacyclic, rfl⟩
  rcases Design.text_cases horder fun id hid => (hmem id).mp hid with
    ⟨texts, htexts, htext⟩ | ⟨a, b, hab, hnot, herror⟩
  · have hmodules := mapM_eq_ok_iff.mp htexts
    have hlive : ∀ a b, d.Instantiates a b → d.IsLive b := by
      rintro a b ⟨m, hm, hb⟩
      obtain ⟨_, -, hok⟩ := exists_of_mem_right hmodules.flip ((hmem a).mpr ⟨m, hm⟩)
      rcases moduleText_cases hm with ⟨_, _, _, hcallees⟩ | ⟨_, _, _, herror⟩
      · exact hcallees b hb
      · rw [herror] at hok
        cases hok
    have hparagraphs : ∀ moduleText ∈ texts, Paragraph moduleText := by
      intro text htext
      obtain ⟨id, hid, hok⟩ := exists_of_mem_right hmodules htext
      obtain ⟨m, hm⟩ := (hmem id).mp hid
      rcases moduleText_cases hm with ⟨_, hok', hparagraph, _⟩ | ⟨_, _, _, herror⟩
      · exact Except.ok.inj (hok'.symm.trans hok) ▸ hparagraph
      · rw [herror] at hok
        cases hok
    have hsearched := Hierarchy.stackOrder_eq fun a b hab => (edges_subset (d := d) a b hab).2
    exact Or.inl ⟨_, texts, _, htext, ⟨hsearched.symm, hnodup, hmem,
      fun a b hab => hfirst a b hab (hlive a b hab), hmodules, hparagraphs, rfl⟩, hlive⟩
  · exact Or.inr ⟨a, b, hab, hnot, herror⟩

/-- **The text of a design lists its live modules, every one after those it instantiates.** A design has a
text just if its hierarchy has no cycle and every instance in a live body refers to a live module, and a cycle
is reported just if there is one. An erased module has no body, so a cycle runs through live modules only. -/
theorem text_listing (d : Design) :
    ((∃ text, d.text = .ok text) ↔ d.Acyclic ∧ ∀ a b, d.Instantiates a b → d.IsLive b) ∧
      (d.text = .error .cyclicHierarchy ↔ ¬ d.Acyclic) ∧
      ∀ text, d.text = .ok text → ∃ order texts, d.Listing order texts text := by
  by_cases hacyclic : d.Acyclic
  · rcases hacyclic.text_cases with ⟨order, texts, text, htext, hlisting, hlive⟩ | ⟨a, b, hab, hnot, herror⟩
    · refine ⟨⟨fun _ => ⟨hacyclic, hlive⟩, fun _ => ⟨text, htext⟩⟩, ?_, fun text' htext' => ?_⟩
      · simp [htext, hacyclic]
      · exact ⟨order, texts, Except.ok.inj (htext.symm.trans htext') ▸ hlisting⟩
    · refine ⟨⟨fun ⟨text, htext⟩ => ?_, fun h => absurd (h.2 a b hab) hnot⟩, ?_, fun text htext => ?_⟩
      · rw [herror] at htext
        cases htext
      · simp [herror, hacyclic]
      · rw [herror] at htext
        cases htext
  · have hnone : d.hierarchy.order? = none := by
      refine Option.eq_none_iff_forall_ne_some.mpr fun order horder => hacyclic ?_
      exact (order?_eq_some_iff.mp horder).1
    have herror : d.text = .error .cyclicHierarchy := by
      unfold text
      simp only [hnone]
      rfl
    refine ⟨⟨fun ⟨text, htext⟩ => ?_, fun h => absurd h.1 hacyclic⟩, ?_, fun text htext => ?_⟩
    · rw [herror] at htext
      cases htext
    · simp [herror, hacyclic]
    · rw [herror] at htext
      cases htext

end Design

end Wirework
