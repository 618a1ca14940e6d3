import Mathlib.Logic.Relation
import Wirework.Design.Printer
import Wirework.Proofs.Design.FinishOrder
import Wirework.Proofs.Design.Tables
import Wirework.Proofs.Sequences

/-! # Designs that can be written

A design has a text if every instance refers to a live module and the modules can be ranked above those they
instantiate (`text_of_ranked`): the hierarchy has a finish order then, and no module in this order refers to one that
is missing (`text_cases`).

The hierarchy that the printer computes is compared with what modules instantiate by definition (`Instantiates`): its
edges are the instances between live modules, each listed once (`mem_edges`).  A rank excludes cycles
(`acyclic_of_ranked`), and so does an order (`acyclic_of_order`); the converse, that there is an order where there is
no cycle, is about the search and stands with the listings.

What the text is made of is told as far as the order of modules in it goes: each module is a `Paragraph`, which can be
found in the text again. -/

namespace Wirework

namespace Design

variable {d : Design}

/-- The body of the first module has an instance of the second one. -/
def Instantiates (d : Design) (a b : ModuleId) : Prop :=
  ∃ m, d.module? a = some m ∧ b ∈ d.callees m

/-! ### The hierarchy -/

theorem mem_nodes {id : ModuleId} : id ∈ d.hierarchy.nodes ↔ d.IsLive id := by
  unfold hierarchy IsLive
  rw [List.mem_map]
  constructor
  · rintro ⟨⟨id, m⟩, hmem, rfl⟩
    exact ⟨m, mem_liveModules.mp hmem⟩
  · rintro ⟨m, hm⟩
    exact ⟨(id, m), mem_liveModules.mpr hm, rfl⟩

theorem mem_instantiations {a b : ModuleId} :
    (a, b) ∈ d.instantiations ↔ d.Instantiates a b ∧ d.IsLive b := by
  unfold instantiations Instantiates IsLive
  rw [List.mem_flatMap]
  constructor
  · rintro ⟨⟨id, m⟩, hm, hmem⟩
    obtain ⟨callee, hcallee, heq⟩ := List.mem_map.mp hmem
    obtain ⟨rfl, rfl⟩ := Prod.mk.inj heq
    obtain ⟨hc, hlive⟩ := List.mem_filter.mp hcallee
    exact ⟨⟨m, mem_liveModules.mp hm, hc⟩, Option.isSome_iff_exists.mp hlive⟩
  · rintro ⟨⟨m, hm, hb⟩, hlive⟩
    refine ⟨(a, m), mem_liveModules.mpr hm, List.mem_map.mpr ⟨b, ?_, rfl⟩⟩
    exact List.mem_filter.mpr ⟨hb, Option.isSome_iff_exists.mpr hlive⟩

theorem mem_foldl_new {α : Type} [BEq α] [LawfulBEq α] {x : α} (l acc : List α) :
    x ∈ l.foldl (fun acc a => if a ∈ acc then acc else acc ++ [a]) acc ↔ x ∈ acc ∨ x ∈ l := by
  induction l generalizing acc with
  | nil => simp
  | cons a l ih =>
      rw [List.foldl_cons, ih]
      by_cases ha : a ∈ acc
      · rw [if_pos ha, List.mem_cons]
        refine ⟨fun h => h.imp_right Or.inr, ?_⟩
        rintro (hx | rfl | hx)
        · exact Or.inl hx
        · exact Or.inl ha
        · exact Or.inr hx
      · rw [if_neg ha, List.mem_append, List.mem_singleton, List.mem_cons, or_assoc]

theorem mem_edges {a b : ModuleId} :
    (a, b) ∈ d.hierarchy.edges ↔ d.Instantiates a b ∧ d.IsLive b := by
  rw [← mem_instantiations]
  exact (mem_foldl_new d.instantiations []).trans (or_iff_right List.not_mem_nil)

theorem edges_subset (a b : ModuleId) (hab : (a, b) ∈ d.hierarchy.edges) :
    a ∈ d.hierarchy.nodes ∧ b ∈ d.hierarchy.nodes := by
  obtain ⟨⟨m, hm, _⟩, hb⟩ := mem_edges.mp hab
  exact ⟨mem_nodes.mpr ⟨m, hm⟩, mem_nodes.mpr hb⟩

/-- No module instantiates itself, directly or through others. -/
def Acyclic (d : Design) : Prop :=
  ∀ id, ¬ Relation.TransGen d.Instantiates id id

theorem acyclic_of_ranked {rank : ModuleId → Nat}
    (hrank : ∀ a b, d.Instantiates a b → rank b < rank a) : d.Acyclic := by
  have hlt : ∀ a b, Relation.TransGen d.Instantiates a b → rank b < rank a := by
    intro a b h
    induction h with
    | single h => exact hrank _ _ h
    | tail _ h ih => exact Nat.lt_trans (hrank _ _ h) ih
  exact fun id h => Nat.lt_irrefl _ (hlt id id h)

/-- There is no cycle in a hierarchy that has an order. -/
theorem acyclic_of_order (order : List ModuleId) (h : d.hierarchy.order? = some order) :
    d.Acyclic := by
  have hrespects : d.hierarchy.respects d.hierarchy.finishOrder = true := by
    by_contra hnot
    unfold Hierarchy.order? at h
    rw [if_neg hnot] at h
    cases h
  -- Modules that are not live instantiate nothing and rank below all others.
  let rank (id : ModuleId) : Nat :=
    if (d.module? id).isSome then d.hierarchy.finishOrder.idxOf id + 1 else 0
  suffices hrank : ∀ a b, d.Instantiates a b → rank b < rank a from acyclic_of_ranked hrank
  intro a b hab
  unfold rank
  obtain ⟨m, hm, hb⟩ := hab
  have ha : (d.module? a).isSome = true := by rw [hm]; rfl
  by_cases hlive : (d.module? b).isSome = true
  · have hedge := mem_edges.mpr ⟨⟨m, hm, hb⟩, Option.isSome_iff_exists.mp hlive⟩
    have hlt := of_decide_eq_true (List.all_eq_true.mp hrespects (a, b) hedge)
    simp only [ha, hlive, if_true]
    omega
  · simp only [ha, hlive, if_true]
    exact Nat.succ_pos _

/-! ### Texts

An operation has a text unless it is an instance of a module that is missing, and from the operations this
carries over to modules and to the design. -/

theorem operationText_cases (m : HwModule) (operation : Operation ModuleId ValueId) :
    (∃ text, d.operationText m operation = .ok text ∧ ∀ c, operation.callee? = some c → d.IsLive c) ∨
      ∃ c, operation.callee? = some c ∧ ¬ d.IsLive c ∧
        d.operationText m operation = .error (.invalidModule c) := by
  cases operation with
  | instantiate c name inputs parameters =>
      cases hc : d.module? c with
      | none =>
          refine Or.inr ⟨c, rfl, ?_, by simp only [operationText, hc]; rfl⟩
          rintro ⟨callee, hcallee⟩
          rw [hc] at hcallee
          cases hcallee
      | some callee =>
          refine Or.inl ⟨d.instanceText m callee name inputs parameters, by simp only [operationText, hc]; rfl,
            fun c' hc' => ?_⟩
          obtain rfl := Option.some.inj hc'
          exact ⟨callee, hc⟩
  | _ => exact Or.inl ⟨_, rfl, fun c hc => nomatch hc⟩

theorem opText_cases (m : HwModule) (op : Op) :
    (∃ text, d.opText m op = .ok text ∧ ∀ c, op.operation.callee? = some c → d.IsLive c) ∨
      ∃ c, op.operation.callee? = some c ∧ ¬ d.IsLive c ∧ d.opText m op = .error (.invalidModule c) := by
  unfold opText
  rcases operationText_cases (d := d) m op.operation with ⟨text, htext, hlive⟩ | ⟨c, hc, hnot, herror⟩
  · rw [htext]
    exact Or.inl ⟨_, rfl, hlive⟩
  · rw [herror]
    exact Or.inr ⟨c, hc, hnot, rfl⟩

/-- The text begins with the keyword of a module, and its last line is not blank and is ended. -/
def Paragraph (text : String) : Prop :=
  ∃ inner close, (close = ")" ∨ close = "\x7d") ∧ text = "hw.module" ++ inner ++ close ++ "\n"

theorem signatureText_eq (m : HwModule) :
    ∃ inner close, (close = ")" ∨ close = "\x7d") ∧ signatureText m = inner ++ close := by
  unfold signatureText
  by_cases hattributes : m.attributes.isEmpty = true
  · exact ⟨"(" ++ commaList (portTexts m), ")", Or.inl rfl, by simp [hattributes]⟩
  · simp only [hattributes, attributesText, Attribute.text, Bool.false_eq_true, if_false, ← String.append_assoc]
    exact ⟨_, "\x7d", Or.inr rfl, rfl⟩

theorem bodyText_cases (m : HwModule) (body : Body) :
    (∃ text, d.bodyText m body = .ok text ∧
      ∀ o ∈ body.ops, ∀ op, d.op? o = some op → ∀ c, op.operation.callee? = some c → d.IsLive c) ∨
      ∃ o ∈ body.ops, ∃ op, d.op? o = some op ∧ ∃ c, op.operation.callee? = some c ∧ ¬ d.IsLive c ∧
        d.bodyText m body = .error (.invalidModule c) := by
  unfold bodyText
  rcases mapM_cases (d.opText m) (body.ops.toList.filterMap d.op?) with ⟨lines, hlines⟩ | ⟨op, hop, e, he, hall⟩
  · rw [hlines]
    refine Or.inl ⟨_, rfl, fun o ho op hop => ?_⟩
    have hmem := List.mem_filterMap.mpr ⟨o, Array.mem_toList_iff.mpr ho, hop⟩
    obtain ⟨line, -, hline⟩ := exists_of_mem_right (mapM_eq_ok_iff.mp hlines).flip hmem
    rcases opText_cases (d := d) m op with ⟨_, _, hlive⟩ | ⟨c, _, _, herror⟩
    · exact hlive
    · rw [herror] at hline
      cases hline
  · obtain ⟨o, ho, hop⟩ := List.mem_filterMap.mp hop
    rcases opText_cases (d := d) m op with ⟨text, htext, -⟩ | ⟨c, hc, hnot, herror⟩
    · rw [htext] at he
      cases he
    · obtain rfl := Except.error.inj (herror.symm.trans he)
      rw [hall]
      exact Or.inr ⟨o, Array.mem_toList_iff.mp ho, op, hop, c, hc, hnot, rfl⟩

theorem moduleText_cases {id : ModuleId} {m : HwModule} (hm : d.module? id = some m) :
    (∃ text, d.moduleText id = .ok text ∧ Paragraph text ∧ ∀ c ∈ d.callees m, d.IsLive c) ∨
      ∃ c ∈ d.callees m, ¬ d.IsLive c ∧ d.moduleText id = .error (.invalidModule c) := by
  obtain ⟨inner, close, hclose, hsignature⟩ := signatureText_eq m
  -- The text around the lines of a body.
  have hframe : ∀ lines : String, Paragraph
      ("hw.module @" ++ m.symbol ++ signatureText m ++ " \x7b\n" ++ lines ++ "\x7d\n") := fun lines =>
    ⟨" @" ++ m.symbol ++ signatureText m ++ " \x7b\n" ++ lines, "\x7d", Or.inr rfl, by
      apply String.toList_injective
      simp⟩
  have hbodyless : m.body? = none → ∀ c ∈ d.callees m, d.IsLive c := by
    intro hnone c hc
    obtain ⟨body, _, _, hbody, -⟩ := mem_callees.mp hc
    rw [hnone] at hbody
    cases hbody
  unfold moduleText
  simp only [hm]
  cases hkind : m.kind with
  | external parameters =>
      refine Or.inl ⟨_, rfl, ⟨".extern @" ++ m.symbol ++ angleList (parameters.map fun p =>
        p.name ++ ": " ++ p.kind) ++ inner, close, hclose, ?_⟩, hbodyless (by unfold HwModule.body?; rw [hkind])⟩
      apply String.toList_injective
      simp [hsignature]
  | generated body? =>
      cases body? with
      | none => exact Or.inl ⟨_, rfl, hframe "", hbodyless (by unfold HwModule.body?; rw [hkind])⟩
      | some body =>
          have hbody := HwModule.body?_eq_some_iff.mpr hkind
          rcases bodyText_cases (d := d) m body with
            ⟨lines, hlines, hlive⟩ | ⟨o, ho, op, hop, c, hc, hnot, herror⟩
          · refine Or.inl ⟨_, by simp only [hlines]; rfl, hframe lines, fun c hc => ?_⟩
            obtain ⟨body', o, op, hbody', ho, hop, hcallee⟩ := mem_callees.mp hc
            obtain rfl := Option.some.inj (hbody.symm.trans hbody')
            exact hlive o ho op hop c hcallee
          · exact Or.inr ⟨c, mem_callees.mpr ⟨body, o, op, hbody, ho, hop, hc⟩, hnot,
              by simp only [herror]; rfl⟩

/-- A design whose hierarchy has an order has a text, unless a module instantiates one that is missing. -/
theorem text_cases {order : List ModuleId} (horder : d.hierarchy.order? = some order)
    (hlive : ∀ id ∈ order, d.IsLive id) :
    (∃ texts, order.mapM d.moduleText = .ok texts ∧ d.text = .ok ("\n".intercalate texts)) ∨
      ∃ a c, d.Instantiates a c ∧ ¬ d.IsLive c ∧ d.text = .error (.invalidModule c) := by
  unfold text
  simp only [horder]
  rcases mapM_cases d.moduleText order with ⟨texts, htexts⟩ | ⟨id, hid, e, he, hall⟩
  · exact Or.inl ⟨texts, htexts, by rw [htexts]; rfl⟩
  · obtain ⟨m, hm⟩ := hlive id hid
    rcases moduleText_cases hm with ⟨text, htext, -⟩ | ⟨c, hc, hnot, herror⟩
    · rw [htext] at he
      cases he
    · obtain rfl := Except.error.inj (herror.symm.trans he)
      exact Or.inr ⟨id, c, ⟨m, hm, hc⟩, hnot, by rw [hall]; rfl⟩

/-- A design has a text if instances refer to live modules and modules rank above those they
instantiate. -/
theorem text_of_ranked {rank : ModuleId → Nat} (hlive : ∀ a b, d.Instantiates a b → d.IsLive b)
    (hrank : ∀ a b, d.Instantiates a b → rank b < rank a) : ∃ text, d.text = .ok text := by
  have hranked : ∀ a b, (a, b) ∈ d.hierarchy.edges → rank b < rank a :=
    fun a b hab => hrank a b (mem_edges.mp hab).1
  obtain ⟨-, hmem⟩ := Hierarchy.finishOrder_spec edges_subset hranked
  rcases text_cases (Hierarchy.order?_eq_some edges_subset hranked) fun id hid => mem_nodes.mp ((hmem id).mp hid)
    with ⟨texts, -, htext⟩ | ⟨a, c, hinstance, hnot, -⟩
  · exact ⟨_, htext⟩
  · exact absurd (hlive a c hinstance) hnot

end Design

end Wirework
