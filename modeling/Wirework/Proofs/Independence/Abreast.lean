import Wirework.Proofs.Independence.Drafting
import Wirework.Proofs.Lockstep

/-! # Bodies built abreast

The body of one definition is built twice, in two worlds that have different histories (`World.Abreast`).  What the
bodies have in common is a draft; the values of the two bodies stand for each other if they have the same position in
it, and these pairs are what grows as the two runs go on in lockstep.

This file has the steps that append operations: constants, sums and registers on values that stand for each other
append operations that are one in the draft (`Abreast.append`), and either both are refused or none is: types and
clocks are the same on both sides (`exists_type`, `Abreast.clock`), and operands that belong to the one body stand for
operands that belong to the other (`Abreast.owned`). -/

namespace Wirework

open Step

variable {σ : Type}

/-! ### Values that stand for each other -/

/-- The signals stand for each other. -/
structure Signal.Matches (k : List (ValueId × ValueId)) (a b : Signal) : Prop where
  value : (a.value, b.value) ∈ k
  type : a.type = b.type

/-- What is supplied for a port is the same, up to signals that stand for each other. -/
inductive Connection.Matches (k : List (ValueId × ValueId)) : Connection → Connection → Prop
  | signal {a b : Signal} (matching : a.Matches k b) : Matches k (.signal a) (.signal b)
  | literal (value : Int) : Matches k (.literal value) (.literal value)
  | absent : Matches k .absent .absent

section growth

variable {k k' : List (ValueId × ValueId)} (hk : k <+: k')
include hk

theorem Signal.Matches.mono {a b : Signal} (h : a.Matches k b) : a.Matches k' b :=
  ⟨hk.subset h.value, h.type⟩

theorem Connection.Matches.mono {a b : Connection} (h : a.Matches k b) : a.Matches k' b := by
  cases h with
  | signal matching => exact .signal (matching.mono hk)
  | literal value => exact .literal value
  | absent => exact .absent

end growth

theorem exists_position {k : List (ValueId × ValueId)} {a b : ValueId} (h : (a, b) ∈ k) :
    ∃ position : Nat, (k.map Prod.fst)[position]? = some a ∧ (k.map Prod.snd)[position]? = some b := by
  obtain ⟨position, hposition⟩ := List.mem_iff_getElem?.mp h
  refine ⟨position, ?_, ?_⟩ <;> rw [List.getElem?_map, hposition] <;> rfl

theorem mem_of_positions {k : List (ValueId × ValueId)} {position : Nat} {a b : ValueId}
    (ha : (k.map Prod.fst)[position]? = some a) (hb : (k.map Prod.snd)[position]? = some b) :
    (a, b) ∈ k := by
  rw [List.getElem?_map, Option.map_eq_some_iff] at ha hb
  obtain ⟨pair, hpair, rfl⟩ := ha
  obtain ⟨_, hpair', rfl⟩ := hb
  obtain rfl := Option.some.inj (hpair.symm.trans hpair')
  exact List.mem_of_getElem? hpair

namespace World

/-- The world with another design. -/
def withDesign (w : World σ) (design : Design) : World σ :=
  { w with session := { w.session with design } }

/-- The modules have been made for one definition. -/
def Twins (w₁ w₂ : World σ) (id₁ id₂ : ModuleId) : Prop :=
  ∃ c, w₁.session.MadeFor c id₁ ∧ w₂.session.MadeFor c id₂

/-- The bodies of the frames are being built for the same planned definition, in worlds that are ready for it, and
have come equally far. -/
structure Abreast (g : Setting σ) (definition : Definition (Routine σ Unit)) (f₁ f₂ : Frame)
    (k : List (ValueId × ValueId)) (w₁ w₂ : World σ) : Prop where
  planned : g.planned f₁.definition
  same : f₂.definition = f₁.definition
  found : g.library.getDefinition f₁.definition = .ok definition
  ready₁ : w₁.Ready g f₁.definition.index
  ready₂ : w₂.Ready g f₁.definition.index
  drafted : ∃ draft, w₁.session.Drafted definition f₁ (k.map Prod.fst) draft ∧
    w₂.session.Drafted definition f₂ (k.map Prod.snd) draft

namespace Abreast

variable {g : Setting σ} {definition : Definition (Routine σ Unit)} {f₁ f₂ : Frame}
  {k : List (ValueId × ValueId)} {w₁ w₂ : World σ}

theorem definition₁ (h : Abreast g definition f₁ f₂ k w₁ w₂) :
    w₁.workspace.library.getDefinition f₁.definition = .ok definition :=
  (h.ready₁.knows _ h.planned).trans h.found

theorem definition₂ (h : Abreast g definition f₁ f₂ k w₁ w₂) :
    w₂.workspace.library.getDefinition f₂.definition = .ok definition := by
  rw [h.same]
  exact (h.ready₂.knows _ h.planned).trans h.found

theorem exists_type (h : Abreast g definition f₁ f₂ k w₁ w₂) {a b : ValueId} (hab : (a, b) ∈ k) :
    ∃ type, w₁.session.design.typeOf? a = some type ∧ w₂.session.design.typeOf? b = some type := by
  obtain ⟨draft, hdraft₁, hdraft₂⟩ := h.drafted
  obtain ⟨position, ha, hb⟩ := exists_position hab
  obtain ⟨type, htype, ha⟩ := exists_getElem?_of_forall₂ hdraft₁.values.typed.flip ha
  obtain ⟨type', htype', hb⟩ := exists_getElem?_of_forall₂ hdraft₂.values.typed.flip hb
  obtain rfl := Option.some.inj (htype.symm.trans htype')
  exact ⟨type, ha, hb⟩

theorem clock (h : Abreast g definition f₁ f₂ k w₁ w₂) : Option.Rel (fun a b : Clock => (a.value, b.value) ∈ k)
    w₁.session.design.scopes.clock? w₂.session.design.scopes.clock? := by
  obtain ⟨draft, hdraft₁, hdraft₂⟩ := h.drafted
  have hclock₁ := hdraft₁.clock
  have hclock₂ := hdraft₂.clock
  generalize w₁.session.design.scopes.clock? = clock₁ at hclock₁ ⊢
  generalize w₂.session.design.scopes.clock? = clock₂ at hclock₂ ⊢
  generalize draft.clock = clock at hclock₁ hclock₂
  cases hclock₁ with
  | none => cases hclock₂ with | none => exact .none
  | some ha => cases hclock₂ with | some hb => exact .some (mem_of_positions ha hb)

/-- The block arguments at one position stand for each other. -/
theorem argument (h : Abreast g definition f₁ f₂ k w₁ w₂) (index : Nat) :
    Option.Rel (fun a b => (a, b) ∈ k) f₁.arguments[index]? f₂.arguments[index]? := by
  obtain ⟨draft, hdraft₁, hdraft₂⟩ := h.drafted
  obtain ⟨_, _, _, _, _, hsketched₁⟩ := hdraft₁.body
  obtain ⟨_, _, _, _, _, hsketched₂⟩ := hdraft₂.body
  obtain ⟨rest₁, hrest₁⟩ := hsketched₁.grows
  obtain ⟨rest₂, hrest₂⟩ := hsketched₂.grows
  have hlength : f₁.arguments.length = f₂.arguments.length :=
    hdraft₁.arguments.trans hdraft₂.arguments.symm
  by_cases hlt : index < f₁.arguments.length
  · have hlt' : index < f₂.arguments.length := hlength ▸ hlt
    rw [List.getElem?_eq_getElem hlt, List.getElem?_eq_getElem hlt']
    have ha : (k.map Prod.fst)[index]? = some f₁.arguments[index] := by
      rw [← hrest₁, List.getElem?_append_left hlt, List.getElem?_eq_getElem hlt]
    have hb : (k.map Prod.snd)[index]? = some f₂.arguments[index] := by
      rw [← hrest₂, List.getElem?_append_left hlt', List.getElem?_eq_getElem hlt']
    exact .some (mem_of_positions ha hb)
  · rw [List.getElem?_eq_none (Nat.le_of_not_lt hlt),
      List.getElem?_eq_none (Nat.le_of_not_lt (hlength ▸ hlt))]
    exact .none

theorem hasBlock (h : Abreast g definition f₁ f₂ k w₁ w₂) :
    w₁.session.hasBlock = true ∧ w₂.session.hasBlock = true := by
  obtain ⟨draft, hdraft₁, hdraft₂⟩ := h.drafted
  obtain ⟨_, hblocks₁⟩ := hdraft₁.names
  obtain ⟨_, hblocks₂⟩ := hdraft₂.names
  unfold Session.hasBlock
  rw [hblocks₁, hblocks₂]
  exact ⟨rfl, rfl⟩

/-! ### Appending -/

/-- Operations on values that stand for each other are one operation in the draft, and so are their results. -/
theorem append (h : Abreast g definition f₁ f₂ k w₁ w₂) {o₁ o₂ : Operation ModuleId ValueId}
    (hoperation : o₁.Corresponds (w₁.Twins w₂) (fun a b => (a, b) ∈ k) o₂) (hgoes : o₁.isTerminator = false)
    (hclocked₁ : o₁.ClockedBy w₁.session.design.scopes.clock?)
    (hclocked₂ : o₂.ClockedBy w₂.session.design.scopes.clock?) {m₁ m₂ : HwModule} {body₁ body₂ : Body}
    (hm₁ : w₁.session.design.module? f₁.module = some m₁)
    (hbody₁ : m₁.body? = some body₁) (hm₂ : w₂.session.design.module? f₂.module = some m₂)
    (hbody₂ : m₂.body? = some body₂) (types : List HwType) (attributes : AttributeMap) (location : Location) :
    let design₁ := w₁.session.design.append f₁.module body₁ o₁ types attributes location
    let design₂ := w₂.session.design.append f₂.module body₂ o₂ types attributes location
    w₁.session.Edits { w₁.session with design := design₁ } ∧
      w₂.session.Edits { w₂.session with design := design₂ } ∧
      Abreast g definition f₁ f₂ (k ++ (w₁.session.design.nextValues types.length).zip
        (w₂.session.design.nextValues types.length)) (w₁.withDesign design₁) (w₂.withDesign design₂) := by
  intro design₁ design₂
  obtain ⟨draft, hdraft₁, hdraft₂⟩ := h.drafted
  obtain ⟨operation, hdrawn₁, hdrawn₂⟩ : ∃ operation : Operation DefId Nat,
      o₁.Corresponds (Function.swap w₁.session.MadeFor)
          (fun v position => (k.map Prod.fst)[position]? = some v) operation ∧
        o₂.Corresponds (Function.swap w₂.session.MadeFor)
          (fun v position => (k.map Prod.snd)[position]? = some v) operation :=
    hoperation.exists_common (fun _ _ htwins => htwins) fun _ _ => exists_position
  let drawn : SketchOp := ⟨operation, types, attributes, location⟩
  have hdrawn₁ : o₁.Corresponds _ _ drawn.operation := hdrawn₁
  have hdrawn₂ : o₂.Corresponds _ _ drawn.operation := hdrawn₂
  obtain ⟨hedits₁, hnext₁⟩ := hdraft₁.append hdrawn₁ hgoes hclocked₁ hm₁ hbody₁
  obtain ⟨hedits₂, hnext₂⟩ :=
    hdraft₂.append hdrawn₂ (hoperation.isTerminator_eq.trans hgoes) hclocked₂ hm₂ hbody₂
  have hlength : (w₁.session.design.nextValues types.length).length =
      (w₂.session.design.nextValues types.length).length := by
    rw [Design.length_nextValues, Design.length_nextValues]
  refine ⟨hedits₁, hedits₂, { h with
    ready₁ := h.ready₁.edits hedits₁, ready₂ := h.ready₂.edits hedits₂
    drafted := ⟨draft.extend drawn, ?_, ?_⟩ }⟩
  · rw [List.map_append, List.map_fst_zip (Nat.le_of_eq hlength)]
    exact hnext₁
  · rw [List.map_append, List.map_snd_zip (Nat.le_of_eq hlength.symm)]
    exact hnext₂

theorem owned (h : Abreast g definition f₁ f₂ k w₁ w₂) {o₁ o₂ : Operation ModuleId ValueId}
    (hoperation : o₁.Corresponds (w₁.Twins w₂) (fun a b => (a, b) ∈ k) o₂) :
    (∀ v ∈ o₁.operands, w₁.session.design.owner? v = some f₁.module) ∧
      ∀ v ∈ o₂.operands, w₂.session.design.owner? v = some f₂.module := by
  obtain ⟨draft, hdraft₁, hdraft₂⟩ := h.drafted
  constructor
  · intro a ha
    obtain ⟨b, _, hab⟩ := exists_of_mem_right hoperation.operands.flip ha
    exact hdraft₁.values.owned a (List.mem_map_of_mem (f := Prod.fst) hab)
  · intro b hb
    obtain ⟨a, _, hab⟩ := exists_of_mem_right hoperation.operands hb
    exact hdraft₂.values.owned b (List.mem_map_of_mem (f := Prod.snd) hab)

theorem building (h : Abreast g definition f₁ f₂ k w₁ w₂) :
    w₁.session.design.Building f₁.module ∧ w₂.session.design.Building f₂.module := by
  obtain ⟨draft, hdraft₁, hdraft₂⟩ := h.drafted
  exact ⟨hdraft₁.building, hdraft₂.building⟩

theorem location_eq (h : Abreast g definition f₁ f₂ k w₁ w₂) :
    w₁.session.design.scopes.location = w₂.session.design.scopes.location := by
  obtain ⟨draft, hdraft₁, hdraft₂⟩ := h.drafted
  exact hdraft₁.location.trans hdraft₂.location.symm

end Abreast

end World

/-! ### Steps on the designs -/

section designs

variable {g : Setting σ} {definition : Definition (Routine σ Unit)} {f₁ f₂ : Frame}
  {k : List (ValueId × ValueId)} {w₁ w₂ : World σ} {d₁ d₂ : Design}

/-- The worlds are abreast once they have the designs. -/
abbrev World.AbreastOver (g : Setting σ) (definition : Definition (Routine σ Unit)) (f₁ f₂ : Frame)
    (w₁ w₂ : World σ) (k : List (ValueId × ValueId)) (d₁ d₂ : Design) : Prop :=
  World.Abreast g definition f₁ f₂ k (w₁.withDesign d₁) (w₂.withDesign d₂)

namespace Edit

theorem insertValue_lockstep (h : World.AbreastOver g definition f₁ f₂ w₁ w₂ k d₁ d₂)
    {o₁ o₂ : Operation ModuleId ValueId}
    (hoperation : o₁.Corresponds (w₁.Twins w₂) (fun a b => (a, b) ∈ k) o₂) (hgoes : o₁.isTerminator = false)
    (hclocked₁ : o₁.ClockedBy d₁.scopes.clock?) (hclocked₂ : o₂.ClockedBy d₂.scopes.clock?) (type : HwType) :
    Lockstep (World.AbreastOver g definition f₁ f₂ w₁ w₂) (fun k a b _ _ => a.Matches k b)
      (insertValue o₁ type) (insertValue o₂ type) k d₁ d₂ := by
  obtain ⟨hbuilding₁, hbuilding₂⟩ := h.building
  obtain ⟨howned₁, howned₂⟩ := h.owned hoperation
  obtain ⟨m₁, body₁, hm₁, hbody₁, _, happly₁⟩ := insertValue_apply hbuilding₁ howned₁ type
  obtain ⟨m₂, body₂, hm₂, hbody₂, _, happly₂⟩ := insertValue_apply hbuilding₂ howned₂ type
  rw [← h.location_eq] at happly₂
  obtain ⟨_, _, hnext⟩ := h.append hoperation hgoes hclocked₁ hclocked₂ hm₁ hbody₁ hm₂ hbody₂ [type] .empty
    (w₁.withDesign d₁).session.design.scopes.location
  exact lockstep_of_apply happly₁ happly₂ (List.prefix_append _ _) hnext
    (.ok ⟨List.mem_append_right _ List.mem_cons_self, rfl⟩)

theorem constant_lockstep (h : World.AbreastOver g definition f₁ f₂ w₁ w₂ k d₁ d₂) (type : HwType)
    (value : Int) :
    Lockstep (World.AbreastOver g definition f₁ f₂ w₁ w₂) (fun k a b _ _ => a.Matches k b)
      (constant type value) (constant type value) k d₁ d₂ := by
  unfold constant
  cases Constant.ofInt? type value with
  | none => exact lockstep_throw h _ _ _
  | some c => exact insertValue_lockstep h (.constant c) rfl trivial trivial type

theorem zero_lockstep (h : World.AbreastOver g definition f₁ f₂ w₁ w₂ k d₁ d₂) (type : HwType) :
    Lockstep (World.AbreastOver g definition f₁ f₂ w₁ w₂) (fun k a b _ _ => a.Matches k b) (zero type)
      (zero type) k d₁ d₂ :=
  insertValue_lockstep h (.constant (.zero type)) rfl trivial trivial type

theorem add_lockstep (h : World.AbreastOver g definition f₁ f₂ w₁ w₂ k d₁ d₂) {lhs₁ rhs₁ lhs₂ rhs₂ : Signal}
    (hlhs : lhs₁.Matches k lhs₂) (hrhs : rhs₁.Matches k rhs₂) :
    Lockstep (World.AbreastOver g definition f₁ f₂ w₁ w₂) (fun k a b _ _ => a.Matches k b)
      (add lhs₁ rhs₁) (add lhs₂ rhs₂) k d₁ d₂ := by
  unfold add
  rw [hlhs.type, hrhs.type]
  refine Lockstep.guard h Iff.rfl fun _ => Lockstep.guard h Iff.rfl fun _ => ?_
  exact insertValue_lockstep h (.add hlhs.value hrhs.value) rfl trivial trivial lhs₂.type

theorem register_lockstep (h : World.AbreastOver g definition f₁ f₂ w₁ w₂ k d₁ d₂) {input₁ input₂ : Signal}
    (hinput : input₁.Matches k input₂) :
    Lockstep (World.AbreastOver g definition f₁ f₂ w₁ w₂) (fun k a b _ _ => a.Matches k b)
      (register input₁) (register input₂) k d₁ d₂ := by
  unfold register registerWith
  refine (lockstep_get h).bind fun k' e₁ e₂ s₁ s₂ hk h' hread => ?_
  obtain ⟨hread, rfl, rfl⟩ := hread
  have hclock : Option.Rel (fun a b : Clock => (a.value, b.value) ∈ k') e₁.scopes.clock? e₂.scopes.clock? :=
    hread.clock
  have hinput := hinput.mono hk
  generalize hclock₁ : e₁.scopes.clock? = clock₁ at hclock
  generalize hclock₂ : e₂.scopes.clock? = clock₂ at hclock
  cases hclock with
  | none => exact lockstep_throw h' _ _ _
  | some hvalues =>
      rw [hinput.type]
      exact insertValue_lockstep h' (.register hinput.value hvalues) rfl hclock₁ hclock₂ input₂.type

end Edit

end designs

theorem Build.lockstep_edit {α β γ : Type} {I : List γ → World σ → World σ → Prop}
    {Q : List γ → α → β → World σ → World σ → Prop} {x : Edit α} {y : Edit β} {k : List γ} {w₁ w₂ : World σ}
    (h : Lockstep (fun k d₁ d₂ => I k (w₁.withDesign d₁) (w₂.withDesign d₂))
      (fun k a b d₁ d₂ => Q k a b (w₁.withDesign d₁) (w₂.withDesign d₂)) x y k w₁.session.design w₂.session.design) :
    Lockstep I Q (Build.edit x) (Build.edit y) k w₁ w₂ :=
  ((h.mapError BuildError.ir BuildError.ir).zoom).zoom

end Wirework
