import Mathlib.Data.List.Nodup
import Wirework.Proofs.Design.Depiction

/-! # Copies in the making

An image is inserted operation by operation.  While the copy is made, its values stand at the positions at which the
original ones stood, have the same types, and belong to the new module (`Copying`).

Every operation of the image therefore finds its operands and may use them, and an instance that fits the signature of
its module in the original fits the module of the copy (`Copying.exists_operation`), if the design supplies a module
of the same input types under its symbol (`Supplies`).  The new results are then put at the ends of both lists of
values (`Copying.append`), which is what the next operation needs. -/

namespace Wirework

namespace Design

variable {d d' : Design}

/-! ### Callees -/

/-- The design `d'` has a live module under the symbol of a live module of `d`, with the same input
types. -/
def Supplies (d d' : Design) (c : ModuleId) : Prop :=
  ∃ callee c' callee', d.module? c = some callee ∧ d'.find? callee.symbol = some c' ∧
    d'.module? c' = some callee' ∧ callee'.inputs.map (·.type) = callee.inputs.map (·.type)

theorem Supplies.of_header {d'' : Design} {c : ModuleId} (h : d.Supplies d' c)
    (hfind : ∀ symbol c', d'.find? symbol = some c' →
      d''.find? symbol = some c' ∧ d''.header? c' = d'.header? c') : d.Supplies d'' c := by
  obtain ⟨callee, c', callee', hcallee, hc', hcallee', htypes⟩ := h
  obtain ⟨hc'', hheader⟩ := hfind callee.symbol c' hc'
  obtain ⟨callee'', hcallee'', heq⟩ := exists_module?_of_header? hheader hcallee'
  have hinputs : callee''.inputs = callee'.inputs := congrArg (·.inputs) heq
  exact ⟨callee, c', callee'', hcallee, hc'', hcallee'', hinputs ▸ htypes⟩

theorem Supplies.enlarged {d'' : Design} {c : ModuleId} (h : d.Supplies d' c)
    (he : d'.Enlarges d'') : d.Supplies d'' c :=
  h.of_header fun symbol c' hc' => ⟨find?_of_header? he.header symbol ▸ hc', he.header c'⟩

def SameType (d d' : Design) (v v' : ValueId) : Prop :=
  ∃ type, d.typeOf? v = some type ∧ d'.typeOf? v' = some type

/-- An instance of what is found under the symbol fits if an instance of the original does. -/
theorem Supplies.fits {c c' : ModuleId} {symbol name : String} {inputs inputs' : List ValueId}
    {parameters : AttributeMap} (h : d.Supplies d' c) (hsymbol : d.symbolOf? c = some symbol)
    (hfound : d'.find? symbol = some c') (hfits : d.Fits (.instantiate c name inputs parameters))
    (hsame : List.Forall₂ (d.SameType d') inputs inputs') :
    d'.Fits (.instantiate c' name inputs' parameters) := by
  obtain ⟨callee, found, callee', hcallee, hc', hcallee', htypes⟩ := h
  obtain ⟨m, hm, rfl⟩ := symbolOf?_eq_some_iff.mp hsymbol
  obtain ⟨hname, m', hm', hports⟩ := hfits
  rw [hcallee] at hm hm'
  obtain rfl := Option.some.inj hm
  obtain rfl := Option.some.inj hm'
  rw [hc'] at hfound
  obtain rfl := Option.some.inj hfound
  have htyped : List.Forall₂ (fun type v => d'.typeOf? v = some type)
      (callee.inputs.map (·.type)) inputs' := by
    rw [List.forall₂_map_left_iff]
    refine forall₂_comp (fun port v v' hv hsame => ?_) hports hsame
    obtain ⟨type, htype, htype'⟩ := hsame
    rw [hv] at htype
    exact Option.some.inj htype ▸ htype'
  rw [← htypes, List.forall₂_map_left_iff] at htyped
  exact ⟨hname, callee', hcallee', htyped⟩

/-! ### A copy in the making -/

theorem Enlarges.owner? (h : d.Enlarges d') {v : ValueId} {id : ModuleId}
    (hv : d.owner? v = some id) : d'.owner? v = some id := by
  obtain ⟨value, hvalue, hsource⟩ := Option.bind_eq_some_iff.mp hv
  refine Option.bind_eq_some_iff.mpr ⟨value, h.value v value hvalue, ?_⟩
  cases hs : value.source with
  | argument owner i =>
      rw [hs] at hsource
      exact hsource
  | result o i =>
      rw [hs] at hsource
      obtain ⟨op, hop, hparent⟩ := Option.map_eq_some_iff.mp hsource
      exact Option.map_eq_some_iff.mpr ⟨op, h.op o op hop, hparent⟩

/-- The values `locals'` of a module of `d'` stand for the values `locals` of `d`. -/
structure Copying (d d' : Design) (id : ModuleId) (locals locals' : List ValueId) : Prop where
  types : List.Forall₂ (d.SameType d') locals locals'
  owned : ∀ v ∈ locals', d'.owner? v = some id
  nodup : locals'.Nodup

namespace Copying

variable {A b b' : Design} {id : ModuleId} {locals locals' : List ValueId}

theorem value_at (h : A.Copying b id locals locals') {v : ValueId} {position : Nat}
    (hv : locals.idxOf? v = some position) :
    ∃ v', locals'[position]? = some v' ∧ A.SameType b v v' := by
  obtain ⟨hlt, rfl, _⟩ := List.idxOf?_eq_some_iff.mp hv
  obtain ⟨hlength, htypes⟩ := List.forall₂_iff_get.mp h.types
  exact ⟨locals'[position], List.getElem?_eq_getElem (hlength ▸ hlt),
    htypes position hlt (hlength ▸ hlt)⟩

theorem idxOf?_eq (h : A.Copying b id locals locals') {v : ValueId} {position : Nat}
    (hv : locals'[position]? = some v) : locals'.idxOf? v = some position := by
  obtain ⟨hlt, rfl⟩ := List.getElem?_eq_some_iff.mp hv
  refine List.idxOf?_eq_some_iff.mpr ⟨hlt, rfl, fun j hj heq => ?_⟩
  exact Nat.ne_of_lt hj ((List.Nodup.getElem_inj_iff h.nodup).mp heq)

/-- New values of the module stand for further values of the same types. -/
theorem append (h : A.Copying b id locals locals') (he : b.Enlarges b') {results : List ValueId}
    {types : List HwType} {source : Nat → ValueSource}
    (hresults : List.Forall₂ (fun v type => A.typeOf? v = some type) results types)
    (hvalues : b'.values = b.values ++
      types.mapIdx fun index type => Value.mk type (source index))
    (howned : ∀ v ∈ b.nextValues types.length, b'.owner? v = some id) :
    A.Copying b' id (locals ++ results) (locals' ++ b.nextValues types.length) where
  types := by
    refine List.rel_append (h.types.imp fun v v' ⟨type, hv, hv'⟩ => ⟨type, hv, he.typeOf? hv'⟩) ?_
    exact forall₂_comp (fun v type v' hv hv' => ⟨type, hv, hv'⟩) hresults
      (typeOf?_nextValues hvalues)
  owned v hv := by
    rcases List.mem_append.mp hv with hv | hv
    · exact he.owner? (h.owned v hv)
    · exact howned v hv
  nodup := nodup_append_nextValues h.nodup (fun v hv => lt_size_of_owner? (h.owned v hv)) _

theorem begin {source : ModuleId} {m n : HwModule} {body : Body}
    (hsound : A.BodySound source m body) (hinputs : n.inputs = m.inputs) (b : Design) :
    A.Copying (b.beginBody id n) id body.arguments (b.nextValues n.inputs.length) := by
  have hempty : A.Copying b id [] [] :=
    ⟨.nil, fun v hv => absurd hv List.not_mem_nil, List.nodup_nil⟩
  have hlength : (n.inputs.map (·.type)).length = n.inputs.length := List.length_map _
  have harguments : List.Forall₂ (fun v type => A.typeOf? v = some type) body.arguments
      (n.inputs.map (·.type)) := by
    rw [hinputs, List.forall₂_map_right_iff, List.forall₂_iff_get]
    refine ⟨hsound.arguments_length, fun i hi hi' => ?_⟩
    have hvalue := hsound.argument i _ _ (List.getElem?_eq_getElem hi') (List.getElem?_eq_getElem hi)
    exact congrArg (Option.map _) hvalue
  rw [← hlength]
  refine hempty.append (enlarges_beginBody b id n) harguments rfl fun v hv => ?_
  exact owner?_beginBody b id n (hlength ▸ hv)

theorem sameTypes (h : A.Copying b id locals locals') {vs vs' : List ValueId} {positions : List Nat}
    (hvs : List.Forall₂ (fun v position => locals.idxOf? v = some position) vs positions)
    (hvs' : List.Forall₂ (fun position v' => locals'[position]? = some v') positions vs') :
    List.Forall₂ (A.SameType b) vs vs' := by
  refine forall₂_comp (fun v position v' hv hv' => ?_) hvs hvs'
  obtain ⟨found, hfound, hsame⟩ := h.value_at hv
  rw [hv'] at hfound
  exact Option.some.inj hfound ▸ hsame

/-- An operation on values of the original has a copy on values that stand for them. -/
theorem exists_operation (h : A.Copying b id locals locals') {original : Operation ModuleId ValueId}
    {copied : Operation String Nat}
    (hcopied : original.Corresponds (fun c symbol => A.symbolOf? c = some symbol)
      (fun v position => locals.idxOf? v = some position) copied)
    (hsupplies : ∀ c, original.callee? = some c → A.Supplies b c) (hfits : A.Fits original) :
    ∃ operation, Edit.Resolves b locals' copied operation ∧ b.Fits operation := by
  have hfind : ∀ symbol, copied.callee? = some symbol → ∃ c', b.find? symbol = some c' := by
    intro symbol hsymbol
    obtain ⟨c, hc, hnamed⟩ := hcopied.callee? hsymbol
    obtain ⟨callee, c', _, hcallee, hc', _⟩ := hsupplies c hc
    obtain ⟨m, hm, rfl⟩ := symbolOf?_eq_some_iff.mp hnamed
    rw [hcallee] at hm
    exact ⟨c', Option.some.inj hm ▸ hc'⟩
  have hoperand : ∀ position ∈ copied.operands, ∃ v', locals'[position]? = some v' := by
    intro position hposition
    obtain ⟨v, _, hv⟩ := exists_of_mem_right hcopied.operands hposition
    obtain ⟨v', hv', _⟩ := h.value_at hv
    exact ⟨v', hv'⟩
  obtain ⟨operation, hresolves⟩ := copied.exists_corresponds hfind hoperand
  refine ⟨operation, hresolves, ?_⟩
  cases hcopied with
  | instantiate name parameters named fed =>
      cases hresolves with
      | instantiate _ _ hfound fed' =>
          exact (hsupplies _ rfl).fits named hfound hfits (h.sameTypes fed fed')
  | _ => cases hresolves; trivial

theorem corresponds (h : A.Copying b id locals locals') {copied : Operation String Nat}
    {operation : Operation ModuleId ValueId} (hresolves : Edit.Resolves b locals' copied operation) :
    operation.Corresponds (fun c symbol => b.symbolOf? c = some symbol)
      (fun v position => locals'.idxOf? v = some position) copied :=
  hresolves.swap.mono (fun _ _ _ hfind => (find?_eq_some_iff.mp hfind).1)
    fun _ _ _ hv => h.idxOf?_eq hv

theorem operand_owned (h : A.Copying b id locals locals') {copied : Operation String Nat}
    {operation : Operation ModuleId ValueId} (hresolves : Edit.Resolves b locals' copied operation) :
    ∀ v ∈ operation.operands, b.owner? v = some id := by
  intro v hv
  obtain ⟨position, _, hposition⟩ := exists_of_mem_right hresolves.operands hv
  exact h.owned v (List.mem_of_getElem? hposition)

end Copying

/-! ### Copying operations -/

theorem Fits.enlarged {operation : Operation ModuleId ValueId} (h : d.Fits operation)
    (he : d.Enlarges d') : d'.Fits operation := by
  cases operation with
  | instantiate module name inputs parameters =>
      obtain ⟨hname, callee, hcallee, hports⟩ := h
      obtain ⟨callee', hcallee', heq⟩ := exists_module?_of_header? (he.header module) hcallee
      have hinputs : callee'.inputs = callee.inputs := congrArg (·.inputs) heq
      exact ⟨hname, callee', hcallee', hinputs ▸ hports.imp fun _ _ hv => he.typeOf? hv⟩
  | _ => trivial

end Design

namespace Edit

open Step Design

variable {b : Design} {id : ModuleId} {locals : List ValueId} {m : HwModule} {body : Body}
  {copied : ImageOp} {operation : Operation ModuleId ValueId}

/-- The first operation of an image is appended, and the copying goes on with its results. -/
theorem importOps_cons_apply (hm : b.module? id = some m) (hbody : m.body? = some body)
    (hunfinished : body.terminated = false)
    (hresolves : Resolves b locals copied.operation operation)
    (howned : ∀ v ∈ operation.operands, b.owner? v = some id) (hfits : b.Fits operation)
    (ops : List ImageOp) :
    (importOps id (copied :: ops) locals).apply b =
      (importOps id ops (locals ++ b.nextValues copied.resultTypes.length)).apply
        (b.append id body operation copied.resultTypes copied.attributes copied.location) := by
  have happ : b.Appends id operation
      (b.append id body operation copied.resultTypes copied.attributes copied.location) :=
    .intro hm hbody hunfinished howned _ _ _
  have hnext := b.op?_append_next id body operation copied.resultTypes copied.attributes
    copied.location
  have hverify := (verify_eq_ok_iff hnext).mpr ⟨fun v hv => ?_, hfits.enlarged happ.enlarges⟩
  · rw [importOps]
    simp only [apply_bind, traverse_apply, traverse_eq_ok_iff.mpr hresolves,
      appendOp_apply hm hbody hunfinished howned, apply_query, hverify, getOp_eq_ok_iff.mpr hnext]
  · obtain ⟨value, hvalue, _⟩ := Option.bind_eq_some_iff.mp (howned v hv)
    exact ⟨value.type, happ.enlarges.typeOf? (congrArg (Option.map _) hvalue)⟩

end Edit

end Wirework
