import Mathlib.Data.List.Nodup
import Wirework.Definition
import Wirework.Proofs.Design.Depiction
import Wirework.Proofs.Design.Typing

/-! # Sketches of bodies

A sketch tells what is in the body of a module without telling where in the tables of a design: modules are
referred to by the definitions they were made for, and values by their positions in the body, block arguments
first and then results in order.  Two bodies with one sketch may have been built in different sessions.

`d.Sketched made os locals ops last` says that `ops` is the sketch of the operations `os` of the design `d`, where
the values `locals` are known before the first of them and the values `last` after the last.  A sketch is a
matter of the operations alone (`Sketched.mono`), there is no other sketch of the same operations
(`Sketched.unique`), and the image of a body with a sketch shows what is sketched, with a symbol for each
definition (`Sketched.exists_depicts`). -/

namespace Wirework

/-- An operation in a sketch. -/
structure SketchOp where
  operation : Operation DefId Nat
  resultTypes : List HwType
  attributes : AttributeMap
  location : Location

/-- The image operation shows the sketched one, with symbols for definitions. -/
structure ImageOp.Shows (names : DefId → String → Prop) (shown : ImageOp) (op : SketchOp) : Prop where
  operation : shown.operation.Corresponds (Function.swap names) (· = ·) op.operation
  resultTypes : shown.resultTypes = op.resultTypes
  attributes : shown.attributes = op.attributes
  location : shown.location = op.location

/-! ### Positions -/

section positions

variable {locals : List ValueId} {v : ValueId} {p p' : Nat}

theorem position_unique (h : locals.Nodup) (hp : locals[p]? = some v) (hp' : locals[p']? = some v) :
    p = p' := by
  obtain ⟨hlt, hp⟩ := List.getElem?_eq_some_iff.mp hp
  obtain ⟨hlt', hp'⟩ := List.getElem?_eq_some_iff.mp hp'
  exact (List.Nodup.getElem_inj_iff h).mp (hp.trans hp'.symm)

theorem getElem?_of_idxOf? (h : locals.idxOf? v = some p) : locals[p]? = some v := by
  obtain ⟨hlt, rfl, _⟩ := List.idxOf?_eq_some_iff.mp h
  exact List.getElem?_eq_getElem hlt

end positions

namespace Design

/-! ### The values of a body -/

/-- The values belong to the body of the module, have the given types, and none of them is listed twice. -/
structure Locals (d : Design) (id : ModuleId) (types : List HwType) (locals : List ValueId) : Prop where
  typed : List.Forall₂ (fun type v => d.typeOf? v = some type) types locals
  owned : ∀ v ∈ locals, d.owner? v = some id
  nodup : locals.Nodup

namespace Locals

variable {d d' : Design} {id : ModuleId} {types : List HwType} {locals : List ValueId}

theorem retained (h : d.Locals id types locals) (hr : d.Retains d') : d'.Locals id types locals where
  typed := h.typed.imp fun _ _ => hr.typeOf?_eq
  owned v hv := hr.owner?_eq (h.owned v hv)
  nodup := h.nodup

theorem begin (d : Design) (id : ModuleId) (m : HwModule) :
    (d.beginBody id m).Locals id (m.inputs.map (·.type)) (d.nextValues m.inputs.length) where
  typed := by
    rw [← List.length_map (f := (·.type))]
    exact typeOf?_nextValues rfl
  owned _ hv := owner?_beginBody d id m hv
  nodup := d.nodup_nextValues _

/-- The results of one more operation. -/
theorem append (h : d.Locals id types locals) {operation : Operation ModuleId ValueId}
    {results : List HwType} (happ : d.Appends id operation d') (hvalues : d'.values = d.values ++
      results.mapIdx fun index type => Value.mk type (.result d.nextOp index)) :
    d'.Locals id (types ++ results) (locals ++ d.nextValues results.length) where
  typed := List.rel_append (h.retained happ.retains).typed (typeOf?_nextValues hvalues)
  owned v hv := by
    rcases List.mem_append.mp hv with hv | hv
    · exact (h.retained happ.retains).owned v hv
    · exact happ.result_owned hvalues v hv
  nodup := nodup_append_nextValues h.nodup (fun v hv => lt_size_of_owner? (h.owned v hv)) _

end Locals

/-! ### Sketches -/

variable {d d' : Design} {made made' : DefId → ModuleId → Prop}

/-- Operations and their sketch. -/
inductive Sketched (made : DefId → ModuleId → Prop) (d : Design) :
    List OpId → List ValueId → List SketchOp → List ValueId → Prop
  | nil (locals : List ValueId) : Sketched made d [] locals [] locals
  | cons {o : OpId} {op : Op} {os : List OpId} {locals last : List ValueId} {drawn : SketchOp}
      {ops : List SketchOp} (found : d.op? o = some op)
      (operation : op.operation.Corresponds (Function.swap made)
        (fun v position => locals[position]? = some v) drawn.operation)
      (types : List.Forall₂ (fun type v => d.typeOf? v = some type) drawn.resultTypes op.results)
      (attributes : op.attributes = drawn.attributes) (location : op.location = drawn.location)
      (rest : Sketched made d os (locals ++ op.results) ops last) :
      Sketched made d (o :: os) locals (drawn :: ops) last

namespace Sketched

variable {os os' : List OpId} {locals last last' : List ValueId} {ops ops' : List SketchOp}

theorem append (h : d.Sketched made os locals ops last) (h' : d.Sketched made os' last ops' last') :
    d.Sketched made (os ++ os') locals (ops ++ ops') last' := by
  induction h with
  | nil locals => exact h'
  | cons found operation types attributes location _ ih =>
      exact .cons found operation types attributes location (ih h')

theorem grows (h : d.Sketched made os locals ops last) : locals <+: last := by
  induction h with
  | nil locals => exact List.prefix_refl locals
  | cons _ _ _ _ _ _ ih => exact (List.prefix_append _ _).trans ih

/-- The sketch of operations that stay as they are, whatever is added to the tables. -/
theorem mono (h : d.Sketched made os locals ops last)
    (hop : ∀ o ∈ os, ∀ op, d.op? o = some op → d'.op? o = some op)
    (htype : ∀ v type, d.typeOf? v = some type → d'.typeOf? v = some type)
    (hmade : ∀ c id, made c id → made' c id) : d'.Sketched made' os locals ops last := by
  induction h with
  | nil locals => exact .nil locals
  | cons found operation types attributes location _ ih =>
      refine .cons (hop _ List.mem_cons_self _ found) ?_ (types.imp fun _ _ => htype _ _) attributes
        location (ih fun o ho => hop o (List.mem_cons_of_mem _ ho))
      exact operation.mono (fun id c _ => hmade c id) fun _ _ _ hv => hv

theorem nodup_locals (h : d.Sketched made os locals ops last) (hnodup : last.Nodup) : locals.Nodup :=
  hnodup.sublist h.grows.sublist

/-- There is only one sketch, since no value has two positions and no module was made for two definitions. -/
theorem unique (h : d.Sketched made os locals ops last) (h' : d.Sketched made os locals ops' last')
    (hnodup : last.Nodup) (hinj : ∀ c c' id, made c id → made c' id → c = c') : ops = ops' := by
  induction h generalizing ops' last' with
  | nil locals => cases h'; rfl
  | @cons o op os locals last drawn ops found operation types attributes location rest ih =>
      cases h' with
      | @cons _ op' _ _ _ drawn' ops' found' operation' types' attributes' location' rest' =>
          obtain rfl := Option.some.inj (found.symm.trans found')
          have hlocals : locals.Nodup :=
            (rest.nodup_locals hnodup).sublist (List.sublist_append_left _ _)
          have hoperation := operation.right_unique operation' (fun id c c' => hinj c c' id)
            fun v p p' hp hp' => position_unique hlocals hp hp'
          have htypes : List.Forall₂ (· = ·) drawn.resultTypes drawn'.resultTypes :=
            forall₂_comp (fun _ _ _ h h' => Option.some.inj (h.symm.trans h')) types types'.flip
          rw [List.forall₂_eq_eq_eq] at htypes
          have hdrawn : drawn = drawn' := by
            obtain ⟨_, _, _, _⟩ := drawn
            simp only at hoperation htypes attributes location
            rw [hoperation, htypes, ← attributes, ← location, attributes', location']
          rw [hdrawn, ih rest' hnodup]

theorem extend (h : d.Sketched made os locals ops last) {parent : ModuleId} {body : Body}
    {operation : Operation ModuleId ValueId} {drawn : SketchOp}
    (happ : d.Appends parent operation (d.append parent body operation drawn.resultTypes
      drawn.attributes drawn.location))
    (hoperation : operation.Corresponds (Function.swap made)
      (fun v position => last[position]? = some v) drawn.operation) :
    (d.append parent body operation drawn.resultTypes drawn.attributes drawn.location).Sketched made
      (os ++ [d.nextOp]) locals (ops ++ [drawn]) (last ++ d.nextValues drawn.resultTypes.length) := by
  have hnext := d.op?_append_next parent body operation drawn.resultTypes drawn.attributes drawn.location
  refine .append (h.mono (fun o _ op hop => happ.op?_old hop) (fun v type => happ.retains.typeOf?_eq)
    fun c id hc => hc) ?_
  exact .cons hnext hoperation (typeOf?_nextValues rfl) rfl rfl (.nil _)

/-! ### Images -/

/-- The image of what has been sketched shows the sketch, as far as the modules made have symbols. -/
theorem exists_depicts (h : d.Sketched made os locals ops last) (hnodup : last.Nodup)
    (hmade : ∀ c id, made c id → ∃ symbol, d.symbolOf? id = some symbol) :
    ∃ shown, d.Depicts os locals shown ∧ List.Forall₂ (ImageOp.Shows fun c symbol =>
      ∃ id, made c id ∧ d.symbolOf? id = some symbol) shown ops := by
  induction h with
  | nil locals => exact ⟨[], .nil locals, .nil⟩
  | @cons o op os locals last drawn ops found operation types attributes location rest ih =>
      obtain ⟨shown, hdepicts, hshows⟩ := ih hnodup
      have hlocals : locals.Nodup := (rest.nodup_locals hnodup).sublist (List.sublist_append_left _ _)
      have hcallee : ∀ id, op.operation.callee? = some id → ∃ symbol, d.symbolOf? id = some symbol := by
        intro id hid
        obtain ⟨c, _, hc⟩ := operation.swap.callee? hid
        exact hmade c id hc
      have hoperand : ∀ v ∈ op.operation.operands, ∃ position, locals.idxOf? v = some position := by
        intro v hv
        obtain ⟨position, _, hposition⟩ := exists_of_mem_right operation.operands.flip hv
        exact Option.isSome_iff_exists.mp (by simpa using List.mem_of_getElem? hposition)
      obtain ⟨operation', hoperation⟩ := op.operation.exists_corresponds hcallee hoperand
      refine ⟨⟨operation', drawn.resultTypes, op.attributes, op.location⟩ :: shown,
        .cons found hoperation types.flip rfl rfl hdepicts, .cons ⟨?_, rfl, attributes, location⟩ hshows⟩
      refine hoperation.swap.comp operation (fun symbol id c hsymbol hc => ⟨id, hc, hsymbol⟩) ?_
      intro position v position' hv hv'
      exact position_unique hlocals (getElem?_of_idxOf? hv) hv'

end Sketched

end Design

end Wirework
