import Wirework.Design.Printer
import Wirework.Design.Edit
import Wirework.Proofs.Sequences

/-! # The tables of a design

How the look-ups of a design answer after one of its tables has changed.  The lemmas speak of a design `d'` whose
table is a changed table of `d`, so that they serve whatever happened to the other tables.

* **Modules.**  A position that is erased answers nothing, and no other position is affected.  Looking a module up by
  its symbol finds the first live module of that symbol (`find?_eq_some_iff`), so it only depends on the symbols of
  live modules; in particular a module that is added under a symbol not found before is found under it
  (`find?_push_self`).
* **Operations and values.**  Both tables only grow; what an operation lists as results are the values that were added
  with it.
* **Reading.**  An operation passes the check of a design just if its operands exist and, in the case of an instance,
  they fit the ports of a live module (`Design.verify_eq_ok_iff`).  The results of an operation are read as signals of
  their recorded types (`Design.results_eq_ok_iff`). -/

namespace Wirework

/-! ## Changed tables -/

/-- The module is implemented elsewhere, or its body is finished. -/
def HwModule.IsSettled (m : HwModule) : Prop :=
  m.isExternal = true ∨ m.isComplete = true

namespace HwModule

/-- The module without its implementation: symbol, ports, attributes and location. -/
def header (m : HwModule) : HwModule :=
  { m with kind := .generated none }

theorem body?_eq_some_iff {m : HwModule} {body : Body} :
    m.body? = some body ↔ m.kind = .generated (some body) := by
  unfold body?
  cases m.kind with
  | generated b => simp
  | external p => simp

theorem isExternal_iff {m : HwModule} :
    m.isExternal = true ↔ ∃ parameters, m.kind = .external parameters := by
  unfold isExternal
  cases m.kind <;> simp

theorem body?_eq_none_of_isExternal {m : HwModule} (h : m.isExternal = true) : m.body? = none := by
  obtain ⟨parameters, hkind⟩ := isExternal_iff.mp h
  unfold body?
  rw [hkind]

theorem isComplete_iff {m : HwModule} :
    m.isComplete = true ↔ ∃ body, m.body? = some body ∧ body.terminated = true :=
  Option.any_eq_true _ _

end HwModule

theorem ModuleId.eq_of_index {a b : ModuleId} (h : a.index = b.index) : a = b :=
  congrArg ModuleId.mk h

theorem OpId.eq_of_index {a b : OpId} (h : a.index = b.index) : a = b :=
  congrArg OpId.mk h

theorem ValueId.eq_of_index {a b : ValueId} (h : a.index = b.index) : a = b :=
  congrArg ValueId.mk h

namespace Design

variable {d d' : Design}

/-! ### Live modules -/

/-- The module has been made and not been erased. -/
def IsLive (d : Design) (id : ModuleId) : Prop :=
  ∃ m, d.module? id = some m

theorem module?_eq_some_iff {id : ModuleId} {m : HwModule} :
    d.module? id = some m ↔ d.modules[id.index]? = some (some m) := by
  unfold module?
  rw [Option.join_eq_some_iff]

theorem lt_size_of_module? {id : ModuleId} {m : HwModule} (h : d.module? id = some m) :
    id.index < d.modules.size := by
  rw [module?_eq_some_iff] at h
  exact (Array.getElem?_eq_some_iff.mp h).1

theorem IsLive.lt_size {id : ModuleId} (h : d.IsLive id) : id.index < d.modules.size :=
  let ⟨_, hm⟩ := h
  lt_size_of_module? hm

theorem lt_size_of_op? {id : OpId} {op : Op} (h : d.op? id = some op) : id.index < d.ops.size :=
  (Array.getElem?_eq_some_iff.mp h).1

theorem module?_congr (h : d'.modules = d.modules) (id : ModuleId) : d'.module? id = d.module? id := by
  unfold module?
  rw [h]

/-- The position at which the next module is put. -/
def nextModule (d : Design) : ModuleId := ⟨d.modules.size⟩

theorem ne_nextModule {id : ModuleId} (h : id.index < d.modules.size) : id ≠ d.nextModule := by
  rintro rfl
  exact Nat.lt_irrefl _ h

theorem IsLive.ne_nextModule {id : ModuleId} (h : d.IsLive id) : id ≠ d.nextModule :=
  Design.ne_nextModule h.lt_size

theorem not_isLive_nextModule (d : Design) : ¬ d.IsLive d.nextModule :=
  fun h => h.ne_nextModule rfl

theorem module?_nextModule (d : Design) : d.module? d.nextModule = none :=
  Option.eq_none_iff_forall_ne_some.mpr fun m hm => d.not_isLive_nextModule ⟨m, hm⟩

theorem module?_push {slot : Option HwModule} (h : d'.modules = d.modules.push slot) (id : ModuleId) :
    d'.module? id = if id = d.nextModule then slot else d.module? id := by
  unfold module? nextModule
  rw [h, Array.getElem?_push]
  by_cases hid : id = ⟨d.modules.size⟩
  · rw [if_pos hid, if_pos (congrArg ModuleId.index hid)]
    rfl
  · rw [if_neg hid, if_neg fun he => hid (ModuleId.eq_of_index he)]

theorem module?_erase {id : ModuleId} (h : d'.modules = d.modules.setIfInBounds id.index none)
    (j : ModuleId) : d'.module? j = if j = id then none else d.module? j := by
  unfold module?
  rw [h]
  by_cases hj : j = id
  · subst hj
    rw [if_pos rfl, Array.getElem?_setIfInBounds_self]
    by_cases hb : j.index < d.modules.size
    · rw [if_pos hb]; rfl
    · rw [if_neg hb]; rfl
  · have hne : id.index ≠ j.index := fun he => hj (ModuleId.eq_of_index he.symm)
    rw [if_neg hj, Array.getElem?_setIfInBounds_ne hne]

theorem module?_modify {id : ModuleId} {f : Option HwModule → Option HwModule}
    (h : d'.modules = d.modules.modify id.index f) (hf : f none = none) (j : ModuleId) :
    d'.module? j = if j = id then f (d.module? id) else d.module? j := by
  unfold module?
  rw [h, Array.getElem?_modify]
  by_cases hj : j = id
  · subst hj
    rw [if_pos rfl, if_pos rfl]
    cases d.modules[j.index]? with
    | none => exact hf.symm
    | some slot => rfl
  · have hne : id.index ≠ j.index := fun he => hj (ModuleId.eq_of_index he.symm)
    rw [if_neg hj, if_neg hne]

/-! ### Lists of live modules -/

theorem mem_liveModules {id : ModuleId} {m : HwModule} :
    (id, m) ∈ d.liveModules ↔ d.module? id = some m := by
  unfold liveModules
  rw [List.mem_filterMap, module?_eq_some_iff]
  constructor
  · rintro ⟨⟨slot, index⟩, hmem, heq⟩
    rw [List.mk_mem_zipIdx_iff_getElem?, Array.getElem?_toList] at hmem
    obtain ⟨m', rfl, hm'⟩ := Option.map_eq_some_iff.mp heq
    obtain ⟨rfl, rfl⟩ := Prod.mk.inj hm'
    exact hmem
  · intro h
    refine ⟨(some m, id.index), ?_, rfl⟩
    rw [List.mk_mem_zipIdx_iff_getElem?, Array.getElem?_toList]
    exact h

theorem liveModules_sorted (d : Design) :
    d.liveModules.Pairwise fun a b => a.1.index < b.1.index := by
  unfold liveModules
  rw [List.pairwise_filterMap]
  have hidx : (d.modules.toList.zipIdx.map (·.2)).Pairwise (· < ·) := by
    rw [List.zipIdx_map_snd]
    exact List.pairwise_lt_range'
  refine (List.pairwise_map.mp hidx).imp ?_
  rintro ⟨_, i⟩ ⟨_, j⟩ hlt a ha b hb
  obtain ⟨_, _, rfl⟩ := Option.map_eq_some_iff.mp ha
  obtain ⟨_, _, rfl⟩ := Option.map_eq_some_iff.mp hb
  exact hlt

theorem liveModules_congr (h : ∀ id, d'.module? id = d.module? id) : d'.liveModules = d.liveModules := by
  have hnodup : ∀ d : Design, d.liveModules.Nodup := by
    refine fun d => d.liveModules_sorted.imp ?_
    rintro a _ hlt rfl
    exact Nat.lt_irrefl _ hlt
  have hmem : ∀ entry, entry ∈ d'.liveModules ↔ entry ∈ d.liveModules := by
    rintro ⟨id, m⟩
    rw [mem_liveModules, mem_liveModules, h id]
  have hperm := (List.perm_ext_iff_of_nodup (hnodup d') (hnodup d)).mpr hmem
  exact hperm.eq_of_pairwise (fun _ _ _ _ hab hba => absurd (Nat.lt_trans hab hba) (Nat.lt_irrefl _))
    d'.liveModules_sorted d.liveModules_sorted

/-! ### Looking modules up by symbol -/

theorem find?_eq_some {symbol : String} {id : ModuleId} (h : d.find? symbol = some id) :
    ∃ m, d.module? id = some m ∧ m.symbol = symbol := by
  unfold find? at h
  obtain ⟨⟨_, m⟩, hm, rfl⟩ := Option.map_eq_some_iff.mp h
  refine ⟨m, mem_liveModules.mp (List.mem_of_find?_eq_some hm), ?_⟩
  simpa using List.find?_some hm

theorem find?_eq_none {symbol : String} :
    d.find? symbol = none ↔ ∀ id m, d.module? id = some m → m.symbol ≠ symbol := by
  unfold find?
  rw [Option.map_eq_none_iff, List.find?_eq_none]
  constructor
  · intro h id m hm
    simpa using h (id, m) (mem_liveModules.mpr hm)
  · rintro h ⟨id, m⟩ hmem
    simpa using h id m (mem_liveModules.mp hmem)

/-- The symbol of a live module. -/
def symbolOf? (d : Design) (id : ModuleId) : Option String :=
  (d.module? id).map (·.symbol)

theorem symbolOf?_eq_some_iff {id : ModuleId} {symbol : String} :
    d.symbolOf? id = some symbol ↔ ∃ m, d.module? id = some m ∧ m.symbol = symbol :=
  Option.map_eq_some_iff

theorem symbolOf?_congr {id : ModuleId} (h : d'.module? id = d.module? id) :
    d'.symbolOf? id = d.symbolOf? id :=
  congrArg (Option.map _) h

/-- The first live module of a symbol is the one that is found. -/
theorem find?_eq_some_iff {symbol : String} {id : ModuleId} :
    d.find? symbol = some id ↔
      d.symbolOf? id = some symbol ∧ ∀ j, j.index < id.index → d.symbolOf? j ≠ some symbol := by
  have hfirst : ∀ i, d.find? symbol = some i →
      d.symbolOf? i = some symbol ∧ ∀ j, j.index < i.index → d.symbolOf? j ≠ some symbol := by
    intro i h
    refine ⟨symbolOf?_eq_some_iff.mpr (find?_eq_some h), fun j hj hsymbol => ?_⟩
    obtain ⟨⟨_, m⟩, hfind, rfl⟩ := Option.map_eq_some_iff.mp h
    obtain ⟨_, before, after, hlist, hbefore⟩ := List.find?_eq_some_iff_append.mp hfind
    obtain ⟨mj, hmj, hsj⟩ := symbolOf?_eq_some_iff.mp hsymbol
    have hmem := mem_liveModules.mpr hmj
    have hsorted := d.liveModules_sorted
    rw [hlist] at hmem hsorted
    rcases List.mem_append.mp hmem with hmem | hmem
    · simpa [hsj] using hbefore _ hmem
    · rcases List.mem_cons.mp hmem with heq | hmem
      · obtain ⟨rfl, -⟩ := Prod.mk.inj heq
        exact Nat.lt_irrefl _ hj
      · have hlt := (List.pairwise_cons.mp (List.pairwise_append.mp hsorted).2.1).1 _ hmem
        exact Nat.lt_asymm hj hlt
  refine ⟨hfirst id, fun ⟨hid, hleast⟩ => ?_⟩
  cases hfind : d.find? symbol with
  | none =>
      obtain ⟨m, hm, hsymbol⟩ := symbolOf?_eq_some_iff.mp hid
      exact absurd hsymbol (find?_eq_none.mp hfind id m hm)
  | some i =>
      obtain ⟨hi, hleast'⟩ := hfirst i hfind
      have hle : ¬ i.index < id.index := fun hlt => hleast i hlt hi
      have hge : ¬ id.index < i.index := fun hlt => hleast' id hlt hid
      exact congrArg some (ModuleId.eq_of_index (by omega))

theorem find?_push {symbol : String} {id : ModuleId} {slot : Option HwModule}
    (h : d'.modules = d.modules.push slot) (hid : d.find? symbol = some id) :
    d'.find? symbol = some id := by
  rw [find?_eq_some_iff] at hid ⊢
  obtain ⟨hsymbol, hleast⟩ := hid
  obtain ⟨m, hm, _⟩ := symbolOf?_eq_some_iff.mp hsymbol
  have hold : ∀ j, j.index ≤ id.index → d'.symbolOf? j = d.symbolOf? j := by
    intro j hj
    have hne : j ≠ d.nextModule := ne_nextModule (Nat.lt_of_le_of_lt hj (lt_size_of_module? hm))
    exact symbolOf?_congr (by rw [module?_push h, if_neg hne])
  exact ⟨(hold id (Nat.le_refl _)).trans hsymbol,
    fun j hj => hold j (Nat.le_of_lt hj) ▸ hleast j hj⟩

theorem find?_push_ne {symbol : String} {m : HwModule} (h : d'.modules = d.modules.push (some m))
    (hm : m.symbol ≠ symbol) : d'.find? symbol = d.find? symbol := by
  cases hfind : d.find? symbol with
  | some id => exact find?_push h hfind
  | none =>
      refine find?_eq_none.mpr fun id n hn => ?_
      rw [module?_push h] at hn
      by_cases hid : id = d.nextModule
      · rw [if_pos hid] at hn
        exact Option.some.inj hn ▸ hm
      · rw [if_neg hid] at hn
        exact find?_eq_none.mp hfind id n hn

/-- A module that is added under a free symbol is found by it. -/
theorem find?_push_self {m : HwModule} (h : d'.modules = d.modules.push (some m))
    (fresh : d.find? m.symbol = none) : d'.find? m.symbol = some d.nextModule := by
  have hnew : d'.module? d.nextModule = some m := (module?_push h d.nextModule).trans (if_pos rfl)
  refine find?_eq_some_iff.mpr ⟨symbolOf?_eq_some_iff.mpr ⟨m, hnew, rfl⟩, fun j hj hsymbol => ?_⟩
  obtain ⟨n, hn, hsymbol⟩ := symbolOf?_eq_some_iff.mp hsymbol
  rw [module?_push h, if_neg (ne_nextModule hj)] at hn
  exact find?_eq_none.mp fresh j n hn hsymbol

/-! ### Headers -/

/-- The header of a live module. -/
def header? (d : Design) (id : ModuleId) : Option HwModule :=
  (d.module? id).map (·.header)

theorem header?_eq_some_iff {id : ModuleId} {h : HwModule} :
    d.header? id = some h ↔ ∃ m, d.module? id = some m ∧ m.header = h :=
  Option.map_eq_some_iff

theorem header?_congr {id : ModuleId} (h : d'.module? id = d.module? id) :
    d'.header? id = d.header? id :=
  congrArg (Option.map _) h

theorem exists_module?_of_header? {id : ModuleId} {m : HwModule} (h : d'.header? id = d.header? id)
    (hm : d.module? id = some m) : ∃ m', d'.module? id = some m' ∧ m'.header = m.header :=
  header?_eq_some_iff.mp (h.trans (header?_eq_some_iff.mpr ⟨m, hm, rfl⟩))

theorem symbolOf?_of_header? {id : ModuleId} (h : d'.header? id = d.header? id) :
    d'.symbolOf? id = d.symbolOf? id := by
  have hsymbol : ∀ d : Design, d.symbolOf? id = (d.header? id).map (·.symbol) := by
    intro d
    unfold symbolOf? header?
    rw [Option.map_map]
    rfl
  rw [hsymbol, hsymbol, h]

theorem find?_of_header? (h : ∀ id, d'.header? id = d.header? id) (symbol : String) :
    d'.find? symbol = d.find? symbol := by
  ext id
  rw [find?_eq_some_iff, find?_eq_some_iff]
  simp only [symbolOf?_of_header? (h _)]

/-! ### Operations -/

/-- The position at which the next operation is put. -/
def nextOp (d : Design) : OpId := ⟨d.ops.size⟩

theorem ne_nextOp {o : OpId} {op : Op} (h : d.op? o = some op) : o ≠ d.nextOp := by
  rintro rfl
  exact Nat.lt_irrefl _ (lt_size_of_op? h)

theorem op?_push {op : Op} (h : d'.ops = d.ops.push op) (id : OpId) :
    d'.op? id = if id = ⟨d.ops.size⟩ then some op else d.op? id := by
  unfold op?
  rw [h, Array.getElem?_push]
  by_cases hid : id = ⟨d.ops.size⟩
  · rw [if_pos hid, if_pos (congrArg OpId.index hid)]
  · rw [if_neg hid, if_neg fun he => hid (OpId.eq_of_index he)]

theorem op?_set {id : OpId} {op : Op} (h : d'.ops = d.ops.setIfInBounds id.index op)
    (hid : id.index < d.ops.size) (o : OpId) :
    d'.op? o = if o = id then some op else d.op? o := by
  unfold op?
  rw [h]
  by_cases ho : o = id
  · subst ho
    rw [if_pos rfl, Array.getElem?_setIfInBounds_self_of_lt hid]
  · have hne : id.index ≠ o.index := fun he => ho (OpId.eq_of_index he.symm)
    rw [if_neg ho, Array.getElem?_setIfInBounds_ne hne]

/-! ### Values -/

theorem lt_size_of_value? {v : ValueId} {value : Value} (h : d.value? v = some value) :
    v.index < d.values.size :=
  (Array.getElem?_eq_some_iff.mp h).1

theorem value?_newValues {types : List HwType} {source : Nat → ValueSource}
    (h : d'.values = d.values ++ types.mapIdx fun index type => Value.mk type (source index))
    (v : ValueId) : d'.value? v = if v.index < d.values.size then d.value? v else
      (types[v.index - d.values.size]?).map fun type =>
        ⟨type, source (v.index - d.values.size)⟩ := by
  unfold value?
  rw [h, ← Array.getElem?_toList, Array.toList_appendList, List.getElem?_append, Array.length_toList,
    Array.getElem?_toList, List.getElem?_mapIdx]

theorem value?_of_newValues {types : List HwType} {source : Nat → ValueSource}
    (h : d'.values = d.values ++ types.mapIdx fun index type => Value.mk type (source index))
    {v : ValueId} {value : Value} (hv : d.value? v = some value) : d'.value? v = some value := by
  rw [value?_newValues h, if_pos (lt_size_of_value? hv), hv]

/-- Positions of the next values. -/
def nextValues (d : Design) (count : Nat) : List ValueId :=
  (List.range count).map fun index => ⟨d.values.size + index⟩

theorem getElem?_nextValues {d : Design} {count i : Nat} {v : ValueId} :
    (d.nextValues count)[i]? = some v ↔ i < count ∧ v = ⟨d.values.size + i⟩ := by
  unfold nextValues
  rw [List.getElem?_map, Option.map_eq_some_iff]
  constructor
  · rintro ⟨j, hj, rfl⟩
    obtain ⟨hlt, rfl⟩ := List.getElem?_eq_some_iff.mp hj
    rw [List.length_range] at hlt
    exact ⟨hlt, by rw [List.getElem_range]⟩
  · rintro ⟨hlt, rfl⟩
    exact ⟨i, List.getElem?_range hlt, rfl⟩

theorem length_nextValues (d : Design) (count : Nat) : (d.nextValues count).length = count := by
  unfold nextValues
  rw [List.length_map, List.length_range]

theorem mem_nextValues {d : Design} {count : Nat} {v : ValueId} :
    v ∈ d.nextValues count ↔ ∃ i < count, v = ⟨d.values.size + i⟩ := by
  rw [List.mem_iff_getElem?]
  exact exists_congr fun _ => getElem?_nextValues

theorem nodup_nextValues (d : Design) (count : Nat) : (d.nextValues count).Nodup := by
  unfold nextValues
  refine List.pairwise_map.mpr (List.nodup_range.imp fun hne heq => hne ?_)
  exact Nat.add_left_cancel (congrArg ValueId.index heq)

theorem nodup_append_nextValues {locals : List ValueId} (h : locals.Nodup)
    (hlt : ∀ v ∈ locals, v.index < d.values.size) (count : Nat) :
    (locals ++ d.nextValues count).Nodup := by
  refine List.nodup_append.mpr ⟨h, d.nodup_nextValues count, ?_⟩
  rintro v hv w hw rfl
  obtain ⟨i, _, rfl⟩ := mem_nextValues.mp hw
  exact Nat.not_lt_of_le (Nat.le_add_right _ _) (hlt _ hv)

/-! ### Callees -/

theorem mem_callees {m : HwModule} {c : ModuleId} :
    c ∈ d.callees m ↔ ∃ body o op, m.body? = some body ∧ o ∈ body.ops ∧ d.op? o = some op ∧
      op.operation.callee? = some c := by
  unfold callees
  cases hbody : m.body? with
  | none => simp
  | some body =>
      rw [List.mem_filterMap]
      constructor
      · rintro ⟨o, ho, hc⟩
        obtain ⟨op, hop, hcallee⟩ := Option.bind_eq_some_iff.mp hc
        exact ⟨body, o, op, rfl, Array.mem_toList_iff.mp ho, hop, hcallee⟩
      · rintro ⟨body', o, op, hbody', ho, hop, hcallee⟩
        obtain rfl := Option.some.inj hbody'
        exact ⟨o, Array.mem_toList_iff.mpr ho, Option.bind_eq_some_iff.mpr ⟨op, hop, hcallee⟩⟩

theorem callees_of_body? {m : HwModule} (h : ∀ body, m.body? = some body → body.ops = #[])
    (d : Design) : d.callees m = [] := by
  rw [List.eq_nil_iff_forall_not_mem]
  intro c hc
  obtain ⟨body, o, _, hbody, ho, _⟩ := mem_callees.mp hc
  rw [h body hbody] at ho
  exact Array.not_mem_empty o ho

end Design

/-! ## Reading a design -/

namespace Design

variable {d d' : Design}

/-! ### Look-ups -/

theorem getModule_eq_ok_iff {id : ModuleId} {m : HwModule} :
    d.getModule id = .ok m ↔ d.module? id = some m := by
  unfold getModule
  cases d.module? id <;> simp

theorem getOp_eq_ok_iff {o : OpId} {op : Op} : d.getOp o = .ok op ↔ d.op? o = some op := by
  unfold getOp
  cases d.op? o <;> simp

theorem getValue_eq_ok_iff {v : ValueId} {value : Value} :
    d.getValue v = .ok value ↔ d.value? v = some value := by
  unfold getValue
  cases d.value? v <;> simp

theorem typeOf?_eq_some_iff {v : ValueId} {type : HwType} :
    d.typeOf? v = some type ↔ ∃ value, d.value? v = some value ∧ value.type = type :=
  Option.map_eq_some_iff

theorem exists_typeOf?_of_owner? {v : ValueId} {id : ModuleId} (h : d.owner? v = some id) :
    ∃ type, d.typeOf? v = some type := by
  obtain ⟨value, hvalue, _⟩ := Option.bind_eq_some_iff.mp h
  exact ⟨value.type, typeOf?_eq_some_iff.mpr ⟨value, hvalue, rfl⟩⟩

theorem lt_size_of_owner? {v : ValueId} {id : ModuleId} (h : d.owner? v = some id) :
    v.index < d.values.size := by
  obtain ⟨value, hvalue, _⟩ := Option.bind_eq_some_iff.mp h
  exact lt_size_of_value? hvalue

theorem typeOf?_nextValues {types : List HwType} {source : Nat → ValueSource}
    (h : d'.values = d.values ++ types.mapIdx fun index type => Value.mk type (source index)) :
    List.Forall₂ (fun type v => d'.typeOf? v = some type) types (d.nextValues types.length) := by
  refine List.forall₂_iff_get.mpr ⟨(d.length_nextValues _).symm, fun i hi hi' => ?_⟩
  obtain ⟨_, hget⟩ := getElem?_nextValues.mp (List.getElem?_eq_getElem hi')
  rw [List.get_eq_getElem, List.get_eq_getElem, hget]
  unfold typeOf?
  rw [value?_newValues h, if_neg (by simp only; omega), Nat.add_sub_cancel_left,
    List.getElem?_eq_getElem hi]
  rfl

/-! ### Results -/

/-- The results of the operation have the given types. -/
def Yields (d : Design) (o : OpId) (types : List HwType) : Prop :=
  ∃ op, d.op? o = some op ∧
    List.Forall₂ (fun type v => d.typeOf? v = some type) types op.results

theorem Yields.unique {o : OpId} {types types' : List HwType} (h : d.Yields o types) (h' : d.Yields o types') :
    types = types' := by
  obtain ⟨op, hop, hresults⟩ := h
  obtain ⟨op', hop', hresults'⟩ := h'
  obtain rfl := Option.some.inj (hop.symm.trans hop')
  have hunique : Relator.LeftUnique fun (type : HwType) v => d.typeOf? v = some type :=
    fun _ _ _ ha hb => Option.some.inj (ha.symm.trans hb)
  exact List.left_unique_forall₂' hunique hresults hresults'

theorem signal_eq_ok_iff {v : ValueId} {s : Signal} :
    d.signal v = .ok s ↔ d.typeOf? v = some s.type ∧ v = s.value := by
  unfold signal
  simp only [bind_eq_ok_iff, pure_eq_ok_iff, getValue_eq_ok_iff, typeOf?_eq_some_iff]
  constructor
  · rintro ⟨value, hvalue, rfl⟩
    exact ⟨⟨value, hvalue, rfl⟩, rfl⟩
  · rintro ⟨⟨value, hvalue, htype⟩, rfl⟩
    exact ⟨value, hvalue, by rw [htype]⟩

theorem results_eq_ok_iff {o : OpId} {signals : List Signal} :
    d.results o = .ok signals ↔ ∃ op, d.op? o = some op ∧
      List.Forall₂ (fun v s => d.typeOf? v = some s.type ∧ v = s.value) op.results signals := by
  unfold results
  simp only [bind_eq_ok_iff, getOp_eq_ok_iff, mapM_eq_ok_iff, signal_eq_ok_iff]

/-- The next values as signals of the given types. -/
def nextSignals (d : Design) (types : List HwType) : List Signal :=
  List.zipWith Signal.mk (d.nextValues types.length) types

/-! ### The check of an operation -/

/-- An instance has a valid name, its module is live, and its inputs have the types of the ports. -/
def Fits (d : Design) : Operation ModuleId ValueId → Prop
  | .instantiate module name inputs _ =>
    Name.isValid name = true ∧ ∃ callee, d.module? module = some callee ∧
      List.Forall₂ (fun port v => d.typeOf? v = some port.type) callee.inputs inputs
  | _ => True

theorem verifyInput_eq_ok_iff {name : String} {callee : HwModule} {port : Port} {v : ValueId} :
    d.verifyInput name callee port v = .ok ⟨⟩ ↔ d.typeOf? v = some port.type := by
  unfold verifyInput
  rw [bind_eq_ok_iff, typeOf?_eq_some_iff]
  refine exists_congr fun value => and_congr getValue_eq_ok_iff ?_
  by_cases h : value.type = port.type
  · simp [h, pure, Except.pure]
  · simp [h, throw, throwThe, MonadExceptOf.throw]

theorem verifyInstance_eq_ok_iff {module : ModuleId} {name : String} {inputs : List ValueId}
    {parameters : AttributeMap} :
    d.verifyInstance module name inputs = .ok ⟨⟩ ↔
      d.Fits (.instantiate module name inputs parameters) := by
  unfold verifyInstance Fits
  by_cases hname : Name.isValid name = true
  case neg => simp [hname, throw, throwThe, MonadExceptOf.throw, bind, Except.bind]
  simp only [hname, if_true, true_and, bind_eq_ok_iff, getModule_eq_ok_iff]
  refine exists_congr fun callee => and_congr_right fun _ => ?_
  rw [List.forall₂_iff_zip]
  by_cases hlength : callee.inputs.length = inputs.length
  · simp only [hlength, if_true, forM_eq_ok_iff, verifyInput_eq_ok_iff, true_and]
    exact ⟨fun h a b hab => h (a, b) hab, fun h x hx => h hx⟩
  · simp [hlength, throw, throwThe, MonadExceptOf.throw, bind, Except.bind]

theorem verify_eq_ok_iff {o : OpId} {op : Op} (hop : d.op? o = some op) :
    d.verify o = .ok ⟨⟩ ↔
      (∀ v ∈ op.operation.operands, ∃ type, d.typeOf? v = some type) ∧ d.Fits op.operation := by
  have hoperand : ∀ v, (discard (d.getValue v) : Except IrError Unit) = .ok ⟨⟩ ↔
      ∃ type, d.typeOf? v = some type := by
    intro v
    unfold getValue typeOf?
    cases d.value? v with
    | none => simp [discard, Functor.discard, Functor.mapConst, Except.map]
    | some value => simp [discard, Functor.discard, Functor.mapConst, Except.map]
  have hfits : (match op.operation with
      | .instantiate module name inputs _ => d.verifyInstance module name inputs
      | _ => return ()) = Except.ok ⟨⟩ ↔ d.Fits op.operation := by
    cases op.operation with
    | instantiate module name inputs parameters => exact verifyInstance_eq_ok_iff
    | _ => exact ⟨fun _ => trivial, fun _ => rfl⟩
  unfold verify
  simp only [bind_eq_ok_iff, getOp_eq_ok_iff, hop, Option.some.injEq, exists_eq_left']
  constructor
  · rintro ⟨⟨⟩, hall, hmatch⟩
    exact ⟨fun v hv => (hoperand v).mp (forM_eq_ok_iff.mp hall v hv), hfits.mp hmatch⟩
  · rintro ⟨hall, hmatch⟩
    exact ⟨⟨⟩, forM_eq_ok_iff.mpr fun v hv => (hoperand v).mpr (hall v hv), hfits.mpr hmatch⟩

end Design

end Wirework
