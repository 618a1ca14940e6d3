import Wirework.Design.Printer
import Wirework.Proofs.Design.Structure
import Wirework.Proofs.Names

/-! # Names of values

Within the text of a module a block argument has the name of its port and a result the number of its place in the
value table.  Both stand behind the sign of a value and nothing tells them apart, so the names of values are apart
just if the input ports have different names and none of them is spelled like the number of a result in the body
(`Design.Linked.namesValues`).

Numbers are apart from each other since a number is read back from its digits (`toString_index_injective`).  Arguments
are apart from each other just if ports are (`BodySound.ports_nodup_iff`), and an argument from a result just if the
name of its port is not that number (`Linked.arguments_unlike_iff`).  No valid name is spelled like a number
(`Name.ne_toString_of_isValid`). -/

namespace Wirework

namespace Name

theorem isInitial_eq_false_of_isDigit {c : Char} (h : isDigit c = true) : isInitial c = false := by
  unfold isDigit at h
  rw [Bool.and_eq_true, decide_eq_true_eq, decide_eq_true_eq] at h
  have hbefore : ∀ x : Char, '9' < x → ¬ x ≤ c := fun x hx hxc =>
    Char.not_lt.mpr (Char.le_trans hxc h.2) hx
  have hunderscore : c ≠ '_' := fun hc => hbefore '_' (by decide) (hc ▸ Char.le_refl c)
  unfold isInitial isLetter
  rw [decide_eq_false (hbefore 'a' (by decide)), decide_eq_false (hbefore 'A' (by decide)),
    beq_false_of_ne hunderscore]
  rfl

theorem isDigit_of_toString {n : Nat} {c : Char} {rest : List Char} (h : (toString n).toList = c :: rest) :
    isDigit c = true := by
  have hc : c ∈ (toString n).toList := h ▸ List.mem_cons_self
  rw [Nat.toString_eq_repr, Nat.toList_repr] at hc
  exact isDigit_of_isDigit (Nat.isDigit_of_mem_toDigits (by omega) (by omega) hc)

theorem ne_toString_of_isValid {name : String} (h : isValid name = true) (n : Nat) : name ≠ toString n := by
  rintro rfl
  unfold isValid at h
  cases hchars : (toString n).toList with
  | nil =>
      rw [hchars] at h
      cases h
  | cons c rest =>
      rw [hchars, Bool.and_eq_true] at h
      have hinitial := isInitial_eq_false_of_isDigit (isDigit_of_toString hchars)
      exact Bool.false_ne_true (hinitial.symm.trans h.1)

theorem ne_toString_of_isPrivate {name : String} (h : isPrivate name = true) (n : Nat) : name ≠ toString n := by
  rintro rfl
  unfold isPrivate at h
  cases hchars : (toString n).toList with
  | nil =>
      rw [hchars] at h
      cases h
  | cons c rest =>
      rw [hchars] at h
      obtain rfl := beq_iff_eq.mp h
      exact absurd (isDigit_of_toString hchars) (by decide)

end Name

namespace Design

variable {d : Design} {id : ModuleId} {m : HwModule} {body : Body}

/-! ### Values of a body -/

/-- The results of the operations in a body, in order. -/
def bodyResults (d : Design) (body : Body) : List ValueId :=
  (body.ops.toList.filterMap d.op?).flatMap (·.results)

/-- The values that a body defines: its block arguments and the results of its operations. -/
def bodyValues (d : Design) (body : Body) : List ValueId :=
  body.arguments ++ d.bodyResults body

theorem mem_bodyResults_iff {v : ValueId} :
    v ∈ d.bodyResults body ↔ ∃ o ∈ body.ops, ∃ op, d.op? o = some op ∧ v ∈ op.results := by
  unfold bodyResults
  simp only [List.mem_flatMap, List.mem_filterMap, Array.mem_toList_iff]
  constructor
  · rintro ⟨op, ⟨o, ho, hop⟩, hv⟩
    exact ⟨o, ho, op, hop, hv⟩
  · rintro ⟨o, ho, op, hop, hv⟩
    exact ⟨op, ⟨o, ho, hop⟩, hv⟩

theorem mem_bodyValues_of_definedBefore {k : Nat} {v : ValueId} (h : d.DefinedBefore body k v) :
    v ∈ d.bodyValues body := by
  rcases h with h | ⟨j, _, o, op, ho, hop, hv⟩
  · exact List.mem_append_left _ h
  · exact List.mem_append_right _ (mem_bodyResults_iff.mpr ⟨o, Array.mem_of_getElem? ho, op, hop, hv⟩)

/-- Different values of the body have different names in the text of the module. -/
def NamesApart (d : Design) (m : HwModule) (body : Body) : Prop :=
  ∀ v ∈ d.bodyValues body, ∀ w ∈ d.bodyValues body, d.valueName m v = d.valueName m w → v = w

/-- What the text of a module calls the values of its body. -/
structure NamesValues (d : Design) (m : HwModule) (body : Body) : Prop where
  /-- The list of ports names the block arguments. -/
  ports : body.arguments.map (d.valueName m) = m.inputs.map fun port => "%" ++ port.name
  /-- Results are numbered. -/
  results : ∀ v ∈ d.bodyResults body, d.valueName m v = "%" ++ toString v.index
  /-- Operations use no other values. -/
  operands : ∀ o ∈ body.ops, ∀ op, d.op? o = some op → ∀ v ∈ op.operation.operands, v ∈ d.bodyValues body
  /-- Two values have one name just if two ports have one name, or a port is called like the number of a result. -/
  apart : d.NamesApart m body ↔ (m.inputs.map (·.name)).Nodup ∧
    ∀ port ∈ m.inputs, ∀ v ∈ d.bodyResults body, port.name ≠ toString v.index

/-! ### Names of values -/

theorem valueName_of_argument {v : ValueId} {type : HwType} {i : Nat} {port : Port}
    (hv : d.value? v = some ⟨type, .argument id i⟩) (hport : m.inputs[i]? = some port) :
    d.valueName m v = "%" ++ port.name := by
  unfold valueName
  simp only [hv, hport]

theorem valueName_of_result {v : ValueId} {type : HwType} {o : OpId} {i : Nat}
    (hv : d.value? v = some ⟨type, .result o i⟩) : d.valueName m v = "%" ++ toString v.index := by
  unfold valueName
  simp only [hv]

theorem BodySound.exists_argument (h : d.BodySound id m body) {i : Nat} {port : Port}
    (hport : m.inputs[i]? = some port) :
    ∃ v, body.arguments[i]? = some v ∧ d.value? v = some ⟨port.type, .argument id i⟩ := by
  have hlt : i < body.arguments.length := by
    rw [h.arguments_length]
    exact (List.getElem?_eq_some_iff.mp hport).1
  have hv := List.getElem?_eq_getElem hlt
  exact ⟨_, hv, h.argument i port _ hport hv⟩

theorem BodySound.exists_port (h : d.BodySound id m body) {i : Nat} {v : ValueId}
    (hv : body.arguments[i]? = some v) :
    ∃ port, m.inputs[i]? = some port ∧ d.value? v = some ⟨port.type, .argument id i⟩ := by
  have hlt : i < m.inputs.length := by
    rw [← h.arguments_length]
    exact (List.getElem?_eq_some_iff.mp hv).1
  have hport := List.getElem?_eq_getElem hlt
  exact ⟨_, hport, h.argument i _ v hport hv⟩

theorem BodySound.arguments_nodup (h : d.BodySound id m body) : body.arguments.Nodup := by
  rw [List.nodup_iff_getElem?_ne_getElem?]
  intro i j hij hj hsame
  have hv := List.getElem?_eq_getElem hj
  obtain ⟨_, _, hj'⟩ := h.exists_port hv
  obtain ⟨_, _, hi'⟩ := h.exists_port (hsame.trans hv)
  injection Option.some.inj (hi'.symm.trans hj') with _ hsource
  injection hsource with _ hplace
  exact absurd hplace (Nat.ne_of_lt hij)

theorem BodySound.map_valueName (h : d.BodySound id m body) :
    body.arguments.map (d.valueName m) = m.inputs.map fun port => "%" ++ port.name := by
  refine List.ext_getElem? fun i => ?_
  rw [List.getElem?_map, List.getElem?_map]
  cases hport : m.inputs[i]? with
  | none =>
      rw [List.getElem?_eq_none_iff, ← h.arguments_length, ← List.getElem?_eq_none_iff] at hport
      rw [hport]
      rfl
  | some port =>
      obtain ⟨v, hv, hvalue⟩ := h.exists_argument hport
      rw [hv, Option.map_some, Option.map_some, valueName_of_argument hvalue hport]

theorem Linked.source_of_mem_bodyResults (h : d.Linked) {v : ValueId} (hv : v ∈ d.bodyResults body) :
    ∃ type o i, d.value? v = some ⟨type, .result o i⟩ := by
  obtain ⟨o, _, op, hop, hmem⟩ := mem_bodyResults_iff.mp hv
  obtain ⟨i, hi⟩ := List.mem_iff_getElem?.mp hmem
  obtain ⟨type, hvalue⟩ := h.result_defined o op i v hop hi
  exact ⟨type, o, i, hvalue⟩

theorem Linked.valueName_result (h : d.Linked) {v : ValueId} (hv : v ∈ d.bodyResults body) :
    d.valueName m v = "%" ++ toString v.index := by
  obtain ⟨type, o, i, hvalue⟩ := h.source_of_mem_bodyResults hv
  exact valueName_of_result hvalue

/-! ### When names are apart -/

theorem percent_injective {a b : String} (h : "%" ++ a = "%" ++ b) : a = b :=
  (String.append_right_inj "%").mp h

theorem toString_index_injective {v w : ValueId} (h : toString v.index = toString w.index) : v = w :=
  ValueId.eq_of_index (repr_injective h)

theorem BodySound.ports_nodup_iff (h : d.BodySound id m body) :
    (m.inputs.map (·.name)).Nodup ↔
      ∀ v ∈ body.arguments, ∀ w ∈ body.arguments, d.valueName m v = d.valueName m w → v = w := by
  have hnames : m.inputs.map (fun port => "%" ++ port.name) = (m.inputs.map (·.name)).map ("%" ++ ·) :=
    List.map_map.symm
  rw [← List.nodup_map_iff_inj_on h.arguments_nodup, h.map_valueName, hnames,
    List.nodup_map_iff fun _ _ => percent_injective]

theorem Linked.arguments_unlike_iff (h : d.Linked) (hs : d.BodySound id m body) :
    (∀ port ∈ m.inputs, ∀ v ∈ d.bodyResults body, port.name ≠ toString v.index) ↔
      ∀ v ∈ body.arguments, ∀ w ∈ d.bodyResults body, d.valueName m v ≠ d.valueName m w := by
  constructor
  · intro unlike v hv w hw hsame
    have hport := List.mem_map_of_mem (f := d.valueName m) hv
    rw [hs.map_valueName] at hport
    obtain ⟨port, hmem, hname⟩ := List.mem_map.mp hport
    rw [← hname, h.valueName_result hw] at hsame
    exact unlike port hmem w hw (percent_injective hsame)
  · intro unlike port hport w hw hname
    have hargument := List.mem_map_of_mem (f := fun port : Port => "%" ++ port.name) hport
    rw [← hs.map_valueName] at hargument
    obtain ⟨v, hv, hsame⟩ := List.mem_map.mp hargument
    exact unlike v hv w hw (by rw [hsame, hname, h.valueName_result hw])

theorem Linked.namesApart_iff (h : d.Linked) (hs : d.BodySound id m body) :
    d.NamesApart m body ↔ (m.inputs.map (·.name)).Nodup ∧
      ∀ port ∈ m.inputs, ∀ v ∈ d.bodyResults body, port.name ≠ toString v.index := by
  rw [hs.ports_nodup_iff, h.arguments_unlike_iff hs]
  constructor
  · intro apart
    refine ⟨fun v hv w hw => apart v (List.mem_append_left _ hv) w (List.mem_append_left _ hw), ?_⟩
    intro v hv w hw hsame
    obtain rfl := apart v (List.mem_append_left _ hv) w (List.mem_append_right _ hw) hsame
    obtain ⟨i, hi⟩ := List.mem_iff_getElem?.mp hv
    obtain ⟨_, _, hvalue⟩ := hs.exists_port hi
    obtain ⟨_, _, _, hresult⟩ := h.source_of_mem_bodyResults hw
    cases hvalue.symm.trans hresult
  · rintro ⟨distinct, unlike⟩ v hv w hw hsame
    rcases List.mem_append.mp hv with hv | hv <;> rcases List.mem_append.mp hw with hw | hw
    · exact distinct v hv w hw hsame
    · exact absurd hsame (unlike v hv w hw)
    · exact absurd hsame.symm (unlike w hw v hv)
    · rw [h.valueName_result hv, h.valueName_result hw] at hsame
      exact toString_index_injective (percent_injective hsame)

/-- How the text of a module in a linked design names the values of its body. -/
theorem Linked.namesValues (h : d.Linked) (hm : d.module? id = some m) (hbody : m.body? = some body) :
    d.NamesValues m body := by
  have hs := h.bodies id m body hm hbody
  constructor
  case ports => exact hs.map_valueName
  case results => exact fun v hv => h.valueName_result hv
  case operands =>
    intro o ho op hop v hv
    obtain ⟨k, hk⟩ := Array.mem_iff_getElem?.mp ho
    exact mem_bodyValues_of_definedBefore (hs.dominated k o op hk hop v hv)
  case apart => exact h.namesApart_iff hs

end Design

end Wirework
