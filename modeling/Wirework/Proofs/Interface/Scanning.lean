import Mathlib.Data.List.Nodup
import Wirework.Interface
import Wirework.Proofs.Dictionaries
import Wirework.Proofs.Sequences

/-! # Interfaces read off declarations

An interface reads a list of members if its ports are those that the members declare, in the same order and
numbered per direction (`Interface.Reads`).  Adding a member preserves this, so the interface of a list of
declarations reads those that are not private (`Interface.ofDeclarations_reads`).

In such an interface the number of a port is its position among the ports of its direction
(`Reads.index_eq`).  The table is built by inserting, which displaces an older entry of the same name; as the names of
a direction are distinct (`Reads.names_nodup`), nothing is displaced, so the table finds exactly the ports there are
(`Reads.inputIndex?_eq_some_iff`, `Reads.outputIndex?_eq_some_iff`) and counts them
(`Reads.inputCount_eq`, `Reads.outputCount_eq`). -/

namespace Wirework

variable {ρ : Type}

/-! ### Declared ports -/

/-- The port without its number. -/
def PortSpec.unnumbered (port : PortSpec) : PortSpec :=
  { port with index := 0 }

/-- The port that a member declares, not numbered yet. -/
def Declaration.port? (name : String) : Declaration ρ → Option PortSpec
  | .input type role => some ⟨name, .input, 0, type, role⟩
  | .output type => some ⟨name, .output, 0, type, .plain⟩
  | _ => none

theorem Declaration.name_of_port? {name : String} {declaration : Declaration ρ} {port : PortSpec}
    (h : declaration.port? name = some port) : port.name = name := by
  cases declaration <;> cases h <;> rfl

namespace Interface

/-- The ports that members declare. -/
def declaredPorts (members : List (String × Declaration ρ)) : List PortSpec :=
  members.filterMap fun member => member.2.port? member.1

/-- The members that the interface of a module has. -/
def publicMembers (declarations : List (String × Declaration ρ)) : List (String × Declaration ρ) :=
  declarations.filter fun member => !Name.isPrivate member.1

/-- The ports of a direction, in order. -/
def toward (i : Interface ρ) (direction : Direction) : List PortSpec :=
  i.ports.filter (·.direction = direction)

/-- The ports of the interface are those that the members declare. -/
structure Reads (members : List (String × Declaration ρ)) (i : Interface ρ) : Prop where
  distinct : (members.map (·.1)).Nodup
  ports : i.ports.map PortSpec.unnumbered = declaredPorts members
  numbered : ∀ direction,
    (i.toward direction).map (·.index) = List.range (i.toward direction).length

/-! ### Adding members -/

theorem reads_empty : Reads [] ({} : Interface ρ) where
  distinct := List.nodup_nil
  ports := rfl
  numbered _ := rfl

namespace Reads

variable {members : List (String × Declaration ρ)} {i : Interface ρ} {name : String}

/-- A member is added; a port that it declares gets the next number of its direction. -/
theorem add (h : i.Reads members) (fresh : name ∉ members.map (·.1)) {declaration : Declaration ρ}
    (port? : Option PortSpec) (declares : declaration.port? name = port?.map PortSpec.unnumbered)
    (next : ∀ port ∈ port?, port.index = (i.toward port.direction).length) {i' : Interface ρ}
    (ports : i'.ports = i.ports ++ port?.toList) : i'.Reads (members ++ [(name, declaration)]) where
  distinct := by
    rw [List.map_append, List.map_singleton, ← List.concat_eq_append]
    exact h.distinct.concat fresh
  ports := by
    have hdeclared : declaredPorts [(name, declaration)] = port?.toList.map PortSpec.unnumbered := by
      unfold declaredPorts
      rw [List.filterMap_cons, declares]
      cases port? <;> rfl
    rw [ports, List.map_append, h.ports, ← hdeclared]
    exact List.filterMap_append.symm
  numbered direction := by
    have htoward : i'.toward direction =
        i.toward direction ++ port?.toList.filter (·.direction = direction) := by
      unfold toward
      rw [ports, List.filter_append]
    rw [htoward, List.map_append, List.length_append, h.numbered direction]
    cases port? with
    | none => exact List.append_nil _
    | some port =>
        rw [Option.toList_some]
        by_cases hdirection : port.direction = direction
        · have hindex := next port rfl
          rw [hdirection] at hindex
          rw [List.filter_cons_of_pos (by simpa using hdirection), List.filter_nil, List.map_singleton,
            hindex, List.length_singleton, List.range_succ]
        · rw [List.filter_cons_of_neg (by simpa using hdirection), List.filter_nil]
          exact List.append_nil _

theorem addOther (h : i.Reads members) (fresh : name ∉ members.map (·.1))
    {declaration : Declaration ρ} (other : declaration.port? name = none) {i' : Interface ρ}
    (same : i'.ports = i.ports) : i'.Reads (members ++ [(name, declaration)]) :=
  h.add fresh none other (fun _ hport => by cases hport) (same.trans (List.append_nil _).symm)

theorem addMember (h : i.Reads members) (fresh : name ∉ members.map (·.1)) {module : String}
    {declaration : Declaration ρ} {i' : Interface ρ}
    (hadd : i.addMember module name declaration = .ok i') :
    i'.Reads (members ++ [(name, declaration)]) := by
  cases declaration with
  | input type role =>
      simp only [Interface.addMember] at hadd
      by_cases hclock : role = .clock ∧ type ≠ .clock
      · rw [if_pos hclock] at hadd
        cases hadd
      · rw [if_neg hclock] at hadd
        cases hadd
        exact h.add fresh (some ⟨name, .input, i.inputs.length, type, role⟩) rfl
          (fun _ hport => Option.some.inj hport ▸ rfl) rfl
  | output type =>
      cases hadd
      exact h.add fresh (some ⟨name, .output, i.outputs.length, type, .plain⟩) rfl
        (fun _ hport => Option.some.inj hport ▸ rfl) rfl
  | generator routine location =>
      cases hadd
      exact h.addOther fresh rfl rfl
  | constant value type =>
      obtain ⟨_, _, hadd⟩ := bind_eq_ok_iff.mp hadd
      cases hadd
      exact h.addOther fresh rfl rfl
  | «attributes» entries =>
      simp only [Interface.addMember] at hadd
      cases hattributes : i.attributes with
      | some _ =>
          rw [hattributes] at hadd
          cases hadd
      | none =>
          rw [hattributes] at hadd
          cases hadd
          exact h.addOther fresh rfl rfl

/-- Adding declarations, of which the private ones are skipped. -/
theorem addMembers (h : i.Reads members) {module : String}
    {declarations : List (String × Declaration ρ)} {seen : List String}
    (hseen : ∀ n, n ∈ seen ↔ n ∈ members.map (·.1)) {i' : Interface ρ}
    (hadd : Interface.addMembers module declarations seen i = .ok i') :
    i'.Reads (members ++ publicMembers declarations) := by
  induction declarations generalizing members seen i with
  | nil =>
      cases hadd
      exact (List.append_nil members).symm ▸ h
  | cons member rest ih =>
      obtain ⟨name, declaration⟩ := member
      unfold Interface.addMembers at hadd
      unfold publicMembers
      by_cases hprivate : Name.isPrivate name = true
      · rw [if_pos hprivate] at hadd
        rw [List.filter_cons_of_neg (by simp [hprivate])]
        exact ih h hseen hadd
      · rw [if_neg hprivate] at hadd
        by_cases hmem : name ∈ seen
        · rw [if_pos hmem] at hadd
          cases hadd
        · rw [if_neg hmem] at hadd
          obtain ⟨i₁, hi₁, hadd⟩ := bind_eq_ok_iff.mp hadd
          have hseen₁ : ∀ n, n ∈ name :: seen ↔
              n ∈ (members ++ [(name, declaration)]).map (·.1) := by
            intro n
            rw [List.mem_cons, List.map_append, List.mem_append, hseen, or_comm]
            exact or_congr_right List.mem_singleton.symm
          have hrest := ih (h.addMember (fun hname => hmem ((hseen name).mpr hname)) hi₁) hseen₁ hadd
          rw [List.append_assoc] at hrest
          rw [List.filter_cons_of_pos (by simp [hprivate])]
          exact hrest

end Reads

/-- The interface of a list of declarations. -/
theorem ofDeclarations_reads {module : String} {declarations : List (String × Declaration ρ)}
    {i : Interface ρ} (h : ofDeclarations module declarations = .ok i) :
    i.Reads (publicMembers declarations) := by
  unfold ofDeclarations at h
  obtain ⟨i', hadd, h⟩ := bind_eq_ok_iff.mp h
  have hreads := reads_empty.addMembers (fun _ => Iff.rfl) hadd
  by_cases hmany : 1 < i'.generators.size
  · rw [if_pos hmany] at h
    cases h
  · rw [if_neg hmany] at h
    cases h
    exact hreads

/-! ### Numbers and names -/

namespace Reads

variable {members : List (String × Declaration ρ)} {i : Interface ρ}

/-- The number of a port is its position among the ports of its direction. -/
theorem index_eq (h : i.Reads members) (direction : Direction) {k : Nat} {port : PortSpec}
    (hport : (i.toward direction)[k]? = some port) : port.index = k := by
  have hindex : ((i.toward direction).map (·.index))[k]? = some port.index := by
    rw [List.getElem?_map, hport]
    rfl
  rw [h.numbered direction] at hindex
  obtain ⟨hk, heq⟩ := List.getElem?_eq_some_iff.mp hindex
  rw [List.getElem_range] at heq
  exact heq.symm

theorem toward_eq (h : i.Reads members) (direction : Direction) :
    (i.toward direction).map PortSpec.unnumbered =
      (declaredPorts members).filter (·.direction = direction) := by
  rw [← h.ports, List.filter_map]
  rfl

theorem names_nodup (h : i.Reads members) (direction : Direction) :
    ((i.toward direction).map (·.name)).Nodup := by
  have hnames : (i.toward direction).map (·.name) =
      ((declaredPorts members).filter (·.direction = direction)).map (·.name) := by
    rw [← h.toward_eq direction, List.map_map]
    rfl
  have hdeclared : (declaredPorts members).Pairwise fun a b => a.name ≠ b.name := by
    refine List.pairwise_filterMap.mpr ((List.pairwise_map.mp h.distinct).imp ?_)
    intro a b hne port hport port' hport'
    rw [Declaration.name_of_port? hport, Declaration.name_of_port? hport']
    exact hne
  rw [hnames]
  exact List.pairwise_map.mpr (hdeclared.filter _)

theorem indices_nodup (h : i.Reads members) (direction : Direction) :
    (((i.toward direction).map fun port => (port.name, port.index)).map (·.1)).Nodup := by
  rw [List.map_map]
  exact h.names_nodup direction

theorem find?_indices_eq_some_iff (h : i.Reads members) (direction : Direction) {name : String} {k : Nat} :
    (PortTable.indices (i.toward direction)).find? name = some k ↔
      ∃ port, (i.toward direction)[k]? = some port ∧ port.name = name := by
  unfold PortTable.indices
  rw [Dict.find?_ofList_of_nodup (h.indices_nodup direction),
    lookup_eq_some_iff_mem (h.indices_nodup direction), List.mem_map]
  constructor
  · rintro ⟨port, hport, heq⟩
    obtain ⟨rfl, rfl⟩ := Prod.mk.inj heq
    obtain ⟨j, hj⟩ := List.mem_iff_getElem?.mp hport
    exact ⟨port, h.index_eq direction hj ▸ hj, rfl⟩
  · rintro ⟨port, hport, rfl⟩
    exact ⟨port, List.mem_of_getElem? hport, by rw [h.index_eq direction hport]⟩

theorem size_indices (h : i.Reads members) (direction : Direction) :
    (PortTable.indices (i.toward direction)).size = (i.toward direction).length :=
  (Dict.size_ofList (h.indices_nodup direction)).trans (List.length_map _)

theorem inputIndex?_eq_some_iff (h : i.Reads members) {name : String} {k : Nat} :
    (PortTable.ofInterface i).inputIndex? name = some k ↔
      ∃ port, i.inputs[k]? = some port ∧ port.name = name :=
  h.find?_indices_eq_some_iff .input

theorem outputIndex?_eq_some_iff (h : i.Reads members) {name : String} {k : Nat} :
    (PortTable.ofInterface i).outputIndex? name = some k ↔
      ∃ port, i.outputs[k]? = some port ∧ port.name = name :=
  h.find?_indices_eq_some_iff .output

theorem inputCount_eq (h : i.Reads members) : (PortTable.ofInterface i).inputCount = i.inputs.length :=
  h.size_indices .input

theorem outputCount_eq (h : i.Reads members) : (PortTable.ofInterface i).outputCount = i.outputs.length :=
  h.size_indices .output

end Reads

end Interface

end Wirework
