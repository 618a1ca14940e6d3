import Wirework.Proofs.Dictionaries
import Wirework.Proofs.Interface.Scanning

/-! # Which declarations are accepted

A list of declarations is admissible (`Interface.Admissible`) if, among those that are not private, the names are
distinct, each declaration is in order by itself, and there is at most one attribute group and at most one
generator.  This is said of the list alone.  The pass over the list keeps an interface and the names it has seen,
refuses some lists on the way and others at its end, and `Interface.Tells` is what it keeps up: the interface has
a group and generators as the members so far have.

`Interface.ofDeclarations_admits` puts this together with what the pass makes of an admissible list: the pass ends
with an interface exactly if the list is admissible, and the interface and its port table are then read off the
list (`Interface.Lists`). -/

namespace Wirework

variable {ρ : Type}

/-! ### Admissible declarations -/

namespace Declaration

/-- The declaration is in order by itself: a clock input has the type of clocks, and a constant is a number or a
truth value that fits its type. -/
def IsSound : Declaration ρ → Prop
  | .input type .clock => type = .clock
  | .constant (.int value) type => type.Fits value
  | .constant (.bool value) type => type.Fits (if value then 1 else 0)
  | .constant _ _ => False
  | _ => True

def isGroup : Declaration ρ → Bool
  | .attributes _ => true
  | _ => false

def isGenerator : Declaration ρ → Bool
  | .generator _ _ => true
  | _ => false

end Declaration

namespace Interface

/-- The members can be taken one after the other. -/
structure Compatible (members : List (String × Declaration ρ)) : Prop where
  distinct : (members.map (·.1)).Nodup
  sound : ∀ member ∈ members, member.2.IsSound
  group : members.countP (·.2.isGroup) ≤ 1

/-- The declarations that are not private make up an interface. -/
structure Admissible (declarations : List (String × Declaration ρ)) : Prop
    extends Compatible (publicMembers declarations) where
  generator : (publicMembers declarations).countP (·.2.isGenerator) ≤ 1

theorem publicMembers_cons_private {member : String × Declaration ρ} (h : Name.isPrivate member.1 = true)
    (rest : List (String × Declaration ρ)) : publicMembers (member :: rest) = publicMembers rest :=
  List.filter_cons_of_neg (by simp [h])

theorem publicMembers_cons_public {member : String × Declaration ρ} (h : ¬ Name.isPrivate member.1 = true)
    (rest : List (String × Declaration ρ)) : publicMembers (member :: rest) = member :: publicMembers rest :=
  List.filter_cons_of_pos (by simp [h])

end Interface

/-! ### Single declarations -/

namespace Interface

theorem checkConstant_eq_ok_iff {module name : String} {value : Attribute} {type : HwType} :
    checkConstant module name value type = .ok () ↔ (Declaration.constant (ρ := ρ) value type).IsSound := by
  unfold checkConstant
  cases value with
  | int number | bool truth =>
      simp only [constantValue?, Declaration.IsSound]
      split <;> simp_all
  | _ => simp [constantValue?, Declaration.IsSound]

/-- The attribute group and the generators of the interface are those of the members, which are in order. -/
structure Tells (members : List (String × Declaration ρ)) (i : Interface ρ) : Prop where
  sound : ∀ member ∈ members, member.2.IsSound
  group : i.attributes.toList.length = members.countP (·.2.isGroup)
  generators : i.generators.names.Perm ((members.filter (·.2.isGenerator)).map (·.1))

theorem tells_empty : Tells [] ({} : Interface ρ) where
  sound _ hmember := by cases hmember
  group := rfl
  generators := .refl _

namespace Tells

variable {members : List (String × Declaration ρ)} {i : Interface ρ} {name : String}

/-- A member that is in order is added, with its group or its generator. -/
theorem add (h : i.Tells members) (declaration : Declaration ρ) (sound : declaration.IsSound) {i' : Interface ρ}
    (group : i'.attributes.toList.length = i.attributes.toList.length + declaration.isGroup.toNat)
    (generators : i'.generators.names.Perm
      (i.generators.names ++ if declaration.isGenerator then [name] else [])) :
    i'.Tells (members ++ [(name, declaration)]) where
  sound := List.forall_mem_append.mpr ⟨h.sound, List.forall_mem_singleton.mpr sound⟩
  group := by
    rw [group, h.group, List.countP_append]
    cases hgroup : declaration.isGroup <;> simp [hgroup]
  generators := by
    refine generators.trans ?_
    rw [List.filter_append, List.map_append]
    refine h.generators.append ?_
    cases hgenerator : declaration.isGenerator <;> simp [hgenerator]

/-- A member is taken if it is in order and not a second attribute group. -/
theorem addMember (h : i.Tells members) (fresh : name ∉ members.map (·.1)) (module : String)
    (declaration : Declaration ρ) :
    (∃ i', i.addMember module name declaration = .ok i' ∧ i'.Tells (members ++ [(name, declaration)])) ∨
      (∃ e, i.addMember module name declaration = .error e) ∧
        (declaration.IsSound → declaration.isGroup = true ∧ 0 < members.countP (·.2.isGroup)) := by
  have hsame : i.generators.names.Perm (i.generators.names ++ []) := .of_eq (List.append_nil _).symm
  cases declaration with
  | input type role =>
      simp only [Interface.addMember]
      by_cases hclock : role = .clock ∧ type ≠ .clock
      · obtain ⟨rfl, htype⟩ := hclock
        exact .inr ⟨⟨_, if_pos ⟨rfl, htype⟩⟩, fun hsound => absurd hsound htype⟩
      · refine .inl ⟨_, if_neg hclock, h.add _ ?_ rfl hsame⟩
        cases role with
        | clock => exact not_not.mp fun htype => hclock ⟨rfl, htype⟩
        | plain | reset => trivial
  | output type => exact .inl ⟨_, rfl, h.add (.output type) trivial rfl hsame⟩
  | generator routine location =>
      refine .inl ⟨_, rfl, h.add (.generator routine location) trivial rfl ?_⟩
      have hnew : name ∉ i.generators.names := by
        intro hname
        obtain ⟨member, hmember, rfl⟩ := List.mem_map.mp (h.generators.mem_iff.mp hname)
        exact fresh (List.mem_map_of_mem (List.mem_of_mem_filter hmember))
      exact ((Dict.insertEntry_perm hnew).map (·.1)).trans (List.perm_append_comm : ([name] ++ _).Perm _)
  | constant value type =>
      simp only [Interface.addMember]
      cases hcheck : checkConstant module name value type with
      | ok _ =>
          have hsound := checkConstant_eq_ok_iff (ρ := ρ).mp hcheck
          exact .inl ⟨_, rfl, h.add _ hsound rfl hsame⟩
      | error e =>
          refine .inr ⟨⟨e, rfl⟩, fun hsound => ?_⟩
          rw [checkConstant_eq_ok_iff.mpr hsound] at hcheck
          cases hcheck
  | «attributes» entries =>
      simp only [Interface.addMember]
      cases hgroup : i.attributes with
      | none => exact .inl ⟨_, rfl, h.add (.attributes entries) trivial (by rw [hgroup]; rfl) hsame⟩
      | some group =>
          refine .inr ⟨⟨_, rfl⟩, fun _ => ⟨rfl, ?_⟩⟩
          rw [← h.group, hgroup]
          exact Nat.one_pos

/-- Declarations are added one after the other exactly if their members can join those there are. -/
theorem addMembers (h : i.Tells members) (module : String) (seen : List String)
    (hseen : ∀ n, n ∈ seen ↔ n ∈ members.map (·.1)) (declarations : List (String × Declaration ρ)) :
    (∃ i', Interface.addMembers module declarations seen i = .ok i' ∧
        i'.Tells (members ++ publicMembers declarations)) ∨
      (∃ e, Interface.addMembers module declarations seen i = .error e) ∧
        ¬ Compatible (members ++ publicMembers declarations) := by
  induction declarations generalizing members seen i with
  | nil => exact .inl ⟨i, rfl, (List.append_nil members).symm ▸ h⟩
  | cons member rest ih =>
      obtain ⟨name, declaration⟩ := member
      unfold Interface.addMembers
      by_cases hprivate : Name.isPrivate name = true
      · rw [if_pos hprivate, publicMembers_cons_private hprivate]
        exact ih h seen hseen
      · rw [if_neg hprivate, publicMembers_cons_public hprivate]
        by_cases hmem : name ∈ seen
        · rw [if_pos hmem]
          refine .inr ⟨⟨_, rfl⟩, fun hgood => ?_⟩
          have hdistinct := hgood.distinct
          rw [List.map_append, List.map_cons] at hdistinct
          exact List.disjoint_of_nodup_append hdistinct ((hseen name).mp hmem) List.mem_cons_self
        · rw [if_neg hmem]
          have hfresh : name ∉ members.map (·.1) := fun hname => hmem ((hseen name).mpr hname)
          obtain ⟨i₁, hi₁, h₁⟩ | ⟨⟨e, he⟩, hfault⟩ := h.addMember hfresh module declaration
          · have hseen₁ : ∀ n, n ∈ name :: seen ↔
                n ∈ (members ++ [(name, declaration)]).map (·.1) := by
              intro n
              rw [List.mem_cons, List.map_append, List.mem_append, hseen, or_comm]
              exact or_congr_right List.mem_singleton.symm
            rw [hi₁, List.append_cons members]
            exact ih h₁ (name :: seen) hseen₁
          · rw [he]
            refine .inr ⟨⟨e, rfl⟩, fun hgood => ?_⟩
            obtain ⟨hnew, hold⟩ :=
              hfault (hgood.sound (name, declaration) (List.mem_append_right _ List.mem_cons_self))
            have hgroup := hgood.group
            rw [List.countP_append, List.countP_cons_of_pos (by exact hnew)] at hgroup
            omega

theorem group_le_one (h : i.Tells members) : members.countP (·.2.isGroup) ≤ 1 := by
  rw [← h.group]
  cases i.attributes with
  | none => exact Nat.zero_le 1
  | some group => exact Nat.le_refl 1

theorem generators_size (h : i.Tells members) : i.generators.size = members.countP (·.2.isGenerator) := by
  have hlength := h.generators.length_eq
  unfold Dict.names at hlength
  rwa [List.length_map, List.length_map, ← List.countP_eq_length_filter] at hlength

end Tells

/-- The pass over the declarations ends with an interface exactly if they are admissible. -/
theorem ofDeclarations_cases (module : String) (declarations : List (String × Declaration ρ)) :
    Admissible declarations ∧ (∃ i, ofDeclarations module declarations = .ok i) ∨
      ¬ Admissible declarations ∧ ∃ e, ofDeclarations module declarations = .error e := by
  have hpass := tells_empty.addMembers module [] (fun _ => Iff.rfl) declarations
  rw [List.nil_append] at hpass
  obtain ⟨i, hi, htells⟩ | ⟨⟨e, he⟩, hfault⟩ := hpass
  · have hend : ofDeclarations module declarations =
        if 1 < i.generators.size then .error (.multipleGenerators module i.generators.names) else .ok i := by
      unfold ofDeclarations
      rw [hi]
      rfl
    by_cases hmany : 1 < i.generators.size
    · rw [if_pos hmany] at hend
      refine .inr ⟨fun hgood => ?_, _, hend⟩
      exact absurd hgood.generator (Nat.not_le.mpr (htells.generators_size ▸ hmany))
    · rw [if_neg hmany] at hend
      have hdistinct := (reads_empty.addMembers (fun _ => Iff.rfl) hi).distinct
      exact .inl ⟨⟨⟨hdistinct, htells.sound, htells.group_le_one⟩,
        htells.generators_size ▸ Nat.not_lt.mp hmany⟩, i, hend⟩
  · refine .inr ⟨fun hgood => hfault hgood.toCompatible, e, ?_⟩
    unfold ofDeclarations
    rw [he]
    rfl

/-! ### What the interface lists -/

theorem getElem?_filter_of_getElem? {α : Type} {p : α → Bool} {l : List α} {k : Nat} {a : α}
    (ha : l[k]? = some a) (hp : p a = true) : (l.filter p)[((l.take k).filter p).length]? = some a := by
  obtain ⟨hk, rfl⟩ := List.getElem?_eq_some_iff.mp ha
  have hsplit : l.filter p = (l.take k).filter p ++ l[k] :: (l.drop (k + 1)).filter p := by
    rw [← List.filter_cons_of_pos hp, ← List.filter_append, List.getElem_cons_drop, List.take_append_drop]
  rw [hsplit, List.getElem?_append_right (Nat.le_refl _), Nat.sub_self]
  rfl

/-- The interface has the ports, the clocks and the resets that the declarations have which are not private, and
its port table finds them. -/
structure Lists (declarations : List (String × Declaration ρ)) (i : Interface ρ) : Prop where
  /-- The ports are the declared ones, in the order of their declaration. -/
  ports : i.ports.map PortSpec.unnumbered = declaredPorts (publicMembers declarations)
  /-- Each port is numbered by the ports of its direction that are declared before it. -/
  numbered : ∀ k port, i.ports[k]? = some port →
    port.index = (i.ports.take k).countP (·.direction = port.direction)
  clocks : ∀ name, name ∈ i.clocks ↔ ∃ type, (name, .input type .clock) ∈ publicMembers declarations
  resets : ∀ name, name ∈ i.resets ↔ ∃ type, (name, .input type .reset) ∈ publicMembers declarations
  once : i.clocks.Nodup ∧ i.resets.Nodup
  /-- No port is found under the name of another of its direction. -/
  names : ∀ direction, ((i.toward direction).map (·.name)).Nodup
  inputIndex : ∀ name k, (PortTable.ofInterface i).inputIndex? name = some k ↔
    ∃ port, i.inputs[k]? = some port ∧ port.name = name
  outputIndex : ∀ name k, (PortTable.ofInterface i).outputIndex? name = some k ↔
    ∃ port, i.outputs[k]? = some port ∧ port.name = name
  isClock : ∀ k, (PortTable.ofInterface i).isClock k = true ↔
    ∃ port, i.inputs[k]? = some port ∧ port.role = .clock
  inputCount : (PortTable.ofInterface i).inputCount = i.inputs.length
  outputCount : (PortTable.ofInterface i).outputCount = i.outputs.length

namespace Reads

variable {members : List (String × Declaration ρ)} {i : Interface ρ}

theorem index_eq_countP (h : i.Reads members) {k : Nat} {port : PortSpec} (hport : i.ports[k]? = some port) :
    port.index = (i.ports.take k).countP (·.direction = port.direction) := by
  rw [List.countP_eq_length_filter]
  exact h.index_eq port.direction (getElem?_filter_of_getElem? hport (by simp))

/-- The inputs in a role are those that the members declare in it. -/
theorem mem_roleNames_iff (h : i.Reads members) {role : PortRole} {name : String} :
    name ∈ i.roleNames role ↔ ∃ type, (name, .input type role) ∈ members := by
  have hdeclared : ∀ port, port ∈ declaredPorts members ↔ ∃ port' ∈ i.ports, port'.unnumbered = port := by
    intro port
    rw [← h.ports, List.mem_map]
  unfold roleNames inRole inputs
  rw [List.mem_mergeSort, List.mem_map]
  simp only [List.mem_filter, decide_eq_true_eq]
  constructor
  · rintro ⟨port, ⟨⟨hport, hinput⟩, hrole⟩, rfl⟩
    obtain ⟨member, hmember, hdecl⟩ :=
      List.mem_filterMap.mp ((hdeclared port.unnumbered).mpr ⟨port, hport, rfl⟩)
    obtain ⟨name, declaration⟩ := member
    cases declaration with
    | input type role' =>
        have heq := Option.some.inj hdecl
        have hname : name = port.name := congrArg PortSpec.name heq
        have hrole' : role' = port.role := congrArg PortSpec.role heq
        rw [hname, hrole', hrole] at hmember
        exact ⟨type, hmember⟩
    | output type =>
        have hdirection : Direction.output = port.direction := congrArg PortSpec.direction (Option.some.inj hdecl)
        rw [hinput] at hdirection
        cases hdirection
    | generator | constant | «attributes» => cases hdecl
  · rintro ⟨type, hmember⟩
    obtain ⟨port, hport, heq⟩ := (hdeclared ⟨name, .input, 0, type, role⟩).mp
      (List.mem_filterMap.mpr ⟨_, hmember, rfl⟩)
    exact ⟨port, ⟨⟨hport, congrArg PortSpec.direction heq⟩, congrArg PortSpec.role heq⟩, congrArg PortSpec.name heq⟩

theorem roleNames_nodup (h : i.Reads members) (role : PortRole) : (i.roleNames role).Nodup := by
  unfold roleNames
  rw [(List.mergeSort_perm _ _).nodup_iff]
  exact (h.names_nodup .input).sublist (List.filter_sublist.map PortSpec.name)

theorem isClock_eq_true_iff (h : i.Reads members) {k : Nat} :
    (PortTable.ofInterface i).isClock k = true ↔ ∃ port, i.inputs[k]? = some port ∧ port.role = .clock := by
  unfold PortTable.isClock PortTable.ofInterface inRole
  rw [List.contains_iff_mem, List.mem_map]
  simp only [List.mem_filter, decide_eq_true_eq]
  constructor
  · rintro ⟨port, ⟨hport, hrole⟩, rfl⟩
    obtain ⟨k, hk⟩ := List.mem_iff_getElem?.mp hport
    exact ⟨port, h.index_eq .input hk ▸ hk, hrole⟩
  · rintro ⟨port, hport, hrole⟩
    exact ⟨port, ⟨List.mem_of_getElem? hport, hrole⟩, h.index_eq .input hport⟩

end Reads

theorem Lists.of_reads {declarations : List (String × Declaration ρ)} {i : Interface ρ}
    (h : i.Reads (publicMembers declarations)) : i.Lists declarations where
  ports := h.ports
  numbered _ _ hport := h.index_eq_countP hport
  clocks _ := h.mem_roleNames_iff
  resets _ := h.mem_roleNames_iff
  once := ⟨h.roleNames_nodup .clock, h.roleNames_nodup .reset⟩
  names := h.names_nodup
  inputIndex _ _ := h.inputIndex?_eq_some_iff
  outputIndex _ _ := h.outputIndex?_eq_some_iff
  isClock _ := h.isClock_eq_true_iff
  inputCount := h.inputCount_eq
  outputCount := h.outputCount_eq

/-- **The scan of declarations.**  It ends with an interface exactly if the declarations are admissible, and the
interface and its port table then list the ports, clocks and resets that are declared and not private; it ends
with an error for all other declarations. -/
theorem ofDeclarations_admits (module : String) (declarations : List (String × Declaration ρ)) :
    (Admissible declarations ∧ ∃ i, ofDeclarations module declarations = .ok i ∧ i.Lists declarations) ∨
      (¬ Admissible declarations ∧ ∃ e, ofDeclarations module declarations = .error e) := by
  obtain ⟨hgood, i, hi⟩ | hbad := ofDeclarations_cases module declarations
  · exact .inl ⟨hgood, i, hi, .of_reads (ofDeclarations_reads hi)⟩
  · exact .inr hbad

end Interface

end Wirework
