import Wirework.Proofs.Engine.Binding
import Wirework.Proofs.Steps

/-! # Slots for connections

The connections of an instance can be collected in slots, one for each input: each connection is checked and put into
the slot at the index of its port, and the inputs whose slots have stayed empty are missing (`Definition.bindSlots`).
There is always such a slot, and what comes out is what the look-ups by name give (`Definition.bindSlots_eq`).

The induction is on the bindings: if their names are distinct and known, the slot of a port holds in the end what the
name of the port is bound to (`fillSlots_eq`).  The slots that have stayed empty are then those of the inputs without
a connection (`missing_of_slots`), and if there is none, ports and slots are listed side by side
(`connections_of_slots`). -/

namespace Wirework

/-- No port has been found at an index. -/
def BuildError.IsPortFault (e : BuildError) : Prop := ∃ index, e = .engine (.portIndex index)

theorem Connection.check_spared (connection : Connection) (module : String) (port : PortSpec) :
    Spared BuildError.IsPortFault (connection.check module port) := by
  cases connection with
  | signal s => exact .ite (fun _ => spared_ok _) fun _ => spared_error nofun
  | literal value => exact .ite (fun _ => spared_ok _) fun _ => spared_error nofun
  | absent => exact spared_ok _

namespace Definition

variable {ρ : Type} {d : Definition ρ}

/-! ### Filling slots -/

/-- Checks connections one after the other, and puts each into the slot of its port. -/
def fillSlots (d : Definition ρ) :
    List (String × Connection) → List (Option Connection) → Except BuildError (List (Option Connection))
  | [], slots => .ok slots
  | (name, connection) :: rest, slots =>
    match d.input? name with
    | none => d.fillSlots rest slots
    | some port => do
      d.checkBinding name connection
      if port.index < slots.length then
        d.fillSlots rest (slots.set port.index (some connection))
      else throw (.engine (.portIndex port.index))

/-- The connection of every input, collected in slots. -/
def bindSlots (d : Definition ρ) (bindings : List (String × Connection)) :
    Except BuildError (List (PortSpec × Connection)) := do
  let names := bindings.map (·.1)
  if let some name := firstRepeated [] names then
    throw (.duplicateBinding d.name name)
  if let some name := names.find? fun name => (d.input? name).isNone then
    throw (.portResolution d.name name)
  let slots ← d.fillSlots bindings (List.replicate d.inputs.length none)
  let missing := (d.inputs.zip slots).filterMap fun (port, slot) =>
    if slot.isNone then some port.name else none
  unless missing.isEmpty do
    throw (.missingInput d.name missing)
  return d.inputs.zip (slots.filterMap id)

theorem Scanned.position_of_input (hd : d.Scanned) {port : PortSpec} (hport : port ∈ d.inputs) :
    d.inputs[port.index]? = some port ∧ ∀ k p, d.inputs[k]? = some p → p.name = port.name → k = port.index := by
  obtain ⟨j, hj⟩ := List.mem_iff_getElem?.mp hport
  have hindex := hd.index_of_input hj
  refine ⟨hindex ▸ hj, fun k p hp hname => ?_⟩
  have hfound := hd.input?_eq_some_iff.mpr ⟨List.mem_of_getElem? hp, hname⟩
  rw [hd.input?_eq_some_iff.mpr ⟨hport, rfl⟩] at hfound
  obtain rfl := Option.some.inj hfound
  exact (hd.index_of_input hp).symm

theorem Scanned.input_index_lt (hd : d.Scanned) {port : PortSpec} (hport : port ∈ d.inputs) :
    port.index < d.inputs.length :=
  (List.getElem?_eq_some_iff.mp (hd.position_of_input hport).1).1

/-- Putting a connection into the slot of a port. -/
theorem set_slot (hd : d.Scanned) {port : PortSpec} (hport : port ∈ d.inputs)
    (content : PortSpec → Option Connection) (connection : Connection) :
    (d.inputs.map content).set port.index (some connection) =
      d.inputs.map fun p => if p.name = port.name then some connection else content p := by
  obtain ⟨hself, hother⟩ := hd.position_of_input hport
  refine List.ext_getElem? fun k => ?_
  rw [List.getElem?_map]
  by_cases hk : port.index = k
  · subst hk
    rw [List.getElem?_set_self (by rw [List.length_map]; exact hd.input_index_lt hport), hself]
    simp
  · rw [List.getElem?_set_ne hk, List.getElem?_map]
    cases hp : d.inputs[k]? with
    | none => rfl
    | some p =>
        have hname : p.name ≠ port.name := fun hname => hk (hother k p hp hname).symm
        simp [hname]

/-- If the names are distinct and known, every connection finds a slot, and the slot of a port holds what the
name of the port is bound to. -/
theorem fillSlots_eq (hd : d.Scanned) {bindings : List (String × Connection)}
    (distinct : (bindings.map (·.1)).Nodup)
    (known : ∀ name ∈ bindings.map (·.1), (d.input? name).isSome = true)
    (content : PortSpec → Option Connection) :
    d.fillSlots bindings (d.inputs.map content) =
      (bindings.forM fun (name, connection) => d.checkBinding name connection) >>= fun _ =>
        .ok (d.inputs.map fun port => (bindings.lookup port.name).or (content port)) := by
  induction bindings generalizing content with
  | nil => rfl
  | cons binding rest ih =>
      obtain ⟨name, connection⟩ := binding
      obtain ⟨hnew, hdistinct⟩ := List.nodup_cons.mp distinct
      obtain ⟨hfirst, hknown⟩ := List.forall_mem_cons.mp known
      obtain ⟨port, hport⟩ := Option.isSome_iff_exists.mp hfirst
      obtain ⟨hmem, hname⟩ := hd.input?_eq_some_iff.mp hport
      have hslot : port.index < (d.inputs.map content).length := by
        rw [List.length_map]
        exact hd.input_index_lt hmem
      unfold fillSlots
      simp only [hport, if_pos hslot, set_slot hd hmem, hname]
      rw [ih hdistinct hknown]
      have hcontent : ∀ p ∈ d.inputs,
          (rest.lookup p.name).or (if p.name = name then some connection else content p) =
            (((name, connection) :: rest).lookup p.name).or (content p) := by
        intro p _
        rw [List.lookup_cons]
        by_cases hp : p.name = name
        · have hnone : rest.lookup p.name = none := by
            refine List.lookup_eq_none_iff.mpr fun other hother => bne_iff_ne.mpr fun heq => hnew ?_
            exact List.mem_map.mpr ⟨other, hother, heq.symm.trans hp⟩
          rw [hnone, if_pos hp, hp, beq_self_eq_true]
          rfl
        · rw [if_neg hp, beq_false_of_ne hp]
      rw [List.map_congr_left hcontent]
      exact (bind_assoc (d.checkBinding name connection) _ _).symm

/-! ### Connections in slots -/

theorem missing_of_slots (bindings : List (String × Connection)) :
    ((d.inputs.zip (d.inputs.map fun port => bindings.lookup port.name)).filterMap fun slot =>
      if slot.2.isNone then some slot.1.name else none) = d.unboundInputs bindings := by
  unfold unboundInputs
  induction d.inputs with
  | nil => rfl
  | cons port ports ih =>
      rw [List.map_cons, List.zip_cons_cons, List.filterMap_cons, List.map_cons, List.filter_cons, ih]
      cases bindings.lookup port.name <;> rfl

theorem connections_of_slots {bindings : List (String × Connection)} (ports : List PortSpec)
    (bound : ∀ port ∈ ports, (bindings.lookup port.name).isSome = true) :
    ports.zip ((ports.map fun port => bindings.lookup port.name).filterMap id) =
      ports.filterMap fun port => (bindings.lookup port.name).map fun connection => (port, connection) := by
  induction ports with
  | nil => rfl
  | cons port ports ih =>
      obtain ⟨hfirst, hrest⟩ := List.forall_mem_cons.mp bound
      obtain ⟨connection, hconnection⟩ := Option.isSome_iff_exists.mp hfirst
      rw [List.map_cons, List.filterMap_cons, List.filterMap_cons, hconnection, ← ih hrest]
      rfl

/-- Collecting connections in slots comes to the same as looking them up by the names of the ports. -/
theorem bindSlots_eq (hd : d.Scanned) (bindings : List (String × Connection)) :
    d.bindSlots bindings = d.bindInputs bindings := by
  unfold bindSlots bindInputs
  cases hrepeated : firstRepeated [] (bindings.map (·.1)) with
  | some name => simp only [hrepeated]; rfl
  | none =>
  cases hunknown : (bindings.map (·.1)).find? fun name => (d.input? name).isNone with
  | some name => simp only [hrepeated, hunknown]; rfl
  | none =>
  have hdistinct := (firstRepeated_eq_none hrepeated).1
  have hknown : ∀ name ∈ bindings.map (·.1), (d.input? name).isSome = true := by
    simpa [List.find?_eq_none, Option.isSome_iff_ne_none] using hunknown
  have hempty : List.replicate d.inputs.length none = d.inputs.map fun _ => (none : Option Connection) :=
    List.map_const'.symm
  simp only [hrepeated, hunknown, hempty, fillSlots_eq hd hdistinct hknown, Option.or_none]
  cases bindings.forM fun binding => d.checkBinding binding.1 binding.2 with
  | error e => rfl
  | ok _ =>
      change (if (List.filterMap _ (d.inputs.zip (d.inputs.map _))).isEmpty = true then _ else _) = _
      rw [missing_of_slots]
      by_cases hbound : (d.unboundInputs bindings).isEmpty = true
      · have hall : ∀ port ∈ d.inputs, (bindings.lookup port.name).isSome = true := by
          intro port hport
          have hnot := List.filter_eq_nil_iff.mp (List.isEmpty_iff.mp hbound) port.name (List.mem_map_of_mem hport)
          rwa [Bool.not_eq_true, Option.isNone_eq_false_iff] at hnot
        rw [if_pos hbound, connections_of_slots d.inputs hall]
        exact (if_pos hbound).symm
      · rw [if_neg hbound]
        exact (if_neg hbound).symm

theorem checkBinding_spared (d : Definition ρ) (name : String) (connection : Connection) :
    Spared BuildError.IsPortFault (d.checkBinding name connection) := by
  unfold checkBinding
  cases d.input? name with
  | none => exact spared_error nofun
  | some port => exact .ite (fun _ => spared_error nofun) fun _ => connection.check_spared d.name port

/-- Connections are refused for other reasons than that a port has no slot. -/
theorem bindInputs_spared (d : Definition ρ) (bindings : List (String × Connection)) :
    Spared BuildError.IsPortFault (d.bindInputs bindings) := by
  unfold bindInputs
  cases hrepeated : firstRepeated [] (bindings.map (·.1)) with
  | some name =>
      simp only [hrepeated]
      exact spared_error nofun
  | none =>
  cases hunknown : (bindings.map (·.1)).find? fun name => (d.input? name).isNone with
  | some name =>
      simp only [hrepeated, hunknown]
      exact spared_error nofun
  | none =>
  simp only [hrepeated, hunknown]
  refine (spared_forM fun binding _ => d.checkBinding_spared binding.1 binding.2).bind fun _ _ => ?_
  exact .guard nofun fun _ => spared_ok _

end Definition
end Wirework
