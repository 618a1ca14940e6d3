import Wirework.Proofs.Design.Typing
import Wirework.Proofs.Session.Frame
import Mathlib.Logic.Relation
import Wirework.Proofs.Session.Outcomes

/-! # Single changes of a session

Whatever a task does, the values and operations of a design stay in its tables, with their types and their places
(`Does.retains`), and the instances recorded in a module there was are as before, but for the module whose body the
task goes on with (`Does.instancesIn_eq`).

Tasks nest, and what is done for one is told by `Session.Does` with all that is done within it.  In the second part it
is told as a sequence of single changes, none of which contains another (`Session.Moves`): a module is made or begun,
the body at the insertion point is gone on with, and a body is finished or its module taken out again.  Every task is
such a sequence (`Does.goes`), so what each change preserves holds after every task (`Goes.induct`). -/

namespace Wirework

/-! ## What stays in the tables -/

namespace Session

variable {catalog : Catalog} {t : Task} {s s' : Session}

/-! ### Values and operations -/

theorem Edits.retains (h : s.Edits s') : s.design.Retains s'.design := by
  cases h with
  | append here appends goesOn callee => exact appends.retains
  | annotate here found own attributes => exact Design.retains_annotate found attributes
  | name | register | warn => exact refl_of Design.Retains _

theorem Opens.retains {d : DefId} {name : String} (h : s.Opens catalog d name s') :
    s.design.Retains s'.design := by
  cases h with
  | intro idle unbound original fits begun suits location clock =>
      exact fits.takes.retains.congr rfl rfl

/-- Values and operations stay in the tables of the design. -/
theorem Does.retains (h : Does catalog t s s') : s.design.Retains s'.design := by
  induction h with
  | refused | known | rest => exact refl_of Design.Retains _
  | spoilt d name takes warnings => exact takes.retains
  | leaf idle unbound fits settled copied suits => exact fits.takes.retains
  | generated opens fill ends ih =>
      have hfilled := trans_of Design.Retains opens.retains ih
      exact (trans_of Design.Retains hfilled ends.retains).congr rfl rfl
  | discarded opens fill current ih =>
      exact (trans_of Design.Retains opens.retains ih).congr rfl rfl
  | edit fill edits ih => exact trans_of Design.Retains ih edits.retains
  | nested fill make ihfill ihmake => exact trans_of Design.Retains ihfill ihmake

/-! ### Records -/

theorem Edits.instancesIn_eq (h : s.Edits s') {id : ModuleId} (hid : some id ≠ s.here?) :
    s'.instancesIn id = s.instancesIn id := by
  cases h with
  | append | annotate | name | warn => rfl
  | @register record op m body here found own instantiates parent begun inside callee =>
      unfold instancesIn
      have hother : record.parent ≠ id := by
        rintro rfl
        exact hid here.symm
      rw [List.filter_append, List.filter_cons_of_neg (by simpa using hother), List.filter_nil,
        List.append_nil]

theorem instancesIn_drop {d : DefId} {name : String} {id gone : ModuleId} (h : id ≠ gone) :
    (s.drop d name gone).instancesIn id = s.instancesIn id := by
  unfold instancesIn drop
  rw [List.filter_filter]
  refine List.filter_congr fun r _ => ?_
  by_cases hr : r.parent = id
  · simp [hr, h]
  · simp [hr]

section opens

variable {d : DefId} {name : String} {id : ModuleId}

theorem Opens.lt_size (h : s.Opens catalog d name s') (hlt : id.index < s.design.modules.size) :
    id.index < s'.design.modules.size := by
  cases h with
  | intro idle unbound original fits begun suits location clock =>
      exact Nat.lt_of_lt_of_le hlt (fits.keeps d).size_le

theorem Opens.ne_here (h : s.Opens catalog d name s') (hlt : id.index < s.design.modules.size) :
    some id ≠ s'.here? := by
  rw [h.here?_eq]
  exact fun he => Design.ne_nextModule hlt (Option.some.inj he)

theorem Opens.instancesIn_eq (h : s.Opens catalog d name s') :
    s'.instancesIn id = s.instancesIn id := by
  cases h; rfl

end opens

/-- A task records instances in new modules only, and in the module whose body it goes on with. -/
theorem Does.instancesIn_eq (h : Does catalog t s s') {id : ModuleId}
    (hlt : id.index < s.design.modules.size) (hid : some id ≠ t.own? s) :
    s'.instancesIn id = s.instancesIn id := by
  induction h with
  | refused | spoilt | known | leaf | rest => rfl
  | @generated s s₁ s₂ d name values design opens fill ends ih =>
      exact (ih (opens.lt_size hlt) (opens.ne_here hlt)).trans opens.instancesIn_eq
  | @discarded s s₁ s₂ d name opens fill current ih =>
      rw [instancesIn_drop (Design.ne_nextModule hlt)]
      exact (ih (opens.lt_size hlt) (opens.ne_here hlt)).trans opens.instancesIn_eq
  | edit fill edits ih =>
      rw [edits.instancesIn_eq (by rw [fill.keeps.here?_eq]; exact hid), ih hlt hid]
  | nested fill make ihfill ihmake =>
      have hmake := ihmake (Nat.lt_of_lt_of_le hlt fill.keeps.size_le) (by simp [Task.own?])
      rw [hmake, ihfill hlt hid]

end Session

/-! ## Single changes -/

namespace Session

/-- One change of a session. -/
inductive Moves (catalog : Catalog) (s : Session) : Session → Prop
  /-- The position of a module that could not be made stays empty. -/
  | spoil {design : Design} (takes : s.design.Takes none design) (warnings : List Warning) :
      Moves catalog s { s with design, warnings }
  | leaf {d : DefId} {name : String} {m : HwModule} {design : Design} {entry : ManifestEntry}
      (unbound : s.moduleOf? d = none) (fits : s.Fits name m design entry) (settled : m.IsSettled)
      (copied : catalog.imported d ∨ m.isExternal = true)
      (declares : ∀ declared, m.kind = .external declared →
        catalog.declares d entry.parameters declared) :
      Moves catalog s (s.enroll d m design entry)
  | enter {d : DefId} {name : String} {s' : Session} (opens : s.Opens catalog d name s') :
      Moves catalog s s'
  | edit {s' : Session} (edits : s.Edits s') : Moves catalog s s'
  | finish {d : DefId} {ds : List DefId} {id : ModuleId} {ids : List ModuleId} {values : List ValueId}
      {design : Design} (running : s.generating = d :: ds) (inside : s.points = id :: ids)
      (ends : s.design.Appends id (.output values) design) :
      Moves catalog s (Session.leave { s with design } d)
  | discard {d : DefId} {ds : List DefId} {id : ModuleId} {ids : List ModuleId}
      (running : s.generating = d :: ds) (inside : s.points = id :: ids) (name : String) :
      Moves catalog s ((s.leave d).drop d name id)

/-- Any number of changes. -/
abbrev Goes (catalog : Catalog) : Session → Session → Prop :=
  Relation.ReflTransGen (Moves catalog)

variable {catalog : Catalog} {s s' : Session}

theorem Moves.coherent (h : s.Moves catalog s') (hs : s.Coherent) : s'.Coherent := by
  cases h with
  | spoil takes warnings => exact hs.spoil takes warnings
  | leaf unbound fits settled copied declares => exact hs.leaf unbound fits settled
  | enter opens => exact hs.opens opens
  | edit edits => exact hs.edits edits
  | finish running inside ends => exact hs.finish running inside ends
  | discard running inside name => exact hs.drop running inside name

theorem Moves.config_eq (h : s.Moves catalog s') : s'.config = s.config := by
  cases h with
  | enter opens => exact opens.config_eq
  | edit edits => exact edits.keeps.config_eq
  | spoil | leaf | finish | discard => rfl

/-- Values and operations stay in the tables of the design. -/
theorem Moves.retains (h : s.Moves catalog s') : s.design.Retains s'.design := by
  cases h with
  | spoil takes warnings => exact takes.retains
  | leaf unbound fits settled copied declares => exact fits.takes.retains
  | enter opens => exact opens.retains
  | edit edits => exact edits.retains
  | finish running inside ends => exact ends.retains.congr rfl rfl
  | discard running inside name => exact Design.retains_of_tables rfl rfl

/-- There are as many scopes of instance names as insertion points. -/
theorem Moves.blocks_length (h : s.Moves catalog s') (hs : s.blocks.length = s.points.length) :
    s'.blocks.length = s'.points.length := by
  have hscopes : ∀ {d : Design}, d.scopes = s.design.scopes →
      d.scopes.insertionPoints.length = s.points.length := fun h => by rw [h]; rfl
  cases h with
  | spoil takes warnings => exact hs.trans (hscopes takes.scopes_eq).symm
  | leaf unbound fits settled copied declares => exact hs.trans (hscopes fits.takes.scopes_eq).symm
  | enter opens =>
      cases opens with
      | intro idle unbound original fits begun suits location clock =>
          exact congrArg (· + 1) (hs.trans (hscopes fits.takes.scopes_eq).symm)
  | edit edits =>
      cases edits with
      | append here appends goesOn callee clocked => exact hs.trans (hscopes appends.scopes_eq).symm
      | name blocks => exact (congrArg List.length blocks).symm.trans hs
      | annotate | register | warn => exact hs
  | finish running inside ends =>
      have hlength := hs.trans (hscopes ends.scopes_eq).symm
      exact (List.length_tail.trans (congrArg (· - 1) hlength)).trans List.length_tail.symm
  | discard running inside name =>
      exact (List.length_tail.trans (congrArg (· - 1) hs)).trans List.length_tail.symm

theorem Goes.retains (h : Goes catalog s s') : s.design.Retains s'.design := by
  induction h with
  | refl => exact refl_of Design.Retains _
  | tail _ hmoves ih => exact trans_of Design.Retains ih hmoves.retains

/-- Every task is a sequence of changes. -/
theorem Does.goes {t : Task} (h : Does catalog t s s') : Goes catalog s s' := by
  induction h with
  | refused | known | rest => exact .refl
  | spoilt d name takes warnings => exact .single (.spoil takes warnings)
  | leaf idle unbound fits settled copied suits declares =>
      exact .single (.leaf unbound fits settled copied declares)
  | generated opens fill ends ih =>
      have running := fill.keeps.generating_eq.trans opens.generating_eq
      have inside := fill.keeps.points_eq.trans opens.points_eq
      exact (ih.head (.enter opens)).tail (.finish running inside ends)
  | discarded opens fill current ih =>
      have running := fill.keeps.generating_eq.trans opens.generating_eq
      have inside := fill.keeps.points_eq.trans opens.points_eq
      exact (ih.head (.enter opens)).tail (.discard running inside current)
  | edit fill edits ih => exact ih.tail (.edit edits)
  | nested fill make ihfill ihmake => exact ihfill.trans ihmake

/-- What every change of a coherent session preserves, any number of changes preserve. -/
theorem Goes.induct {I : Session → Prop} (h : Goes catalog s s') (hs : s.Coherent) (first : I s)
    (step : ∀ s s', s.Coherent → I s → s.Moves catalog s' → I s') : s'.Coherent ∧ I s' := by
  induction h with
  | refl => exact ⟨hs, first⟩
  | tail _ hmoves ih => exact ⟨hmoves.coherent ih.1, step _ _ ih.1 ih.2 hmoves⟩

end Session

end Wirework
