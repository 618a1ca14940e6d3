import Wirework.Proofs.Session.Moves

/-! # Numbers of instances

An instance is given as its number how many records there are when it is recorded, and records are taken out again
with the body they are in.  So a number may be given twice.

* Within a body it is not (`Numbered.moves`): what is taken out while the body is built has been recorded after all
  its records, so fewer records than these are never left.  The invariant counts, for each body under construction,
  the records that would be left if the bodies within it were discarded.
* It is not as long as no module is ever taken out (`Moves.sequential`): numbers are positions then.
* A number stays in use unless one of the bodies is discarded that were being built when it was given
  (`Goes.instances_prefix`).

All of these go by what a change does to the records (`Recounts`): nothing, a new one at the end, or those of a
discarded body taken out. -/

namespace Wirework

namespace Session

variable {catalog : Catalog} {s s' : Session}

/-- What a change does to the records of instances and to the bodies that are being built. -/
inductive Recounts (s s' : Session) : Prop
  | register {record : InstanceRecord} (here : s.here? = some record.parent)
      (numbered : record.id = ⟨s.instances.length⟩) (points : s'.points = s.points)
      (instances : s'.instances = s.instances ++ [record])
  | enter (points : s'.points = s.design.nextModule :: s.points) (instances : s'.instances = s.instances)
  | leave {id : ModuleId} (inside : s.points = id :: s'.points) (instances : s'.instances = s.instances)
  /-- The body is left, and its module is no longer there. -/
  | discard {id : ModuleId} (inside : s.points = id :: s'.points) (gone : ¬ s'.design.IsLive id)
      (instances : s'.instances = s.instances.filter (·.parent ≠ id))
  | rest (points : s'.points = s.points) (instances : s'.instances = s.instances)

theorem Edits.recounts (h : s.Edits s') : s.Recounts s' := by
  have hpoints := h.keeps.points_eq
  cases h with
  | register here found own instantiates parent begun inside callee numbered =>
      exact .register here numbered rfl rfl
  | append | annotate | name | warn => exact .rest hpoints rfl

theorem Moves.recounts (h : s.Moves catalog s') : s.Recounts s' := by
  cases h with
  | spoil takes warnings => exact .rest (congrArg Scopes.insertionPoints takes.scopes_eq) rfl
  | leaf unbound fits settled copied declares =>
      exact .rest (congrArg Scopes.insertionPoints fits.takes.scopes_eq) rfl
  | enter opens =>
      have hpoints := opens.points_eq
      cases opens
      exact .enter hpoints rfl
  | edit edits => exact edits.recounts
  | @finish d ds id ids values design running inside ends =>
      have hpoints : Session.points { s with design } = s.points :=
        congrArg Scopes.insertionPoints ends.scopes_eq
      have hleft : (Session.leave { s with design } d).points = ids :=
        Coherent.points_leave (hpoints.trans inside)
      exact .leave (inside.trans (congrArg (id :: ·) hleft.symm)) rfl
  | @discard d ds id ids running inside name =>
      have hleft : ((s.leave d).drop d name id).points = ids := Coherent.points_leave (d := d) inside
      refine .discard (inside.trans (congrArg (id :: ·) hleft.symm)) ?_ rfl
      rintro ⟨m, hm⟩
      rw [(s.leave d).module?_drop d name id id, if_pos rfl] at hm
      cases hm

/-! ### Modules that have been there before -/

end Session

/-- No position of the module table is given back, and none is taken a second time. -/
structure Design.Outlives (d d' : Design) : Prop where
  size_le : d.modules.size ≤ d'.modules.size
  live : ∀ id, id.index < d.modules.size → d'.IsLive id → d.IsLive id

theorem Design.Outlives.congr {d d' d'' : Design} (h : d.Outlives d') (hm : d''.modules = d'.modules) :
    d.Outlives d'' where
  size_le := hm ▸ h.size_le
  live id hlt := by
    rintro ⟨m, hm'⟩
    exact h.live id hlt ⟨m, (Design.module?_congr hm id).symm.trans hm'⟩

instance : IsPreorder Design Design.Outlives where
  refl _ := ⟨Nat.le_refl _, fun _ _ hlive => hlive⟩
  trans _ _ _ h h' := ⟨Nat.le_trans h.size_le h'.size_le, fun id hlt hlive =>
    h.live id hlt (h'.live id (Nat.lt_of_lt_of_le hlt h.size_le) hlive)⟩

namespace Session

variable {catalog : Catalog} {s s' : Session}

theorem Keeps.outlives {own : Option ModuleId} {depth : Nat} (h : Keeps own depth s s') :
    s.design.Outlives s'.design where
  size_le := h.size_le
  live id hlt := by
    rintro ⟨m, hm⟩
    obtain ⟨m', hm', _⟩ := Design.exists_module?_of_header? (h.header?_eq id hlt).symm hm
    exact ⟨m', hm'⟩

theorem Moves.outlives (h : s.Moves catalog s') : s.design.Outlives s'.design := by
  cases h with
  | spoil takes warnings => exact (keeps_of_takes takes).outlives
  | @leaf d name m design entry unbound fits settled copied declares => exact (fits.keeps d).outlives
  | @enter d name _ opens =>
      cases opens with
      | intro idle unbound original fits begun suits location clock =>
          exact (fits.keeps d).outlives.congr rfl
  | edit edits => exact edits.keeps.outlives
  | finish running inside ends => exact (keeps_of_appends ends 1).outlives.congr rfl
  | @discard d ds id ids running inside name =>
      refine ⟨Nat.le_of_eq Array.size_setIfInBounds.symm, fun j _ => ?_⟩
      rintro ⟨m, hm⟩
      rw [(s.leave d).module?_drop d name id j] at hm
      by_cases hj : j = id
      · rw [if_pos hj] at hm
        cases hm
      · rw [if_neg hj] at hm
        exact ⟨m, hm⟩

/-! ### Numbers within a body -/

/-- The records of instances outside of the modules. -/
def recordsOutside (s : Session) (ids : List ModuleId) : List InstanceRecord :=
  s.instances.filter (·.parent ∉ ids)

/-- Numbers of instances increase within each body.  In a body that is being built they remain below the number of
records that are left when the bodies within it are discarded. -/
structure Numbered (s : Session) : Prop where
  increasing : s.instances.Pairwise fun r q => r.parent = q.parent → r.id.index < q.id.index
  room : ∀ inner id outer, s.points = inner ++ id :: outer → ∀ r ∈ s.instances, r.parent = id →
    r.id.index < (s.recordsOutside inner).length

theorem numbered_ofConfig (config : Config) : (ofConfig config).Numbered where
  increasing := .nil
  room _ _ _ _ _ hr := absurd hr List.not_mem_nil

namespace Numbered

theorem congr (h : s.Numbered) (hpoints : s'.points = s.points) (hinstances : s'.instances = s.instances) :
    s'.Numbered where
  increasing := hinstances ▸ h.increasing
  room := by
    unfold recordsOutside
    rw [hpoints, hinstances]
    exact h.room

/-- The next number is above those of the body, and the bodies around it do not count the new record. -/
theorem register (h : s.Numbered) (hs : s.Coherent) {record : InstanceRecord}
    (here : s.here? = some record.parent) (numbered : record.id = ⟨s.instances.length⟩)
    (hpoints : s'.points = s.points) (hinstances : s'.instances = s.instances ++ [record]) : s'.Numbered := by
  obtain ⟨outer, inside⟩ := List.head?_eq_some_iff.mp here
  have hlast : ∀ r ∈ s.instances, r.parent = record.parent → r.id.index < record.id.index := by
    intro r hr hparent
    have hroom := h.room [] record.parent outer inside r hr hparent
    rw [numbered]
    exact Nat.lt_of_lt_of_le hroom (List.length_filter_le _ _)
  constructor
  case increasing =>
    rw [hinstances]
    refine List.pairwise_append.mpr ⟨h.increasing, List.pairwise_singleton _ _, ?_⟩
    intro r hr q hq
    obtain rfl := List.mem_singleton.mp hq
    exact hlast r hr
  case room =>
    intro inner id ids hid r hr hparent
    rw [hpoints] at hid
    rw [hinstances] at hr
    have hadds : (s'.recordsOutside inner).length =
        (s.recordsOutside inner).length + ([record].filter (·.parent ∉ inner)).length := by
      unfold recordsOutside
      rw [hinstances, List.filter_append, List.length_append]
    rw [hadds]
    rcases List.mem_append.mp hr with hold | hnew
    · exact Nat.lt_add_right _ (h.room inner id ids hid r hold hparent)
    · obtain rfl := List.mem_singleton.mp hnew
      -- The new record is in the innermost body, so there are none within it.
      obtain rfl : inner = [] := by
        cases inner with
        | nil => rfl
        | cons i inner =>
            have hnodup := hs.stacked.points_nodup
            obtain rfl : r.parent = i := (List.cons.inj (inside.symm.trans hid)).1
            rw [hid, List.cons_append, List.nodup_cons, hparent] at hnodup
            exact absurd (List.mem_append_right _ List.mem_cons_self) hnodup.1
      have hall : s.recordsOutside [] = s.instances := List.filter_eq_self.mpr fun _ _ => by simp
      rw [hall, numbered]
      simp

/-- There are no records of a body that has just been entered. -/
theorem enter (h : s.Numbered) (hs : s.Coherent) (hpoints : s'.points = s.design.nextModule :: s.points)
    (hinstances : s'.instances = s.instances) : s'.Numbered where
  increasing := hinstances ▸ h.increasing
  room := by
    intro inner id outer hid r hr hparent
    rw [hpoints] at hid
    rw [hinstances] at hr
    have hold : ∀ q ∈ s.instances, q.parent ≠ s.design.nextModule := by
      intro q hq
      obtain ⟨m, _, hm, _⟩ := (hs.placed q hq).1.parent
      exact Design.IsLive.ne_nextModule ⟨m, hm⟩
    cases inner with
    | nil => exact absurd (hparent.trans (List.cons.inj hid).1.symm) (hold r hr)
    | cons i inner =>
        obtain ⟨rfl, hinside⟩ := List.cons.inj hid
        have hsame : s'.recordsOutside (s.design.nextModule :: inner) = s.recordsOutside inner := by
          unfold recordsOutside
          rw [hinstances]
          refine List.filter_congr fun q hq => ?_
          simp [hold q hq]
        rw [hsame]
        exact h.room inner id outer hinside r hr hparent

theorem leave (h : s.Numbered) {id : ModuleId} (inside : s.points = id :: s'.points)
    (hinstances : s'.instances = s.instances) : s'.Numbered where
  increasing := hinstances ▸ h.increasing
  room := by
    intro inner j outer hj r hr hparent
    rw [hinstances] at hr
    have hroom := h.room (id :: inner) j outer (inside.trans (congrArg (id :: ·) hj)) r hr hparent
    refine Nat.lt_of_lt_of_le hroom (List.Sublist.length_le ?_)
    unfold recordsOutside
    rw [hinstances]
    refine List.monotone_filter_right _ fun q hq => ?_
    simp only [decide_eq_true_eq] at hq ⊢
    exact List.not_mem_of_not_mem_cons hq

/-- The records of a body that is discarded have not been counted for the bodies around it. -/
theorem discard (h : s.Numbered) {id : ModuleId} (inside : s.points = id :: s'.points)
    (hinstances : s'.instances = s.instances.filter (·.parent ≠ id)) : s'.Numbered where
  increasing := by
    rw [hinstances]
    exact h.increasing.filter _
  room := by
    intro inner j outer hj r hr hparent
    rw [hinstances] at hr
    have hroom := h.room (id :: inner) j outer (inside.trans (congrArg (id :: ·) hj)) r
      (List.mem_of_mem_filter hr) hparent
    have hsame : s'.recordsOutside inner = s.recordsOutside (id :: inner) := by
      unfold recordsOutside
      rw [hinstances, List.filter_filter]
      refine List.filter_congr fun q _ => ?_
      simp [Bool.and_comm]
    rwa [hsame]

/-- However a session changes, the numbers within each body increase. -/
theorem moves (h : s.Numbered) (hs : s.Coherent) (hmoves : s.Moves catalog s') : s'.Numbered := by
  cases hmoves.recounts with
  | register here numbered points instances => exact h.register hs here numbered points instances
  | enter points instances => exact h.enter hs points instances
  | leave inside instances => exact h.leave inside instances
  | discard inside gone instances => exact h.discard inside instances
  | rest points instances => exact h.congr points instances

end Numbered

/-! ### Numbers that stay in use -/

/-- No module has been taken out, and no position been left empty. -/
def Undisturbed (s : Session) : Prop :=
  ∀ id, id.index < s.design.modules.size → s.design.IsLive id

/-- The numbers of the records are their positions. -/
def Sequential (s : Session) : Prop :=
  s.instances.map (·.id.index) = List.range s.instances.length

/-- As long as no module is taken out, the numbers of the records are their positions. -/
theorem Moves.sequential (h : s.Undisturbed → s.Sequential) (hs : s.Coherent) (hmoves : s.Moves catalog s')
    (hs' : s'.Undisturbed) : s'.Sequential := by
  have houtlives := hmoves.outlives
  have hseq : s.Sequential :=
    h fun id hlt => houtlives.live id hlt (hs' id (Nat.lt_of_lt_of_le hlt houtlives.size_le))
  unfold Sequential at hseq ⊢
  cases hmoves.recounts with
  | register here numbered points instances =>
      rw [instances, List.map_append, hseq, List.length_append, List.map_singleton, List.length_singleton,
        numbered, List.range_succ]
  | enter _ instances | leave _ instances | rest _ instances => rwa [instances]
  | @discard id inside gone instances =>
      have hmem : id ∈ s.points := by
        rw [inside]
        exact List.mem_cons_self
      have hlt := (hs.isLive_of_mem_points hmem).lt_size
      exact absurd (hs' id (Nat.lt_of_lt_of_le hlt houtlives.size_le)) gone

/-- The session `s'` has gone on from the session `s`, and the bodies that are being built are those of `s` or
new. -/
structure Continues (s s' : Session) : Prop where
  outlives : s.design.Outlives s'.design
  points : ∀ id ∈ s'.points, id ∈ s.points ∨ s.design.modules.size ≤ id.index
  records : (∀ id ∈ s.points, s'.design.IsLive id) → s.instances <+: s'.instances

theorem Continues.moves {s₀ : Session} (h : s₀.Continues s) (hs₀ : s₀.Coherent)
    (hmoves : s.Moves catalog s') : s₀.Continues s' := by
  have houtlives := hmoves.outlives
  have hrecords : (∀ id ∈ s₀.points, s'.design.IsLive id) → s₀.instances <+: s.instances := by
    intro live
    refine h.records fun id hid => ?_
    have hlt := Nat.lt_of_lt_of_le (hs₀.isLive_of_mem_points hid).lt_size h.outlives.size_le
    exact houtlives.live id hlt (live id hid)
  refine ⟨trans_of Design.Outlives h.outlives houtlives, ?points, ?records⟩
  case points =>
    intro id hid
    cases hmoves.recounts with
    | register _ _ points | rest points => exact h.points id (points ▸ hid)
    | enter points =>
        rw [points] at hid
        rcases List.mem_cons.mp hid with rfl | hid
        · exact .inr h.outlives.size_le
        · exact h.points id hid
    | leave inside | discard inside =>
        exact h.points id (inside ▸ List.mem_cons_of_mem _ hid)
  case records =>
    intro live
    cases hmoves.recounts with
    | register _ _ _ instances =>
        rw [instances]
        exact (hrecords live).trans (List.prefix_append _ _)
    | enter _ instances | leave _ instances | rest _ instances =>
        rw [instances]
        exact hrecords live
    | @discard id inside gone instances =>
        -- The module that is taken out is new, and so are the records in it.
        have hkept : s₀.instances.filter (·.parent ≠ id) = s₀.instances := by
          refine List.filter_eq_self.mpr fun r hr => ?_
          obtain ⟨m, _, hm, _⟩ := (hs₀.placed r hr).1.parent
          rw [decide_eq_true_eq]
          rintro rfl
          rcases h.points r.parent (inside ▸ List.mem_cons_self) with hold | hnew
          · exact gone (live _ hold)
          · exact absurd (Design.lt_size_of_module? hm) (Nat.not_lt.mpr hnew)
        rw [instances, ← hkept]
        exact (hrecords live).filter _

/-- Records stay in use as long as none of the bodies is discarded that were being built. -/
theorem Goes.instances_prefix (h : Goes catalog s s') (hs : s.Coherent)
    (live : ∀ id ∈ s.points, s'.design.IsLive id) : s.instances <+: s'.instances := by
  have hfirst : s.Continues s := ⟨refl_of Design.Outlives _, fun _ => .inl, fun _ => List.prefix_rfl⟩
  exact (h.induct hs hfirst fun _ _ _ hgone hmoves => hgone.moves hs hmoves).2.records live

end Session

end Wirework
