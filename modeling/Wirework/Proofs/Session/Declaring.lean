import Wirework.Proofs.Session.Numbering

/-! # Parameters of external modules

An external module declares its parameters once and for all when it is made, from the values that are recorded with it
or as the module does that it copies (`Session.Declared`).  No change of a session touches such a declaration or the
record (`Declared.moves`): external modules have no bodies, so nothing is appended to them; a module that is made
takes a new position, with a record of its own; and a module that is discarded is gone with its record.

A record stays as it is for as long as its module is there (`Goes.keeps_record`), whatever the parameters of the
definition are by then. -/

namespace Wirework

theorem Design.Appends.module?_external {d d' : Design} {parent id : ModuleId}
    {operation : Operation ModuleId ValueId} {m : HwModule} {declared : List ParameterDecl}
    (h : d.Appends parent operation d') (hm : d'.module? id = some m) (hkind : m.kind = .external declared) :
    d.module? id = some m := by
  by_cases hid : id = parent
  · obtain ⟨_, _, _, _, _, hself⟩ := h.module?_self
    subst hid
    obtain rfl := Option.some.inj (hself.symm.trans hm)
    cases hkind
  · exact (h.module?_ne hid).symm.trans hm

namespace Session

variable {catalog : Catalog} {s s' : Session}

/-- External modules declare the parameters that their definitions demand, given the values recorded with them. -/
def Declared (s : Session) (catalog : Catalog) : Prop :=
  ∀ d id m declared, (d, id) ∈ s.modules → s.design.module? id = some m → m.kind = .external declared →
    ∃ entry, (id, entry) ∈ s.records ∧ catalog.declares d entry.parameters declared

theorem declared_ofConfig (config : Config) (catalog : Catalog) : (ofConfig config).Declared catalog :=
  fun _ _ _ _ hmem => absurd hmem List.not_mem_nil

namespace Declared

/-- External modules are among those there were, and so are their records. -/
theorem mono (h : s.Declared catalog) (hmodules : s'.modules ⊆ s.modules)
    (hmodule : ∀ id m declared, s'.design.module? id = some m → m.kind = .external declared →
      s.design.module? id = some m)
    (hrecords : ∀ id entry, s'.design.IsLive id → (id, entry) ∈ s.records → (id, entry) ∈ s'.records) :
    s'.Declared catalog := by
  intro d id m declared hmem hm hkind
  obtain ⟨entry, hentry, hdeclares⟩ :=
    h d id m declared (hmodules hmem) (hmodule id m declared hm hkind) hkind
  exact ⟨entry, hrecords id entry ⟨m, hm⟩ hentry, hdeclares⟩

theorem enroll (h : s.Declared catalog) (hs : s.Coherent) {d : DefId} {name : String} {m : HwModule}
    {design : Design} {entry : ManifestEntry} (fits : s.Fits name m design entry)
    (declares : ∀ declared, m.kind = .external declared → catalog.declares d entry.parameters declared) :
    (s.enroll d m design entry).Declared catalog := by
  intro e id n declared hmem hn hkind
  rcases List.mem_cons.mp hmem with hnew | hold
  · obtain ⟨rfl, rfl⟩ := Prod.mk.inj hnew
    obtain rfl := Option.some.inj (fits.takes.module?_next.symm.trans hn)
    exact ⟨entry, List.mem_cons_self, declares declared hkind⟩
  · have hne := (hs.isLive_iff.mpr ⟨e, hold⟩).ne_nextModule
    obtain ⟨entry', hentry, hdeclares⟩ :=
      h e id n declared hold ((fits.takes.module?_old id hne).symm.trans hn) hkind
    exact ⟨entry', List.mem_cons_of_mem _ hentry, hdeclares⟩

theorem edits (h : s.Declared catalog) (hedits : s.Edits s') : s'.Declared catalog := by
  cases hedits with
  | append here appends goesOn callee clocked =>
      exact h.mono (List.Subset.refl _) (fun _ _ _ hm hkind => appends.module?_external hm hkind)
        fun _ _ _ hentry => hentry
  | annotate | name | register | warn => exact h

theorem discard (h : s.Declared catalog) (d : DefId) (name : String) (id : ModuleId) :
    ((s.leave d).drop d name id).Declared catalog := by
  have hmodule := (s.leave d).module?_drop d name id
  have hlive : ∀ j m, ((s.leave d).drop d name id).design.module? j = some m →
      j ≠ id ∧ s.design.module? j = some m := by
    intro j m hm
    rw [hmodule] at hm
    by_cases hj : j = id
    · rw [if_pos hj] at hm
      cases hm
    · rw [if_neg hj] at hm
      exact ⟨hj, hm⟩
  refine h.mono (List.filter_subset_self _) (fun j m _ hm _ => (hlive j m hm).2) ?_
  rintro j entry ⟨m, hm⟩ hentry
  exact List.mem_filter.mpr ⟨hentry, by simpa using (hlive j m hm).1⟩

/-- No change of a session touches the declarations of external modules. -/
theorem moves (h : s.Declared catalog) (hs : s.Coherent) (hmoves : s.Moves catalog s') :
    s'.Declared catalog := by
  cases hmoves with
  | spoil takes warnings =>
      refine h.mono (List.Subset.refl _) (fun id m _ hm _ => ?_) fun _ _ _ hentry => hentry
      by_cases hid : id = s.design.nextModule
      · rw [hid, takes.module?_next] at hm
        cases hm
      · exact (takes.module?_old id hid).symm.trans hm
  | leaf unbound fits settled copied declares => exact h.enroll hs fits declares
  | @enter d name _ opens =>
      cases opens with
      | @intro m design entry arguments idle unbound original fits begun suits location clock clocked =>
          have hbody := HwModule.body?_eq_some_iff.mp begun
          have henrolled : (s.enroll d m design entry).Declared catalog :=
            h.enroll hs fits fun _ hkind => (by cases hkind.symm.trans hbody)
          exact henrolled
  | edit edits => exact h.edits edits
  | finish running inside ends =>
      exact h.mono (List.Subset.refl _) (fun _ _ _ hm hkind => ends.module?_external hm hkind)
        fun _ _ _ hentry => hentry
  | discard running inside name => exact h.discard _ name _

end Declared

/-! ### Records of modules -/

variable {id : ModuleId} {entry : ManifestEntry}

theorem Moves.keeps_record (h : s.Moves catalog s') (hentry : (id, entry) ∈ s.records)
    (live : s'.design.IsLive id) : (id, entry) ∈ s'.records := by
  cases h with
  | spoil | finish => exact hentry
  | leaf => exact List.mem_cons_of_mem _ hentry
  | enter opens =>
      cases opens
      exact List.mem_cons_of_mem _ hentry
  | edit edits => cases edits <;> exact hentry
  | @discard d ds gone ids running inside name =>
      refine List.mem_filter.mpr ⟨hentry, ?_⟩
      obtain ⟨m, hm⟩ := live
      rw [(s.leave d).module?_drop d name gone id] at hm
      by_cases hid : id = gone
      · rw [if_pos hid] at hm
        cases hm
      · simpa using hid

theorem Goes.keeps_record (h : Goes catalog s s') (hs : s.Coherent) (hentry : (id, entry) ∈ s.records)
    (live : s'.design.IsLive id) : (id, entry) ∈ s'.records := by
  obtain ⟨symbol, hsymbol⟩ := (hs.roster.mem_records id).mp (List.mem_map_of_mem hentry)
  obtain ⟨m, hm, -⟩ := Design.symbolOf?_eq_some_iff.mp hsymbol
  -- A module that is there has been there all the time, since no position is taken a second time.
  have hkept := h.induct (I := fun s₁ => s.design.Outlives s₁.design ∧
    (s₁.design.IsLive id → (id, entry) ∈ s₁.records)) hs ⟨refl_of Design.Outlives _, fun _ => hentry⟩
  obtain ⟨-, -, hkept⟩ := hkept fun s₁ s₂ _ ⟨houtlives, hkept⟩ hmoves => by
    have hlt := Nat.lt_of_lt_of_le (Design.lt_size_of_module? hm) houtlives.size_le
    exact ⟨trans_of Design.Outlives houtlives hmoves.outlives, fun live =>
      hmoves.keeps_record (hkept (hmoves.outlives.live id hlt live)) live⟩
  exact hkept live

end Session

end Wirework
