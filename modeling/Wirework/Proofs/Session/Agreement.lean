import Wirework.Proofs.Session.Coherence

/-! # Agreement of the tables

A session has several views of its modules: by definition, by symbol, by record, and the list of instances, beside the
tables of the design itself.  The design finds modules by their position.

What these views say of one another follows from the coherence of the session, by going from each view to the roster
of modules and from there to the next (`Coherent.tablesAgree`).  A symbol leads to one module only, since the symbols
of live modules are distinct (`Coherent.symbols_distinct`), and a record that is found by a symbol is therefore that
of the module (`Coherent.recordOfSymbol?_eq`). -/

namespace Wirework

theorem length_filter_le_one {α β : Type} [DecidableEq β] {f : α → β} {l : List α}
    (h : (l.map f).Nodup) (b : β) : (l.filter (f · = b)).length ≤ 1 := by
  induction l with
  | nil => exact Nat.zero_le 1
  | cons a l ih =>
      obtain ⟨hnot, hl⟩ := List.nodup_cons.mp h
      by_cases ha : f a = b
      · have hnone : l.filter (f · = b) = [] := by
          refine List.filter_eq_nil_iff.mpr fun x hx hxb => hnot ?_
          rw [ha, ← of_decide_eq_true hxb]
          exact List.mem_map_of_mem hx
        rw [List.filter_cons_of_pos (by simpa using ha), hnone]
        exact Nat.le_refl 1
      · rw [List.filter_cons_of_neg (by simpa using ha)]
        exact ih hl

namespace Session

/-- The tables of a session agree with each other and with its design. -/
structure TablesAgree (s : Session) : Prop where
  /-- No two definitions share a module. -/
  modules_injective : ∀ d d' id, s.moduleOf? d = some id → s.moduleOf? d' = some id → d = d'
  /-- The modules of definitions are the live modules. -/
  modules_range : ∀ id, (∃ d, s.moduleOf? d = some id) ↔ s.design.IsLive id
  /-- The modules with a record are the live modules. -/
  records_keys : ∀ id, (∃ entry, s.record? id = some entry) ↔ s.design.IsLive id
  records_nodup : (s.records.map (·.1)).Nodup
  records_symbol : ∀ id entry, s.record? id = some entry →
    ∃ m, s.design.module? id = some m ∧ entry.symbol = m.symbol
  /-- The symbols in use are those of the live modules. -/
  symbols_used : ∀ symbol, s.symbols.contains symbol = true ↔
    ∃ id m, s.design.module? id = some m ∧ m.symbol = symbol
  symbols_distinct : ∀ id id' m m', s.design.module? id = some m → s.design.module? id' = some m' →
    m.symbol = m'.symbol → id = id'
  symbols_valid : ∀ id m, s.design.module? id = some m → Name.isValid m.symbol = true
  /-- A symbol is that of one live module and one record at most, which are found by it. -/
  module_of_symbol : ∀ symbol,
    (s.design.liveModules.filter (·.2.symbol = symbol)).length ≤ 1
  record_of_symbol : ∀ symbol, (s.records.filter (·.2.symbol = symbol)).length ≤ 1
  find_symbol : ∀ id m, s.design.module? id = some m → s.design.find? m.symbol = some id
  find_record : ∀ id m, s.design.module? id = some m → s.recordOfSymbol? m.symbol = s.record? id
  /-- The manifest lists the record of every live module once, in the order of their creation. -/
  manifest : List.Forall₂ (fun entry record => s.record? entry.1 = some record ∧
    record.symbol = entry.2.symbol) s.design.liveModules s.manifest
  creation_order : s.design.liveModules.Pairwise fun a b => a.1.index < b.1.index
  /-- Every recorded instance stands in the body of a live module and instantiates a live module. -/
  instances : ∀ r ∈ s.instances, s.design.Places r

variable {s : Session}

theorem Coherent.record?_eq_some_iff (h : s.Coherent) {id : ModuleId} {entry : ManifestEntry} :
    s.record? id = some entry ↔ (id, entry) ∈ s.records :=
  lookup_eq_some_iff_mem h.roster.records_nodup

theorem Coherent.record?_of_live (h : s.Coherent) {id : ModuleId} {m : HwModule}
    (hm : s.design.module? id = some m) :
    ∃ entry, s.record? id = some entry ∧ entry.symbol = m.symbol := by
  have hsymbol : s.design.symbolOf? id = some m.symbol :=
    Design.symbolOf?_eq_some_iff.mpr ⟨m, hm, rfl⟩
  obtain ⟨⟨_, entry⟩, hmem, rfl⟩ := List.mem_map.mp ((h.roster.mem_records id).mpr ⟨_, hsymbol⟩)
  have hentry := h.roster.record_symbol _ entry hmem
  rw [hsymbol] at hentry
  exact ⟨entry, h.record?_eq_some_iff.mpr hmem, (Option.some.inj hentry).symm⟩

theorem Coherent.symbols_distinct (h : s.Coherent) {id id' : ModuleId} {m m' : HwModule}
    (hm : s.design.module? id = some m) (hm' : s.design.module? id' = some m')
    (hsymbol : m.symbol = m'.symbol) : id = id' :=
  h.roster.symbols_inj id id' m.symbol (Design.symbolOf?_eq_some_iff.mpr ⟨m, hm, rfl⟩)
    (Design.symbolOf?_eq_some_iff.mpr ⟨m', hm', hsymbol.symm⟩)

theorem Coherent.recordOfSymbol?_eq (h : s.Coherent) {id : ModuleId} {m : HwModule}
    (hm : s.design.module? id = some m) : s.recordOfSymbol? m.symbol = s.record? id := by
  obtain ⟨entry, hentry, hsymbol⟩ := h.record?_of_live hm
  unfold recordOfSymbol?
  cases hfind : s.records.find? fun found => found.2.symbol = m.symbol with
  | none =>
      have hnone := List.find?_eq_none.mp hfind (id, entry) (h.record?_eq_some_iff.mp hentry)
      exact absurd (decide_eq_true hsymbol) hnone
  | some found =>
      have hmem := List.mem_of_find?_eq_some hfind
      have hfound : found.2.symbol = m.symbol := by simpa using List.find?_some hfind
      obtain ⟨m', hm', hsymbol'⟩ := Design.symbolOf?_eq_some_iff.mp
        (h.roster.record_symbol found.1 found.2 hmem)
      rw [← h.symbols_distinct hm' hm (hsymbol'.trans hfound)]
      exact (h.record?_eq_some_iff.mpr hmem).symm

/-- The tables of a coherent session agree. -/
theorem Coherent.tablesAgree (h : s.Coherent) : s.TablesAgree where
  modules_injective d d' id hd hd' :=
    h.roster.definition_inj (h.moduleOf?_eq_some_iff.mp hd) (h.moduleOf?_eq_some_iff.mp hd')
  modules_range id := by
    simp only [h.moduleOf?_eq_some_iff]
    exact h.isLive_iff.symm
  records_keys id := by
    constructor
    · rintro ⟨entry, hentry⟩
      obtain ⟨m, hm, _⟩ := Design.symbolOf?_eq_some_iff.mp
        (h.roster.record_symbol id entry (h.record?_eq_some_iff.mp hentry))
      exact ⟨m, hm⟩
    · rintro ⟨m, hm⟩
      obtain ⟨entry, hentry, _⟩ := h.record?_of_live hm
      exact ⟨entry, hentry⟩
  records_nodup := h.roster.records_nodup
  records_symbol id entry hentry := by
    obtain ⟨m, hm, hsymbol⟩ := Design.symbolOf?_eq_some_iff.mp
      (h.roster.record_symbol id entry (h.record?_eq_some_iff.mp hentry))
    exact ⟨m, hm, hsymbol.symm⟩
  symbols_used symbol := by
    unfold NameScope.contains
    rw [List.contains_iff_mem, h.roster.mem_symbols]
    simp only [Design.symbolOf?_eq_some_iff]
  symbols_distinct id id' m m' := h.symbols_distinct
  symbols_valid id m hm :=
    h.roster.symbols_valid id m.symbol (Design.symbolOf?_eq_some_iff.mpr ⟨m, hm, rfl⟩)
  module_of_symbol symbol := by
    refine length_filter_le_one (f := fun entry : ModuleId × HwModule => entry.2.symbol) ?_ symbol
    refine List.pairwise_map.mpr (s.design.liveModules_sorted.imp_of_mem ?_)
    rintro ⟨id, m⟩ ⟨id', m'⟩ hm hm' hlt hsymbol
    obtain rfl := h.symbols_distinct (Design.mem_liveModules.mp hm) (Design.mem_liveModules.mp hm')
      hsymbol
    exact Nat.lt_irrefl _ hlt
  record_of_symbol symbol := by
    refine length_filter_le_one (f := fun entry : ModuleId × ManifestEntry => entry.2.symbol) ?_
      symbol
    refine List.pairwise_map.mpr ((List.pairwise_map.mp h.roster.records_nodup).imp_of_mem ?_)
    rintro ⟨id, entry⟩ ⟨id', entry'⟩ hentry hentry' hne hsymbol
    have hid := h.roster.record_symbol id entry hentry
    have hid' := h.roster.record_symbol id' entry' hentry'
    rw [← hsymbol] at hid'
    exact hne (h.roster.symbols_inj id id' _ hid hid')
  find_symbol id m hm := by
    cases hfind : s.design.find? m.symbol with
    | none => exact absurd rfl (Design.find?_eq_none.mp hfind id m hm)
    | some id' =>
        obtain ⟨m', hm', hsymbol⟩ := Design.find?_eq_some hfind
        rw [h.symbols_distinct hm' hm hsymbol]
  find_record id m hm := h.recordOfSymbol?_eq hm
  manifest := by
    refine forall₂_filterMap fun entry hmem => ?_
    obtain ⟨record, hrecord, hsymbol⟩ := h.record?_of_live (Design.mem_liveModules.mp hmem)
    exact ⟨record, hrecord, hrecord, hsymbol⟩
  creation_order := s.design.liveModules_sorted
  instances r hr := (h.placed r hr).1

end Session

end Wirework
