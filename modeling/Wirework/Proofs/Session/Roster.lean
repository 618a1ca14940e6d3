import Wirework.Proofs.Design.Tables
import Wirework.Proofs.Names
import Wirework.Proofs.Sequences
import Wirework.Session

/-! # The roster of modules

A session keeps its modules in three tables besides the design: by definition, by record and by symbol.  A roster is
the agreement of the three on which modules are live and what their symbols are.  It survives the entry of a new
module under a fresh symbol (`Roster.add`) and the removal of a module from all tables (`Roster.remove`).

The roster only speaks of tables, so the two lemmas need nothing of how bodies are built. -/

namespace Wirework

/-! ### Rosters -/

/-- The tables list the modules that have a symbol, each of them once. -/
structure Roster (modules : List (DefId × ModuleId)) (records : List (ModuleId × ManifestEntry))
    (used : List String) (symbolOf? : ModuleId → Option String) : Prop where
  definitions_nodup : (modules.map (·.1)).Nodup
  modules_nodup : (modules.map (·.2)).Nodup
  mem_modules : ∀ id, id ∈ modules.map (·.2) ↔ ∃ symbol, symbolOf? id = some symbol
  records_nodup : (records.map (·.1)).Nodup
  mem_records : ∀ id, id ∈ records.map (·.1) ↔ ∃ symbol, symbolOf? id = some symbol
  record_symbol : ∀ id entry, (id, entry) ∈ records → symbolOf? id = some entry.symbol
  mem_symbols : ∀ symbol, symbol ∈ used ↔ ∃ id, symbolOf? id = some symbol
  symbols_inj : ∀ id id' symbol,
    symbolOf? id = some symbol → symbolOf? id' = some symbol → id = id'
  symbols_valid : ∀ id symbol, symbolOf? id = some symbol → Name.isValid symbol = true

namespace Roster

variable {modules : List (DefId × ModuleId)} {records : List (ModuleId × ManifestEntry)}
  {used : List String} {symbolOf? symbolOf?' : ModuleId → Option String} {d : DefId} {id : ModuleId}
  {symbol : String}

theorem empty : Roster [] [] [] fun _ => none where
  definitions_nodup := List.nodup_nil
  modules_nodup := List.nodup_nil
  mem_modules id := by simp
  records_nodup := List.nodup_nil
  mem_records id := by simp
  record_symbol id entry h := absurd h List.not_mem_nil
  mem_symbols symbol := by simp
  symbols_inj id id' symbol h := by cases h
  symbols_valid id symbol h := by cases h

theorem congr (h : Roster modules records used symbolOf?) (hs : ∀ id, symbolOf?' id = symbolOf? id) :
    Roster modules records used symbolOf?' := by
  rw [funext hs]
  exact h

theorem definition_inj (h : Roster modules records used symbolOf?) {d d' : DefId}
    (hd : (d, id) ∈ modules) (hd' : (d', id) ∈ modules) : d = d' :=
  congrArg Prod.fst (List.inj_on_of_nodup_map h.modules_nodup hd hd' rfl)

theorem add (h : Roster modules records used symbolOf?) (hd : d ∉ modules.map (·.1))
    (hid : symbolOf? id = none) (hused : symbol ∉ used) (hvalid : Name.isValid symbol = true)
    {entry : ManifestEntry} (hentry : entry.symbol = symbol)
    (hs : ∀ j, symbolOf?' j = if j = id then some symbol else symbolOf? j) :
    Roster ((d, id) :: modules) ((id, entry) :: records) (symbol :: used) symbolOf?' where
  definitions_nodup := List.nodup_cons.mpr ⟨hd, h.definitions_nodup⟩
  modules_nodup := by
    refine List.nodup_cons.mpr ⟨fun hmem => ?_, h.modules_nodup⟩
    obtain ⟨symbol', hsymbol'⟩ := (h.mem_modules id).mp hmem
    rw [hid] at hsymbol'
    cases hsymbol'
  mem_modules j := by
    rw [hs, List.map_cons, List.mem_cons, h.mem_modules]
    by_cases hj : j = id <;> simp [hj]
  records_nodup := by
    refine List.nodup_cons.mpr ⟨fun hmem => ?_, h.records_nodup⟩
    obtain ⟨symbol', hsymbol'⟩ := (h.mem_records id).mp hmem
    rw [hid] at hsymbol'
    cases hsymbol'
  mem_records j := by
    rw [hs, List.map_cons, List.mem_cons, h.mem_records]
    by_cases hj : j = id <;> simp [hj]
  record_symbol j entry' hmem := by
    rw [hs]
    rcases List.mem_cons.mp hmem with heq | hold
    · obtain ⟨rfl, rfl⟩ := Prod.mk.inj heq
      rw [if_pos rfl, hentry]
    · have hj := h.record_symbol j entry' hold
      rw [if_neg, hj]
      rintro rfl
      rw [hid] at hj
      cases hj
  mem_symbols symbol' := by
    rw [List.mem_cons, h.mem_symbols]
    constructor
    · rintro (rfl | ⟨j, hj⟩)
      · exact ⟨id, by rw [hs, if_pos rfl]⟩
      · refine ⟨j, ?_⟩
        rw [hs, if_neg, hj]
        rintro rfl
        rw [hid] at hj
        cases hj
    · rintro ⟨j, hj⟩
      rw [hs] at hj
      by_cases hjid : j = id
      · rw [if_pos hjid] at hj
        exact Or.inl (Option.some.inj hj).symm
      · rw [if_neg hjid] at hj
        exact Or.inr ⟨j, hj⟩
  symbols_inj j j' symbol' hj hj' := by
    rw [hs] at hj hj'
    by_cases hjid : j = id <;> by_cases hjid' : j' = id
    · rw [hjid, hjid']
    · rw [if_pos hjid] at hj
      rw [if_neg hjid'] at hj'
      obtain rfl := Option.some.inj hj
      exact absurd ((h.mem_symbols symbol).mpr ⟨j', hj'⟩) hused
    · rw [if_neg hjid] at hj
      rw [if_pos hjid'] at hj'
      obtain rfl := Option.some.inj hj'
      exact absurd ((h.mem_symbols symbol).mpr ⟨j, hj⟩) hused
    · rw [if_neg hjid] at hj
      rw [if_neg hjid'] at hj'
      exact h.symbols_inj j j' symbol' hj hj'
  symbols_valid j symbol' hj := by
    rw [hs] at hj
    by_cases hjid : j = id
    · rw [if_pos hjid] at hj
      obtain rfl := Option.some.inj hj
      exact hvalid
    · rw [if_neg hjid] at hj
      exact h.symbols_valid j symbol' hj

theorem remove (h : Roster modules records used symbolOf?) (hd : (d, id) ∈ modules)
    (hid : symbolOf? id = some symbol)
    (hs : ∀ j, symbolOf?' j = if j = id then none else symbolOf? j) :
    Roster (modules.filter (·.1 ≠ d)) (records.filter (·.1 ≠ id)) (used.filter (· ≠ symbol))
      symbolOf?' := by
  have hnew : ∀ j symbol', symbolOf?' j = some symbol' ↔ j ≠ id ∧ symbolOf? j = some symbol' := by
    intro j symbol'
    rw [hs]
    by_cases hj : j = id <;> simp [hj]
  have hother : ∀ e j, (e, j) ∈ modules → (e ≠ d ↔ j ≠ id) := by
    intro e j hmem
    refine not_congr ⟨?_, ?_⟩
    · rintro rfl
      exact congrArg Prod.snd (List.inj_on_of_nodup_map h.definitions_nodup hmem hd rfl)
    · rintro rfl
      exact h.definition_inj hmem hd
  constructor
  case definitions_nodup => exact h.definitions_nodup.sublist (List.filter_sublist.map _)
  case modules_nodup => exact h.modules_nodup.sublist (List.filter_sublist.map _)
  case records_nodup => exact h.records_nodup.sublist (List.filter_sublist.map _)
  case mem_modules =>
    intro j
    simp only [hnew, exists_and_left, ← h.mem_modules, List.mem_map, List.mem_filter,
      decide_eq_true_eq]
    constructor
    · rintro ⟨⟨e, j⟩, ⟨hmem, hne⟩, rfl⟩
      exact ⟨(hother e j hmem).mp hne, (e, j), hmem, rfl⟩
    · rintro ⟨hne, ⟨e, j⟩, hmem, rfl⟩
      exact ⟨(e, j), ⟨hmem, (hother e j hmem).mpr hne⟩, rfl⟩
  case mem_records =>
    intro j
    simp only [hnew, exists_and_left, ← h.mem_records, List.mem_map, List.mem_filter,
      decide_eq_true_eq]
    constructor
    · rintro ⟨⟨j, entry⟩, ⟨hmem, hne⟩, rfl⟩
      exact ⟨hne, (j, entry), hmem, rfl⟩
    · rintro ⟨hne, ⟨j, entry⟩, hmem, rfl⟩
      exact ⟨(j, entry), ⟨hmem, hne⟩, rfl⟩
  case record_symbol =>
    intro j entry hmem
    rw [List.mem_filter, decide_eq_true_eq] at hmem
    exact (hnew j entry.symbol).mpr ⟨hmem.2, h.record_symbol j entry hmem.1⟩
  case mem_symbols =>
    intro symbol'
    simp only [hnew, List.mem_filter, decide_eq_true_eq, h.mem_symbols]
    constructor
    · rintro ⟨⟨j, hj⟩, hne⟩
      refine ⟨j, ?_, hj⟩
      rintro rfl
      rw [hid] at hj
      exact hne (Option.some.inj hj).symm
    · rintro ⟨j, hne, hj⟩
      refine ⟨⟨j, hj⟩, ?_⟩
      rintro rfl
      exact hne (h.symbols_inj j id symbol' hj hid)
  case symbols_inj =>
    intro j j' symbol' hj hj'
    exact h.symbols_inj j j' symbol' ((hnew j symbol').mp hj).2 ((hnew j' symbol').mp hj').2
  case symbols_valid =>
    intro j symbol' hj
    exact h.symbols_valid j symbol' ((hnew j symbol').mp hj).2

end Roster

end Wirework
