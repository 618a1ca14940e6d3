import Mathlib.Data.List.Induction
import Mathlib.Data.List.Nodup
import Wirework.Attribute
import Wirework.Proofs.Sequences

/-! # Dictionaries

What inserting, collecting and filtering do to every look-up, and that they keep the entries in the order of their
names.

A dictionary in order is determined by its look-ups (`Dict.Sorted.ext`), so nothing later depends on how the entries
are stored.  Of collected entries with one name the later is found (`Dict.find?_ofList`); if the names are distinct
all entries are kept (`Dict.entries_ofList_perm`), so they are counted by the dictionary (`Dict.size_ofList`), and the
order in which they are collected does not matter (`Dict.ofList_perm`). -/

namespace Wirework.Dict

variable {α : Type} {d : Dict α} {name : String} {value : α} {entries : List (String × α)}

/-! ### Inserting -/

theorem insertEntry_perm (fresh : name ∉ entries.map (·.1)) :
    (insertEntry name value entries).Perm ((name, value) :: entries) := by
  induction entries with
  | nil => exact .refl _
  | cons entry rest ih =>
      rw [List.map_cons, List.mem_cons, not_or] at fresh
      unfold insertEntry
      by_cases hbefore : name < entry.1
      · rw [if_pos hbefore]
      · rw [if_neg hbefore, if_neg fresh.1]
        exact ((ih fresh.2).cons entry).trans (.swap _ _ _)

theorem mem_insertEntry {entry : String × α} (h : entry ∈ insertEntry name value entries) :
    entry.1 = name ∨ entry ∈ entries := by
  induction entries with
  | nil => exact .inl (congrArg (·.1) (List.mem_singleton.mp h))
  | cons first rest ih =>
      unfold insertEntry at h
      by_cases hbefore : name < first.1
      · rw [if_pos hbefore] at h
        exact (List.mem_cons.mp h).imp (congrArg Prod.fst) id
      · by_cases hsame : name = first.1
        · rw [if_neg hbefore, if_pos hsame] at h
          exact (List.mem_cons.mp h).imp (congrArg Prod.fst) (List.mem_cons_of_mem first)
        · rw [if_neg hbefore, if_neg hsame] at h
          rcases List.mem_cons.mp h with rfl | h
          · exact .inr List.mem_cons_self
          · exact (ih h).imp id (List.mem_cons_of_mem first)

theorem Sorted.insert (h : d.Sorted) (name : String) (value : α) : (d.insert name value).Sorted := by
  obtain ⟨entries⟩ := d
  change (insertEntry name value entries).Pairwise fun a b => a.1 < b.1
  induction entries with
  | nil => exact List.pairwise_singleton _ _
  | cons first rest ih =>
      obtain ⟨hfirst, hrest⟩ := List.pairwise_cons.mp h
      unfold insertEntry
      by_cases hbefore : name < first.1
      · rw [if_pos hbefore]
        refine List.pairwise_cons.mpr ⟨?_, h⟩
        exact List.forall_mem_cons.mpr ⟨hbefore, fun entry he => String.lt_trans hbefore (hfirst entry he)⟩
      · by_cases hsame : name = first.1
        · rw [if_neg hbefore, if_pos hsame]
          exact List.pairwise_cons.mpr ⟨fun entry he => hsame ▸ hfirst entry he, hrest⟩
        · rw [if_neg hbefore, if_neg hsame]
          have hafter : first.1 < name := Std.lt_of_le_of_ne (Std.not_lt.mp hbefore) (Ne.symm hsame)
          refine List.pairwise_cons.mpr ⟨fun entry he => ?_, ih hrest⟩
          rcases mem_insertEntry he with rfl | he
          · exact hafter
          · exact hfirst entry he

theorem find?_insert (d : Dict α) (name : String) (value : α) (k : String) :
    (d.insert name value).find? k = if k = name then some value else d.find? k := by
  obtain ⟨entries⟩ := d
  change (insertEntry name value entries).lookup k = if k = name then some value else entries.lookup k
  have hfront : ∀ rest : List (String × α), ((name, value) :: rest).lookup k =
      if k = name then some value else rest.lookup k := by
    intro rest
    by_cases hk : k = name
    · rw [if_pos hk, hk, List.lookup_cons_self]
    · rw [if_neg hk, lookup_cons_ne hk]
  induction entries with
  | nil => exact hfront []
  | cons first rest ih =>
      unfold insertEntry
      by_cases hbefore : name < first.1
      · rw [if_pos hbefore, hfront]
      · by_cases hsame : name = first.1
        · rw [if_neg hbefore, if_pos hsame, hfront]
          by_cases hk : k = name
          · rw [if_pos hk, if_pos hk]
          · rw [if_neg hk, if_neg hk, lookup_cons_ne (hsame ▸ hk)]
        · rw [if_neg hbefore, if_neg hsame]
          by_cases hk : k = first.1
          · subst hk
            rw [List.lookup_cons, List.lookup_cons, beq_self_eq_true, if_neg (Ne.symm hsame)]
          · rw [lookup_cons_ne hk, lookup_cons_ne hk, ih]

/-! ### Names -/

theorem mem_names_iff : name ∈ d.names ↔ (d.find? name).isSome :=
  lookup_isSome_iff_mem.symm

theorem contains_iff : d.contains name = true ↔ name ∈ d.names :=
  mem_names_iff.symm

theorem mem_names_insert {k : String} : k ∈ (d.insert name value).names ↔ k = name ∨ k ∈ d.names := by
  rw [mem_names_iff, mem_names_iff, find?_insert]
  by_cases hk : k = name
  · rw [if_pos hk]
    exact iff_of_true rfl (.inl hk)
  · rw [if_neg hk, or_iff_right hk]

theorem Sorted.nodup_names (h : d.Sorted) : d.names.Nodup := by
  refine List.pairwise_map.mpr (h.imp fun hlt heq => ?_)
  exact String.lt_irrefl _ (heq ▸ hlt)

/-- Dictionaries in order are equal if their look-ups are. -/
theorem Sorted.ext {d' : Dict α} (h : d.Sorted) (h' : d'.Sorted) (hfind : ∀ k, d.find? k = d'.find? k) :
    d = d' := by
  have hmem : ∀ entry, entry ∈ d.entries ↔ entry ∈ d'.entries := by
    rintro ⟨k, v⟩
    rw [← lookup_eq_some_iff_mem h.nodup_names, ← lookup_eq_some_iff_mem h'.nodup_names]
    exact Eq.congr_left (hfind k)
  have hperm : d.entries.Perm d'.entries :=
    (List.perm_ext_iff_of_nodup (h.nodup_names.of_map _) (h'.nodup_names.of_map _)).mpr hmem
  have hentries : d.entries = d'.entries :=
    hperm.eq_of_pairwise (fun a b _ _ hab hba => absurd (String.lt_trans hab hba) (String.lt_irrefl _)) h h'
  obtain ⟨entries⟩ := d
  exact congrArg Dict.mk hentries

/-! ### Collecting -/

theorem ofList_append_singleton (entries : List (String × α)) (name : String) (value : α) :
    ofList (entries ++ [(name, value)]) = (ofList entries).insert name value := by
  unfold ofList
  rw [List.foldl_append]
  rfl

theorem sorted_ofList (entries : List (String × α)) : (ofList entries).Sorted := by
  induction entries using List.reverseRecOn with
  | nil => exact .nil
  | append_singleton entries entry ih =>
      rw [ofList_append_singleton]
      exact ih.insert _ _

theorem find?_ofList (entries : List (String × α)) (k : String) :
    (ofList entries).find? k = entries.reverse.lookup k := by
  induction entries using List.reverseRecOn with
  | nil => rfl
  | append_singleton entries entry ih =>
      rw [ofList_append_singleton, find?_insert, List.reverse_concat, ih]
      by_cases hk : k = entry.1
      · rw [if_pos hk, hk, List.lookup_cons_self]
      · rw [if_neg hk, lookup_cons_ne hk]

theorem find?_ofList_of_nodup (h : (entries.map (·.1)).Nodup) (k : String) :
    (ofList entries).find? k = entries.lookup k := by
  rw [find?_ofList]
  exact lookup_perm h entries.reverse_perm.symm

theorem mem_names_ofList : name ∈ (ofList entries).names ↔ name ∈ entries.map (·.1) := by
  rw [mem_names_iff, find?_ofList, lookup_isSome_iff_mem, List.map_reverse, List.mem_reverse]

theorem entries_ofList_perm (h : (entries.map (·.1)).Nodup) : (ofList entries).entries.Perm entries := by
  induction entries using List.reverseRecOn with
  | nil => exact .refl _
  | append_singleton entries entry ih =>
      rw [List.map_append, List.map_singleton, ← List.concat_eq_append, List.nodup_concat] at h
      have fresh : entry.1 ∉ (ofList entries).entries.map (·.1) := fun hmem => h.1 (mem_names_ofList.mp hmem)
      rw [ofList_append_singleton]
      exact (insertEntry_perm fresh).trans (((ih h.2).cons entry).trans (List.perm_append_singleton entry entries).symm)

theorem size_ofList (h : (entries.map (·.1)).Nodup) : (ofList entries).size = entries.length :=
  (entries_ofList_perm h).length_eq

/-- The order of entries with distinct names does not matter. -/
theorem ofList_perm {entries' : List (String × α)} (h : (entries.map (·.1)).Nodup) (hperm : entries.Perm entries') :
    ofList entries' = ofList entries := by
  refine (sorted_ofList _).ext (sorted_ofList _) fun k => ?_
  rw [find?_ofList_of_nodup h, find?_ofList_of_nodup ((hperm.map (·.1)).nodup_iff.mp h)]
  exact lookup_perm h hperm

/-! ### Filtering -/

theorem Sorted.filterNames (h : d.Sorted) (keep : String → Bool) : (d.filterNames keep).Sorted :=
  h.filter _

theorem find?_filterNames (keep : String → Bool) (k : String) :
    (d.filterNames keep).find? k = if keep k then d.find? k else none := by
  obtain ⟨entries⟩ := d
  change (entries.filter fun entry => keep entry.1).lookup k = if keep k then entries.lookup k else none
  induction entries with
  | nil => exact (ite_self none).symm
  | cons entry rest ih =>
      rw [List.filter_cons]
      by_cases hk : k = entry.1
      · subst hk
        rw [List.lookup_cons_self]
        cases hkeep : keep entry.1 with
        | false => rw [if_neg Bool.false_ne_true, ih, hkeep]; rfl
        | true => rw [if_pos rfl, List.lookup_cons_self]; rfl
      · rw [lookup_cons_ne hk, ← ih]
        cases keep entry.1 with
        | false => rfl
        | true => exact lookup_cons_ne hk

end Wirework.Dict
