import Mathlib.Data.List.Nodup
import Mathlib.Data.List.Perm.Subperm
import Wirework.Name

/-! # Fresh names

A scope always has a free spelling of a requested name among the spellings it tries, since these are pairwise
different (`candidate_injective`) and more than there are names in use.  The name it hands out is therefore not in use
(`uniquify_not_mem`), and it is valid if the requested one is (`uniquify_valid`).

The second part is about histories.  A scope looks for a fresh name one spelling after another (`Seeks`); the search
has one outcome only (`Seeks.unique`), the first spelling that is free (`seeks_firstFree`).  `run` makes calls that
take names and give back names, in any order.  A name that is given back need not have been handed out, and one that
is requested may look like a spelling of another.  What a history has handed out and not taken back since (`held`) is
accounted for by induction on the calls (`run_accounts`): these names are pairwise different, they are in use, and
besides them only names are in use that were so at the start (`fresh_names_apart`). -/

namespace Wirework

/-! ## Fresh names -/

/-! ### Numbers within names -/

namespace Name

theorem isDigit_of_isDigit {c : Char} (h : c.isDigit = true) : isDigit c = true := by
  unfold Char.isDigit at h
  unfold isDigit
  rw [Bool.and_eq_true, decide_eq_true_eq, decide_eq_true_eq] at h ⊢
  exact h

theorem isSubsequent_of_mem_repr {n : Nat} {c : Char} (h : c ∈ n.repr.toList) :
    isSubsequent c = true := by
  rw [Nat.toList_repr] at h
  have hd := isDigit_of_isDigit (Nat.isDigit_of_mem_toDigits (by omega) (by omega) h)
  unfold isSubsequent isWordChar
  rw [hd, Bool.or_true, Bool.true_or]

theorem isValid_append {name suffix : String} (h : isValid name = true)
    (hs : ∀ c ∈ suffix.toList, isSubsequent c = true) : isValid (name ++ suffix) = true := by
  unfold isValid at h ⊢
  rw [String.toList_append]
  cases hn : name.toList with
  | nil => rw [hn] at h; cases h
  | cons c rest =>
      rw [hn] at h
      simp only [Bool.and_eq_true] at h
      simp only [List.cons_append, List.all_append, Bool.and_eq_true]
      exact ⟨h.1, h.2, List.all_eq_true.mpr hs⟩

end Name

theorem repr_injective {m n : Nat} (h : m.repr = n.repr) : m = n := by
  have hd : Nat.toDigits 10 m = Nat.toDigits 10 n := by
    rw [← Nat.toList_repr, ← Nat.toList_repr, h]
  rw [← Nat.ofDigitChars_ten_toDigits (n := m), ← Nat.ofDigitChars_ten_toDigits (n := n), hd]

namespace NameScope

/-! ### Spellings of a name -/

theorem candidate_succ_ne (name : String) (n : Nat) : candidate name (n + 1) ≠ name := by
  intro h
  have hl := congrArg String.length h
  simp only [candidate, String.length_append] at hl
  have : "_".length = 1 := rfl
  omega

theorem candidate_injective (name : String) : Function.Injective (candidate name) := by
  intro m n h
  cases m with
  | zero =>
      cases n with
      | zero => rfl
      | succ n => exact absurd h.symm (candidate_succ_ne name n)
  | succ m =>
      cases n with
      | zero => exact absurd h (candidate_succ_ne name m)
      | succ n =>
          simp only [candidate, Nat.toString_eq_repr] at h
          exact repr_injective (String.append_right_inj _ |>.mp h)

theorem candidate_valid {name : String} (h : Name.isValid name = true) (n : Nat) :
    Name.isValid (candidate name n) = true := by
  cases n with
  | zero => exact h
  | succ n =>
      have hu : Name.isValid (name ++ "_") = true := by
        refine Name.isValid_append h fun c hc => ?_
        obtain rfl : c = '_' := by simpa using hc
        rfl
      exact Name.isValid_append hu fun c hc => Name.isSubsequent_of_mem_repr hc

/-! ### Names handed out -/

variable (scope : NameScope) (name : String)

theorem exists_free : ∃ n ∈ List.range (scope.used.length + 1),
    scope.contains (candidate name n) = false := by
  by_contra hall
  have hsub : (List.range (scope.used.length + 1)).map (candidate name) ⊆ scope.used := by
    intro x hx
    obtain ⟨n, hn, rfl⟩ := List.mem_map.mp hx
    by_contra hfree
    refine hall ⟨n, hn, ?_⟩
    unfold contains
    simpa using hfree
  have hnodup : ((List.range (scope.used.length + 1)).map (candidate name)).Nodup :=
    List.nodup_range.map (candidate_injective name)
  have hle := (hnodup.subperm hsub).length_le
  rw [List.length_map, List.length_range] at hle
  omega

theorem firstFree_spec : candidate name (scope.firstFree name) ∉ scope.used ∧
    ∀ k < scope.firstFree name, candidate name k ∈ scope.used := by
  obtain ⟨n, hn, hfree⟩ := scope.exists_free name
  have hsome : ((List.range (scope.used.length + 1)).find?
      fun n => !scope.contains (candidate name n)).isSome := by
    rw [List.find?_isSome]
    exact ⟨n, hn, by rw [hfree]; rfl⟩
  obtain ⟨k, hk⟩ := Option.isSome_iff_exists.mp hsome
  obtain ⟨hkfree, _, hbefore⟩ := List.find?_range_eq_some.mp hk
  unfold firstFree
  rw [hk, Option.getD_some]
  simp only [contains, Bool.not_not, List.contains_iff_mem] at hbefore
  exact ⟨by simpa [contains] using hkfree, hbefore⟩

/-- The name that a scope hands out is not in use. -/
theorem uniquify_not_mem : (scope.uniquify name).1 ∉ scope.used :=
  (scope.firstFree_spec name).1

theorem uniquify_valid {name : String} (h : Name.isValid name = true) :
    Name.isValid (scope.uniquify name).1 = true :=
  candidate_valid h _

theorem uniquify_used : (scope.uniquify name).2.used = (scope.uniquify name).1 :: scope.used := rfl

theorem release_uniquify :
    (scope.uniquify name).2.release (scope.uniquify name).1 = scope := by
  have hnot := scope.uniquify_not_mem name
  unfold release
  rw [uniquify_used, List.filter_cons_of_neg (by simp)]
  have hself : scope.used.filter (· ≠ (scope.uniquify name).1) = scope.used := by
    refine List.filter_eq_self.mpr fun x hx => ?_
    rw [decide_eq_true_eq]
    rintro rfl
    exact hnot hx
  simp only [hself]

end NameScope

/-! ## Names handed out and given back -/

namespace NameScope

/-! ### The search for a free spelling -/

/-- The search that has come to the `n`-th spelling ends with the last one. -/
inductive Seeks (scope : NameScope) (name : String) : Nat → Nat → Prop where
  | free {n : Nat} (unused : candidate name n ∉ scope.used) : Seeks scope name n n
  | next {n last : Nat} (used : candidate name n ∈ scope.used)
      (rest : Seeks scope name (n + 1) last) : Seeks scope name n last

variable {scope : NameScope} {name : String}

/-- A search ends with the same spelling whenever it ends. -/
theorem Seeks.unique {n l m : Nat} (hl : Seeks scope name n l) (hm : Seeks scope name n m) :
    l = m := by
  induction hl with
  | free unused =>
      cases hm with
      | free _ => rfl
      | next used _ => exact absurd used unused
  | next used _ ih =>
      cases hm with
      | free unused => exact absurd used unused
      | next _ rest => exact ih rest

theorem Seeks.skip {n last : Nat} (hlast : Seeks scope name last last) (hle : n ≤ last)
    (hused : ∀ k, n ≤ k → k < last → candidate name k ∈ scope.used) : Seeks scope name n last := by
  obtain ⟨d, rfl⟩ := Nat.exists_eq_add_of_le hle
  induction d generalizing n with
  | zero => exact hlast
  | succ d ih =>
      refine .next (hused n (Nat.le_refl n) (by omega)) ?_
      rw [show n + (d + 1) = n + 1 + d by omega] at hlast hused ⊢
      exact ih hlast (by omega) fun k hk => hused k (by omega)

/-- From the name itself on, the search ends with the first free spelling. -/
theorem seeks_firstFree (scope : NameScope) (name : String) :
    Seeks scope name 0 (scope.firstFree name) := by
  obtain ⟨hfree, hbefore⟩ := scope.firstFree_spec name
  exact .skip (.free hfree) (Nat.zero_le _) fun k _ hk => hbefore k hk

/-! ### Calls and what they hand out -/

/-- A call on a scope, with a name of the caller's choice. -/
inductive Call where
  | uniquify (name : String)
  | release (name : String)

/-- What a call comes to: a name handed out or a name given back. -/
inductive Event where
  | given (name : String)
  | released (name : String)
deriving DecidableEq

def act (scope : NameScope) : Call → Event × NameScope
  | .uniquify name => (.given (scope.uniquify name).1, (scope.uniquify name).2)
  | .release name => (.released name, scope.release name)

def run (scope : NameScope) : List Call → List Event × NameScope
  | [] => ([], scope)
  | call :: calls =>
      let (events, final) := (scope.act call).2.run calls
      ((scope.act call).1 :: events, final)

/-- The names handed out, each as often as it has been handed out and not given back since. -/
def held : List Event → List String
  | [] => []
  | .given name :: later => if .released name ∈ later then held later else name :: held later
  | .released _ :: later => held later

example : held ((NameScope.mk ["x"]).run [.uniquify "x_1", .uniquify "x", .release "x_1", .release "x",
    .uniquify "x"]).1 = ["x_2", "x"] := by decide +kernel

/-! ### The account of a history -/

/-- How the names in use after a history come from those before it and from what it has handed out. -/
structure Accounts (scope : NameScope) (events : List Event) (final : NameScope) : Prop where
  nodup : (held events).Nodup
  used : ∀ x, x ∈ final.used ↔ x ∈ held events ∨ x ∈ scope.used ∧ .released x ∉ events
  apart : ∀ x ∈ held events, x ∈ scope.used → .released x ∈ events

theorem Accounts.nil (scope : NameScope) : Accounts scope [] scope where
  nodup := List.nodup_nil
  used := by simp [held]
  apart := by simp [held]

/-- A fresh name differs from all that are handed out later, as long as it is not given back. -/
theorem Accounts.given {events : List Event} {final : NameScope}
    (h : Accounts (scope.uniquify name).2 events final) :
    Accounts scope (.given (scope.uniquify name).1 :: events) final := by
  have hnot := scope.uniquify_not_mem name
  have happart := h.apart
  have hused := h.used
  simp only [uniquify_used, List.mem_cons] at happart hused
  generalize (scope.uniquify name).1 = fresh at hnot happart hused
  by_cases hback : .released fresh ∈ events
  · have hheld : held (.given fresh :: events) = held events := if_pos hback
    refine ⟨hheld ▸ h.nodup, fun x => ?_, fun x hx hold => ?_⟩
    · rw [hheld, hused x]
      by_cases hx : x = fresh
      · subst hx
        simp [hback, hnot]
      · simp [hx]
    · rw [hheld] at hx
      exact List.mem_cons_of_mem _ (happart x hx (.inr hold))
  · have hheld : held (.given fresh :: events) = fresh :: held events := if_neg hback
    have hnew : fresh ∉ held events := fun hmem => hback (happart fresh hmem (.inl rfl))
    refine ⟨hheld ▸ List.nodup_cons.mpr ⟨hnew, h.nodup⟩, fun x => ?_, fun x hx hold => ?_⟩
    · rw [hheld, hused x]
      by_cases hx : x = fresh
      · subst hx
        simp [hback]
      · simp [hx]
    · rw [hheld] at hx
      rcases List.mem_cons.mp hx with rfl | hx
      · exact absurd hold hnot
      · exact List.mem_cons_of_mem _ (happart x hx (.inr hold))

theorem Accounts.released {events : List Event} {final : NameScope}
    (h : Accounts (scope.release name) events final) :
    Accounts scope (.released name :: events) final := by
  have hmem (x : String) : x ∈ (scope.release name).used ↔ x ∈ scope.used ∧ x ≠ name := by
    simp [release]
  refine ⟨h.nodup, fun x => ?_, fun x hx hold => ?_⟩
  · rw [h.used x, hmem, and_assoc, List.mem_cons, not_or]
    simp only [Event.released.injEq]
    rfl
  · by_cases hname : x = name
    · subst hname
      exact List.mem_cons_self
    · exact List.mem_cons_of_mem _ (h.apart x hx ((hmem x).mpr ⟨hold, hname⟩))

theorem run_accounts (calls : List Call) (scope : NameScope) :
    Accounts scope (scope.run calls).1 (scope.run calls).2 := by
  induction calls generalizing scope with
  | nil => exact .nil scope
  | cons call calls ih =>
      cases call with
      | uniquify name => exact .given (ih (scope.uniquify name).2)
      | release name => exact .released (ih (scope.release name))

end NameScope

open NameScope in
/-- **Names handed out.**  The search for a fresh name ends, in one way only, with the first of the
spellings `name`, `name_1`, `name_2`, … that is not in use; that spelling is handed out, and nothing
else comes into use.  After any history of calls the names handed out and not given back since are
pairwise different and in use, and all others in use were so at the start and have not been given
back. -/
theorem fresh_names_apart (scope : NameScope) :
    (∀ name, ∃ n, Seeks scope name 0 n ∧ (∀ m, Seeks scope name 0 m → m = n) ∧
      candidate name n ∉ scope.used ∧ (∀ k < n, candidate name k ∈ scope.used) ∧
      (scope.uniquify name).1 = candidate name n ∧
      (scope.uniquify name).2.used = candidate name n :: scope.used) ∧
    ∀ calls, (held (scope.run calls).1).Nodup ∧
      (∀ x ∈ held (scope.run calls).1, (scope.run calls).2.contains x = true) ∧
      ∀ x, (scope.run calls).2.contains x = true ↔
        x ∈ held (scope.run calls).1 ∨
          scope.contains x = true ∧ .released x ∉ (scope.run calls).1 := by
  constructor
  · intro name
    obtain ⟨hfree, hbefore⟩ := scope.firstFree_spec name
    have hseeks := scope.seeks_firstFree name
    exact ⟨scope.firstFree name, hseeks, fun m hm => hm.unique hseeks, hfree, hbefore, rfl, rfl⟩
  · intro calls
    have haccounts := scope.run_accounts calls
    have hcontains (s : NameScope) (x : String) : s.contains x = true ↔ x ∈ s.used := by
      simp [contains]
    simp only [hcontains]
    exact ⟨haccounts.nodup, fun x hx => (haccounts.used x).mpr (.inl hx), haccounts.used⟩

end Wirework
