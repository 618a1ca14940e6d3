import Wirework.Proofs.Names
import Wirework.Text

/-! # Quoted text is read back

What can be read back from a text are parts whose end can be told from the text alone.  There are two ways to do so: a
run of characters of one kind ends before the first of another (`run_cancel`), and what stands before a separator ends
there, if the separator does not occur in it (`separated_cancel`).  Numbers are runs of digits, of which they are read
back (`digits_cancel`, `int_cancel`).  All of these are stated as cancellation: if two texts begin with such parts and
are equal, the parts are, and so are the rests.

Between quotes a character is written in one of three forms (`quoteChar_cases`): as itself, as a backslash with one
more character, or by its code point.  The form is told from its first characters and its end is marked, so the
character can be told from any text that begins with it (`quoteChar_cancel`), and so can a whole quoted string, which
ends at the first quote that is not escaped (`quote_cancel`). -/

namespace Wirework

/-! ## Where a part of a text ends -/

namespace Text

/-! ### Runs -/

/-- The text does not go on with a character of the kind. -/
def Stops (p : Char → Bool) (rest : List Char) : Prop :=
  ∀ c ∈ rest.head?, p c = false

theorem takeWhile_run {p : Char → Bool} {run rest : List Char} (hrun : ∀ c ∈ run, p c = true)
    (hrest : Stops p rest) : (run ++ rest).takeWhile p = run := by
  rw [List.takeWhile_append_of_pos hrun]
  cases rest with
  | nil => simp
  | cons c rest =>
      have hc : p c = false := hrest c rfl
      simp [hc]

/-- Runs of one kind are equal if the texts they begin are. -/
theorem run_cancel {p : Char → Bool} {xs ys r s : List Char} (hx : ∀ c ∈ xs, p c = true)
    (hy : ∀ c ∈ ys, p c = true) (hr : Stops p r) (hs : Stops p s) (h : xs ++ r = ys ++ s) :
    xs = ys ∧ r = s := by
  have hxy : xs = ys := by rw [← takeWhile_run hx hr, h, takeWhile_run hy hs]
  subst hxy
  exact ⟨rfl, List.append_cancel_left h⟩

/-! ### Separators -/

/-- After the separator, no other one begins within it. -/
def Definite (sep rest : List Char) : Prop :=
  ∀ t u, t ≠ [] → t.length < sep.length → sep ++ rest ≠ t ++ (sep ++ u)

theorem eq_nil_of_separated {sep n t x y : List Char} (hfree : ¬ sep <:+: n ++ t)
    (hx : Definite sep x) (h : sep ++ x = t ++ (sep ++ y)) : t = [] := by
  by_contra hne
  rcases Nat.lt_or_ge t.length sep.length with hlt | hge
  · exact hx t y hne hlt h
  · have htext : t <+: sep ++ x := by
      rw [h]
      exact List.prefix_append t _
    have hsep : sep <+: t := List.prefix_of_prefix_length_le (List.prefix_append sep x) htext hge
    exact hfree (hsep.isInfix.trans (List.suffix_append n t).isInfix)

/-- What stands before a separator is the same if the texts are and the separator is not in it. -/
theorem separated_cancel {sep n m x y : List Char} (hn : ¬ sep <:+: n) (hm : ¬ sep <:+: m)
    (hx : Definite sep x) (hy : Definite sep y) (h : n ++ (sep ++ x) = m ++ (sep ++ y)) :
    n = m ∧ x = y := by
  have hnm : n = m := by
    rcases List.append_eq_append_iff.mp h with ⟨t, rfl, ht⟩ | ⟨t, rfl, ht⟩
    · rw [eq_nil_of_separated hm hx ht, List.append_nil]
    · rw [eq_nil_of_separated hn hy ht, List.append_nil]
  subst hnm
  exact ⟨rfl, List.append_cancel_left (List.append_cancel_left h)⟩

/-! ### Numbers -/

/-- Characters of which decimal numbers consist. -/
def isNumeral (c : Char) : Bool := c.isDigit || c == '-'

theorem isDigit_of_mem_repr {n : Nat} {c : Char} (h : c ∈ n.repr.toList) : c.isDigit = true := by
  rw [Nat.toList_repr] at h
  exact Nat.isDigit_of_mem_toDigits (by omega) (by omega) h

theorem digits_cancel {m n : Nat} {r s : List Char} (hr : Stops Char.isDigit r)
    (hs : Stops Char.isDigit s) (h : Nat.toDigits 10 m ++ r = Nat.toDigits 10 n ++ s) :
    m = n ∧ r = s := by
  rw [← Nat.toList_repr, ← Nat.toList_repr] at h
  obtain ⟨hmn, hrs⟩ := run_cancel (fun _ => isDigit_of_mem_repr) (fun _ => isDigit_of_mem_repr) hr hs h
  exact ⟨repr_injective (String.toList_injective hmn), hrs⟩

theorem isNumeral_of_mem_toString {n : Int} {c : Char} (h : c ∈ (toString n).toList) :
    isNumeral c = true := by
  unfold isNumeral
  rw [Int.toString_eq_repr] at h
  cases n with
  | ofNat n => rw [isDigit_of_mem_repr h, Bool.true_or]
  | negSucc n =>
      simp only [Int.repr, String.toList_append, List.mem_append] at h
      rcases h with h | h
      · obtain rfl : c = '-' := by simpa using h
        rfl
      · rw [isDigit_of_mem_repr h, Bool.true_or]

theorem exists_numeral (n : Int) : ∃ c rest, (toString n).toList = c :: rest ∧ isNumeral c = true := by
  cases h : (toString n).toList with
  | nil =>
      rw [Int.toString_eq_repr] at h
      cases n with
      | ofNat n => exact absurd (Nat.toList_repr ▸ h) Nat.toDigits_ne_nil
      | negSucc n => simp [Int.repr] at h
  | cons c rest => exact ⟨c, rest, rfl, isNumeral_of_mem_toString (by rw [h]; exact List.mem_cons_self)⟩

theorem toString_int_injective {m n : Int} (h : toString m = toString n) : m = n := by
  have hsign (k l : Nat) : k.repr ≠ "-" ++ l.repr := by
    intro heq
    have hmem : '-' ∈ k.repr.toList := by
      rw [heq, String.toList_append]
      exact List.mem_append_left _ (by decide)
    exact absurd (isDigit_of_mem_repr hmem) (by decide)
  rw [Int.toString_eq_repr, Int.toString_eq_repr] at h
  cases m with
  | ofNat m =>
      cases n with
      | ofNat n => exact congrArg Int.ofNat (repr_injective h)
      | negSucc n => exact absurd h (hsign m (n + 1))
  | negSucc m =>
      cases n with
      | ofNat n => exact absurd h.symm (hsign n (m + 1))
      | negSucc n =>
          have := repr_injective (String.append_right_inj _ |>.mp h)
          rw [Nat.succ.inj this]

theorem int_cancel {m n : Int} {r s : List Char} (hr : Stops isNumeral r) (hs : Stops isNumeral s)
    (h : (toString m).toList ++ r = (toString n).toList ++ s) : m = n ∧ r = s := by
  obtain ⟨hmn, hrs⟩ :=
    run_cancel (fun _ => isNumeral_of_mem_toString) (fun _ => isNumeral_of_mem_toString) hr hs h
  exact ⟨toString_int_injective (String.toList_injective hmn), hrs⟩

end Text

/-! ## Quoted strings -/

namespace Text

/-! ### Code points -/

theorem digitChar_injective {a b : Nat} (ha : a < 16) (hb : b < 16)
    (h : a.digitChar = b.digitChar) : a = b := by
  have hall : ∀ a : Fin 16, ∀ b : Fin 16, a.val.digitChar = b.val.digitChar → a.val = b.val := by
    decide
  exact hall ⟨a, ha⟩ ⟨b, hb⟩ h

theorem hexDigits_of_lt {n : Nat} (h : n < 16) : hexDigits n = [n.digitChar] :=
  Nat.toDigits_of_lt_base h

theorem hexDigits_of_ge {n : Nat} (h : 16 ≤ n) :
    hexDigits n = hexDigits (n / 16) ++ [(n % 16).digitChar] := by
  unfold hexDigits
  rw [Nat.toDigits_eq_if (by omega), if_neg (by omega)]

/-- A number is told from its hexadecimal digits. -/
theorem hexDigits_injective {m n : Nat} (h : hexDigits m = hexDigits n) : m = n := by
  induction m using Nat.strongRecOn generalizing n with
  | ind m ih =>
      have hne (k : Nat) : hexDigits k ≠ [] := Nat.toDigits_ne_nil
      rcases Nat.lt_or_ge m 16 with hm | hm <;> rcases Nat.lt_or_ge n 16 with hn | hn
      · rw [hexDigits_of_lt hm, hexDigits_of_lt hn] at h
        exact digitChar_injective hm hn (List.singleton_inj.mp h)
      · rw [hexDigits_of_lt hm, hexDigits_of_ge hn, List.singleton_eq_append_iff] at h
        simp [hne] at h
      · rw [hexDigits_of_ge hm, hexDigits_of_lt hn, List.append_eq_singleton_iff] at h
        simp [hne] at h
      · rw [hexDigits_of_ge hm, hexDigits_of_ge hn] at h
        obtain ⟨hinit, hlast⟩ := List.append_inj' h rfl
        have hdiv := ih (m / 16) (by omega) hinit
        have hmod := digitChar_injective (by omega) (by omega) (List.singleton_inj.mp hlast)
        omega

theorem ne_brace_of_mem_hexDigits {n : Nat} {c : Char} (h : c ∈ hexDigits n) : (c != '\x7d') = true := by
  have hdigit : ∀ d : Fin 16, (d.val.digitChar != '\x7d') = true := by decide
  induction n using Nat.strongRecOn with
  | ind n ih =>
      rcases Nat.lt_or_ge n 16 with hn | hn
      · rw [hexDigits_of_lt hn, List.mem_singleton] at h
        exact h ▸ hdigit ⟨n, hn⟩
      · rw [hexDigits_of_ge hn, List.mem_append, List.mem_singleton] at h
        rcases h with h | h
        · exact ih (n / 16) (by omega) h
        · exact h ▸ hdigit ⟨n % 16, by omega⟩

theorem codePointEscape_cancel {c d : Char} {x y : List Char}
    (h : codePointEscape c ++ x = codePointEscape d ++ y) : c = d ∧ x = y := by
  unfold codePointEscape at h
  simp only [List.cons_append, List.nil_append, List.append_assoc, List.cons.injEq, true_and] at h
  obtain ⟨hcode, hrest⟩ := run_cancel (p := (· != '\x7d')) (fun _ => ne_brace_of_mem_hexDigits)
    (fun _ => ne_brace_of_mem_hexDigits) (by simp [Stops]) (by simp [Stops]) h
  refine ⟨?_, (List.cons.inj hrest).2⟩
  rw [← Char.ofNat_toNat c, ← Char.ofNat_toNat d, hexDigits_injective hcode]

/-! ### Characters between quotes -/

/-- The character that a backslash with one more character stands for. -/
def escaped (c : Char) : Char :=
  if c = 'n' then '\n'
  else if c = 'r' then '\r'
  else if c = 't' then '\t'
  else if c = '0' then '\x00'
  else c

theorem quoteChar_cases (c : Char) :
    (quoteChar c = [c] ∧ c ≠ '"' ∧ c ≠ '\\') ∨
    (∃ e, quoteChar c = ['\\', e] ∧ e ≠ 'u' ∧ escaped e = c) ∨
    quoteChar c = codePointEscape c := by
  unfold quoteChar
  split
  · next h => exact .inr (.inl ⟨'"', rfl, by decide, h.symm⟩)
  split
  · next h => exact .inr (.inl ⟨'\\', rfl, by decide, h.symm⟩)
  split
  · next h => exact .inr (.inl ⟨'n', rfl, by decide, h.symm⟩)
  split
  · next h => exact .inr (.inl ⟨'r', rfl, by decide, h.symm⟩)
  split
  · next h => exact .inr (.inl ⟨'t', rfl, by decide, h.symm⟩)
  split
  · next h => exact .inr (.inl ⟨'0', rfl, by decide, h.symm⟩)
  split
  · next hquote hslash _ _ _ _ _ => exact .inl ⟨rfl, hquote, hslash⟩
  · exact .inr (.inr rfl)

theorem quoteChar_ne_quote (c : Char) (x y : List Char) : quoteChar c ++ x ≠ '"' :: y := by
  rcases quoteChar_cases c with ⟨hc, hquote, _⟩ | ⟨e, hc, _⟩ | hc
  · simp [hc, hquote]
  · simp [hc]
  · simp [hc, codePointEscape]

/-- A character is told from any text that begins with its written form. -/
theorem quoteChar_cancel {c d : Char} {x y : List Char} (h : quoteChar c ++ x = quoteChar d ++ y) :
    c = d ∧ x = y := by
  rcases quoteChar_cases c with ⟨hc, _, hslash⟩ | ⟨e, hc, hu, rfl⟩ | hc <;>
    rcases quoteChar_cases d with ⟨hd, _, hslash'⟩ | ⟨e', hd, hu', rfl⟩ | hd <;>
    rw [hc, hd] at h
  · simpa using h
  · simp [hslash] at h
  · simp [codePointEscape, hslash] at h
  · simp [hslash'.symm] at h
  · obtain ⟨rfl, rfl⟩ : e = e' ∧ x = y := by simpa using h
    exact ⟨rfl, rfl⟩
  · simp [codePointEscape, hu] at h
  · simp [codePointEscape, hslash'.symm] at h
  · simp [codePointEscape, hu'.symm] at h
  · exact codePointEscape_cancel h

/-! ### Quoted strings -/

theorem flatMap_quoteChar_cancel {xs ys r s : List Char}
    (h : xs.flatMap quoteChar ++ '"' :: r = ys.flatMap quoteChar ++ '"' :: s) : xs = ys ∧ r = s := by
  induction xs generalizing ys with
  | nil =>
      cases ys with
      | nil => exact ⟨rfl, (List.cons.inj h).2⟩
      | cons d ys =>
          rw [List.flatMap_cons, List.append_assoc] at h
          exact absurd h.symm (quoteChar_ne_quote d _ _)
  | cons c xs ih =>
      cases ys with
      | nil =>
          rw [List.flatMap_cons, List.append_assoc] at h
          exact absurd h (quoteChar_ne_quote c _ _)
      | cons d ys =>
          rw [List.flatMap_cons, List.flatMap_cons, List.append_assoc, List.append_assoc] at h
          obtain ⟨rfl, hrest⟩ := quoteChar_cancel h
          obtain ⟨rfl, hrs⟩ := ih hrest
          exact ⟨rfl, hrs⟩

/-- A string is told from any text that begins with its quoted form. -/
theorem quote_cancel {a b : String} {r s : List Char}
    (h : (quote a).toList ++ r = (quote b).toList ++ s) : a = b ∧ r = s := by
  unfold quote at h
  simp only [String.toList_ofList, List.cons_append, List.append_assoc, List.nil_append,
    List.cons.injEq, true_and] at h
  obtain ⟨hab, hrs⟩ := flatMap_quoteChar_cancel h
  exact ⟨String.toList_injective hab, hrs⟩

end Text

end Wirework
