import Mathlib.Data.List.Chain
import Mathlib.Data.List.DropRight
import Wirework.Parameters
import Wirework.Proofs.Names

/-! # Names made of words

The name of a parameterized module comes from free text: from names and values of parameters, with whatever
characters these have.  Sanitizing cuts the text into words (`Name.words`) and joins these by underscores.  A list
of words is read back from its joined form (`Name.words_joinWords`), so sanitizing twice is sanitizing once, and the
joined form has the shape `Name.Joined`, whatever the words.

Sanitizing can also be told as a rewriting of the text: every maximal run of characters that are neither letters nor
digits becomes one underscore, and underscores at the ends are taken away.  The two tell the same
(`Name.sanitize_eq_trim`).

Of the name of a module (`derived_names_valid`) only the first character needs a condition, on the base name it is
derived from; the parameters do not matter. -/

namespace Wirework

namespace Name

/-! ### Words of a text -/

/-- Letters and digits, at least one of them. -/
structure IsWord (w : List Char) : Prop where
  nonempty : w ≠ []
  letters : ∀ c ∈ w, isWordChar c = true

theorem isWordChar_underscore : isWordChar '_' = false := by decide

theorem words_nil : words [] = [] := by
  rw [words]

theorem words_cons_of_not {c : Char} (h : isWordChar c = false) (cs : List Char) :
    words (c :: cs) = words cs := by
  rw [words, if_neg (by simp [h])]

theorem words_cons_of {c : Char} (h : isWordChar c = true) (cs : List Char) :
    words (c :: cs) = (c :: cs.takeWhile isWordChar) :: words (cs.dropWhile isWordChar) := by
  rw [words, if_pos h]

theorem words_append {w rest : List Char} (hw : IsWord w) (hrest : ∀ c ∈ rest.head?, isWordChar c = false) :
    words (w ++ rest) = w :: words rest := by
  obtain ⟨hne, hletters⟩ := hw
  obtain ⟨c, w, rfl⟩ := List.exists_cons_of_ne_nil hne
  have htail : ∀ x ∈ w, isWordChar x = true := fun x hx => hletters x (List.mem_cons_of_mem c hx)
  have hstop : rest.takeWhile isWordChar = [] ∧ rest.dropWhile isWordChar = rest := by
    cases rest with
    | nil => exact ⟨rfl, rfl⟩
    | cons x rest => simp [hrest x rfl]
  rw [List.cons_append, words_cons_of (hletters c List.mem_cons_self), List.takeWhile_append_of_pos htail,
    List.dropWhile_append_of_pos htail, hstop.1, hstop.2, List.append_nil]

theorem isWord_of_mem_words {cs w : List Char} (h : w ∈ words cs) : IsWord w := by
  induction cs using words.induct with
  | case1 =>
      rw [words_nil] at h
      cases h
  | case2 c rest hc ih =>
      rw [words_cons_of hc] at h
      rcases List.mem_cons.mp h with rfl | h
      · refine ⟨List.cons_ne_nil _ _, fun x hx => ?_⟩
        rcases List.mem_cons.mp hx with rfl | hx
        · exact hc
        · exact List.mem_takeWhile_imp hx
      · exact ih h
  | case3 c rest hc ih =>
      rw [words_cons_of_not (by simpa using hc)] at h
      exact ih h

theorem flatten_words (cs : List Char) : (words cs).flatten = cs.filter isWordChar := by
  induction cs using words.induct with
  | case1 => rw [words_nil]; rfl
  | case2 c rest hc ih =>
      have hall : (rest.takeWhile isWordChar).filter isWordChar = rest.takeWhile isWordChar :=
        List.filter_eq_self.mpr fun x hx => List.mem_takeWhile_imp hx
      rw [words_cons_of hc, List.flatten_cons, ih, List.filter_cons_of_pos hc, List.cons_append]
      nth_rewrite 3 [← List.takeWhile_append_dropWhile (p := isWordChar) (l := rest)]
      rw [List.filter_append, hall]
  | case3 c rest hc ih =>
      rw [words_cons_of_not (by simpa using hc), ih, List.filter_cons_of_neg hc]

/-! ### Joined words -/

theorem joinWords_nil : joinWords [] = [] := rfl

theorem joinWords_singleton (w : List Char) : joinWords [w] = w :=
  List.intercalate_singleton

theorem joinWords_cons_cons (w v : List Char) (ws : List (List Char)) :
    joinWords (w :: v :: ws) = w ++ '_' :: joinWords (v :: ws) := by
  unfold joinWords
  rw [List.intercalate_cons_cons, List.append_assoc, List.singleton_append]

/-- Joined words are read back. -/
theorem words_joinWords {ws : List (List Char)} (h : ∀ w ∈ ws, IsWord w) : words (joinWords ws) = ws := by
  induction ws with
  | nil => exact words_nil
  | cons w ws ih =>
      have hw := h w List.mem_cons_self
      have hrest := ih fun v hv => h v (List.mem_cons_of_mem w hv)
      cases ws with
      | nil =>
          rw [joinWords_singleton]
          have happend : words (w ++ []) = w :: words [] := words_append hw (by simp)
          rwa [List.append_nil, words_nil] at happend
      | cons v ws =>
          rw [joinWords_cons_cons, words_append hw (by simp [isWordChar_underscore]),
            words_cons_of_not isWordChar_underscore, hrest]

/-- Letters, digits and underscores, where every underscore stands between two of the others. -/
structure Joined (cs : List Char) : Prop where
  characters : ∀ c ∈ cs, isWordChar c = true ∨ c = '_'
  first : cs.head? ≠ some '_'
  last : cs.getLast? ≠ some '_'
  single : cs.IsChain fun a b => ¬ (a = '_' ∧ b = '_')

theorem IsWord.ne_underscore {w : List Char} (h : IsWord w) {c : Char} (hc : c ∈ w) : c ≠ '_' := by
  rintro rfl
  exact Bool.false_ne_true (isWordChar_underscore.symm.trans (h.letters _ hc))

theorem IsWord.joined {w : List Char} (h : IsWord w) : Joined w where
  characters c hc := .inl (h.letters c hc)
  first hc := h.ne_underscore (List.mem_of_head? hc) rfl
  last hc := h.ne_underscore (List.mem_of_getLast? hc) rfl
  single := by
    have hpairwise : w.Pairwise fun a b => ¬ (a = '_' ∧ b = '_') :=
      List.pairwise_of_forall_mem_list fun a ha b hb hab => h.ne_underscore ha hab.1
    exact hpairwise.isChain

/-- A word is put in front. -/
theorem Joined.cons {w rest : List Char} (hw : IsWord w) (h : Joined rest) (hrest : rest ≠ []) :
    Joined (w ++ '_' :: rest) where
  characters c hc := by
    rcases List.mem_append.mp hc with hc | hc
    · exact .inl (hw.letters c hc)
    · rcases List.mem_cons.mp hc with rfl | hc
      · exact .inr rfl
      · exact h.characters c hc
  first := by
    rw [List.head?_append_of_ne_nil _ hw.nonempty]
    exact hw.joined.first
  last := by
    obtain ⟨c, rest, rfl⟩ := List.exists_cons_of_ne_nil hrest
    rw [List.getLast?_append_of_ne_nil _ (List.cons_ne_nil _ _), List.getLast?_cons_cons]
    exact h.last
  single := by
    refine List.isChain_append.mpr ⟨hw.joined.single, List.isChain_cons.mpr ⟨?_, h.single⟩, ?_⟩
    · rintro y hy ⟨-, rfl⟩
      exact h.first hy
    · rintro x hx y - ⟨rfl, -⟩
      exact hw.joined.last hx

theorem joined_joinWords {ws : List (List Char)} (h : ∀ w ∈ ws, IsWord w) : Joined (joinWords ws) := by
  induction ws with
  | nil => exact ⟨fun c hc => absurd hc List.not_mem_nil, nofun, nofun, .nil⟩
  | cons w ws ih =>
      have hw := h w List.mem_cons_self
      have hrest := ih fun v hv => h v (List.mem_cons_of_mem w hv)
      cases ws with
      | nil =>
          rw [joinWords_singleton]
          exact hw.joined
      | cons v ws =>
          rw [joinWords_cons_cons]
          refine .cons hw hrest fun hnil => ?_
          have hwords := words_joinWords fun u hu => h u (List.mem_cons_of_mem w hu)
          rw [hnil, words_nil] at hwords
          cases hwords

/-! ### Sanitized text -/

theorem isDropped_of_isWordChar {c : Char} (h : isWordChar c = true) : isDropped c = false := by
  rw [← Bool.not_eq_true]
  intro hdropped
  have hmem : c ∈ ['!', '>', '[', ']', ',', '"'] := of_decide_eq_true hdropped
  simp only [List.mem_cons, List.not_mem_nil, or_false] at hmem
  rcases hmem with rfl | rfl | rfl | rfl | rfl | rfl <;> exact absurd h (by decide)

/-- The words that a text is sanitized to. -/
def wordsOf (text : String) : List (List Char) :=
  words (text.toList.filter fun c => !isDropped c)

theorem toList_sanitize (text : String) : (sanitize text).toList = joinWords (wordsOf text) :=
  String.toList_ofList

theorem isWord_of_mem_wordsOf {text : String} : ∀ w ∈ wordsOf text, IsWord w :=
  fun _ h => isWord_of_mem_words h

theorem flatten_wordsOf (text : String) : (wordsOf text).flatten = text.toList.filter isWordChar := by
  unfold wordsOf
  rw [flatten_words, List.filter_filter]
  refine List.filter_congr fun c _ => ?_
  cases hc : isWordChar c with
  | false => rfl
  | true => rw [isDropped_of_isWordChar hc]; rfl

theorem joined_sanitize (text : String) : Joined (sanitize text).toList := by
  rw [toList_sanitize]
  exact joined_joinWords isWord_of_mem_wordsOf

theorem wordsOf_sanitize (text : String) : wordsOf (sanitize text) = wordsOf text := by
  have hkept : (sanitize text).toList.filter (fun c => !isDropped c) = (sanitize text).toList := by
    refine List.filter_eq_self.mpr fun c hc => ?_
    rcases (joined_sanitize text).characters c hc with hword | rfl
    · rw [isDropped_of_isWordChar hword]; rfl
    · decide
  unfold wordsOf at hkept ⊢
  rw [hkept, toList_sanitize, words_joinWords isWord_of_mem_wordsOf]
  rfl

theorem sanitize_sanitize (text : String) : sanitize (sanitize text) = sanitize text :=
  congrArg (fun ws => String.ofList (joinWords ws)) (wordsOf_sanitize text)

theorem filter_sanitize (text : String) :
    (sanitize text).toList.filter isWordChar = text.toList.filter isWordChar := by
  rw [← flatten_wordsOf, wordsOf_sanitize, flatten_wordsOf]

/-- Sanitized text is a name if the first letter or digit of the text is a letter. -/
theorem isValid_sanitize {text : String} {c : Char} (hfirst : text.toList.find? isWordChar = some c)
    (hc : isLetter c = true) : isValid (sanitize text) = true := by
  have hjoined := joined_sanitize text
  have hkept := filter_sanitize text
  rw [← List.head?_filter, ← hkept] at hfirst
  unfold isValid
  cases hchars : (sanitize text).toList with
  | nil =>
      rw [hchars] at hfirst
      cases hfirst
  | cons x rest =>
      rw [hchars] at hjoined hfirst
      have hsubsequent : ∀ y ∈ rest, isSubsequent y = true := by
        intro y hy
        unfold isSubsequent
        rcases hjoined.characters y (List.mem_cons_of_mem x hy) with hword | rfl
        · rw [hword, Bool.true_or]
        · rfl
      have hx : isWordChar x = true :=
        (hjoined.characters x List.mem_cons_self).resolve_right fun he => hjoined.first (congrArg some he)
      rw [List.filter_cons_of_pos hx] at hfirst
      obtain rfl := Option.some.inj hfirst
      change (isInitial x && rest.all isSubsequent) = true
      rw [List.all_eq_true.mpr hsubsequent, Bool.and_true]
      unfold isInitial
      rw [hc, Bool.true_or]

/-! ### Sanitizing as rewriting -/

/-- Every maximal run of characters that are neither letters nor digits becomes an underscore. -/
def collapse : List Char → List Char
  | [] => []
  | c :: rest =>
    if isWordChar c then c :: collapse rest
    else '_' :: collapse (rest.dropWhile fun c => !isWordChar c)
termination_by cs => cs.length
decreasing_by
  · simp
  · have := (List.dropWhile_sublist (l := rest) fun c => !isWordChar c).length_le
    simp only [List.length_cons]; omega

/-- The text without the underscores at its ends. -/
def trim (cs : List Char) : List Char :=
  (cs.dropWhile (· == '_')).rdropWhile (· == '_')

theorem collapse_nil : collapse [] = [] := by
  rw [collapse]

theorem collapse_cons_of_not {c : Char} (h : isWordChar c = false) (cs : List Char) :
    collapse (c :: cs) = '_' :: collapse (cs.dropWhile fun c => !isWordChar c) := by
  rw [collapse, if_neg (by simp [h])]

theorem collapse_append {w : List Char} (h : ∀ c ∈ w, isWordChar c = true) (rest : List Char) :
    collapse (w ++ rest) = w ++ collapse rest := by
  induction w with
  | nil => rfl
  | cons c w ih =>
      rw [List.cons_append, collapse, if_pos (h c List.mem_cons_self),
        ih fun x hx => h x (List.mem_cons_of_mem c hx)]
      rfl

theorem words_dropWhile (cs : List Char) : words (cs.dropWhile fun c => !isWordChar c) = words cs := by
  induction cs with
  | nil => rfl
  | cons c cs ih =>
      cases hc : isWordChar c with
      | true => rw [List.dropWhile_cons_of_neg (by simp [hc])]
      | false => rw [List.dropWhile_cons_of_pos (by simp [hc]), ih, words_cons_of_not hc]

theorem not_of_mem_head?_dropWhile {p : Char → Bool} {cs : List Char} {c : Char}
    (h : c ∈ (cs.dropWhile p).head?) : p c = false := by
  have hstop := List.head?_dropWhile_not p cs
  rw [Option.mem_def.mp h] at hstop
  simpa using hstop

theorem exists_word_append {c : Char} (hc : isWordChar c = true) (cs : List Char) :
    ∃ w rest, c :: cs = w ++ rest ∧ IsWord w ∧ ∀ x ∈ rest.head?, isWordChar x = false := by
  refine ⟨c :: cs.takeWhile isWordChar, cs.dropWhile isWordChar, ?_, ⟨List.cons_ne_nil _ _, ?_⟩,
    fun x hx => not_of_mem_head?_dropWhile hx⟩
  · rw [List.cons_append, List.takeWhile_append_dropWhile]
  · exact List.forall_mem_cons.mpr ⟨hc, fun x hx => List.mem_takeWhile_imp hx⟩

/-- Where a text does not begin with a separator, collapsing its separators joins its words, but for an
underscore at the end. -/
theorem exists_collapse_eq (cs : List Char) (h : ∀ c ∈ cs.head?, isWordChar c = true) :
    ∃ trail, (∀ c ∈ trail, c = '_') ∧ collapse cs = joinWords (words cs) ++ trail := by
  induction hn : cs.length using Nat.strong_induction_on generalizing cs with
  | _ n ih =>
    cases cs with
    | nil => exact ⟨[], by simp, by rw [collapse_nil, words_nil]; rfl⟩
    | cons c cs =>
        obtain ⟨w, rest, hsplit, hw, hstop⟩ := exists_word_append (h c rfl) cs
        rw [hsplit] at hn ⊢
        rw [words_append hw hstop, collapse_append hw.letters]
        cases rest with
        | nil => exact ⟨[], by simp, by rw [collapse_nil, words_nil, joinWords_singleton]⟩
        | cons x rest =>
            have hx := hstop x rfl
            let next := rest.dropWhile fun c => !isWordChar c
            have hlt : next.length < n := by
              have hle : next.length ≤ rest.length := (List.dropWhile_sublist _).length_le
              rw [List.length_append, List.length_cons] at hn
              omega
            obtain ⟨trail, htrail, heq⟩ := ih _ hlt next
              (fun y hy => by simpa using not_of_mem_head?_dropWhile hy) rfl
            rw [words_dropWhile] at heq
            rw [collapse_cons_of_not hx, words_cons_of_not hx, heq]
            cases hwords : words rest with
            | nil =>
                refine ⟨'_' :: trail, List.forall_mem_cons.mpr ⟨rfl, htrail⟩, ?_⟩
                rw [joinWords_nil, joinWords_singleton, List.nil_append]
            | cons v ws => exact ⟨trail, htrail, by rw [joinWords_cons_cons, List.append_assoc, List.cons_append]⟩

/-- Underscores around joined words are taken away. -/
theorem trim_append {cs : List Char} (h : Joined cs) {lead trail : List Char} (hlead : ∀ c ∈ lead, c = '_')
    (htrail : ∀ c ∈ trail, c = '_') : trim (lead ++ (cs ++ trail)) = cs := by
  have hall : ∀ {l : List Char}, (∀ c ∈ l, c = '_') → ∀ c ∈ l, (c == '_') = true :=
    fun hl c hc => beq_iff_eq.mpr (hl c hc)
  have hkeep : ∀ {l : List Char}, l.head? ≠ some '_' → l.dropWhile (· == '_') = l := by
    intro l hl
    cases l with
    | nil => rfl
    | cons c l => exact List.dropWhile_cons_of_neg fun hc => hl (congrArg some (beq_iff_eq.mp hc))
  unfold trim
  rw [List.dropWhile_append_of_pos (hall hlead)]
  have hends : (cs ++ trail).dropWhile (· == '_') = cs ++ trail ∨ cs = [] := by
    cases cs with
    | nil => exact .inr rfl
    | cons c cs => exact .inl (hkeep h.first)
  rcases hends with heq | rfl
  · rw [heq]
    unfold List.rdropWhile
    rw [List.reverse_append, List.dropWhile_append_of_pos fun c hc => hall htrail c (List.mem_reverse.mp hc),
      hkeep (by rw [List.head?_reverse]; exact h.last), List.reverse_reverse]
  · rw [List.nil_append, List.dropWhile_eq_nil_iff.mpr (hall htrail)]
    rfl

/-- Sanitizing drops some characters, collapses all others that are neither letters nor digits, and trims. -/
theorem sanitize_eq_trim (text : String) :
    sanitize text = String.ofList (trim (collapse (text.toList.filter fun c => !isDropped c))) := by
  unfold sanitize
  congr 1
  generalize text.toList.filter (fun c => !isDropped c) = cs
  have hjoined := joined_joinWords fun w (hw : w ∈ words cs) => isWord_of_mem_words hw
  cases cs with
  | nil => rw [words_nil, collapse_nil]; rfl
  | cons c cs =>
      cases hc : isWordChar c with
      | true =>
          obtain ⟨trail, htrail, heq⟩ := exists_collapse_eq (c :: cs) (by simp [hc])
          rw [heq]
          have htrim := trim_append hjoined (List.forall_mem_nil (· = '_')) htrail
          exact htrim.symm
      | false =>
          obtain ⟨trail, htrail, heq⟩ := exists_collapse_eq (cs.dropWhile fun c => !isWordChar c)
            fun y hy => by simpa using not_of_mem_head?_dropWhile hy
          rw [words_dropWhile, ← words_cons_of_not hc] at heq
          rw [collapse_cons_of_not hc, heq]
          have htrim := trim_append hjoined (List.forall_mem_singleton.mpr (rfl : '_' = '_')) htrail
          exact htrim.symm

/-! ### Names of modules -/

/-- A name consists of letters, digits and underscores. -/
theorem characters_of_isValid {name : String} (h : isValid name = true) :
    ∀ c ∈ name.toList, isWordChar c = true ∨ c = '_' := by
  have hcharacter : ∀ {c : Char}, isSubsequent c = true → isWordChar c = true ∨ c = '_' := by
    intro c hc
    unfold isSubsequent at hc
    rwa [Bool.or_eq_true, beq_iff_eq] at hc
  unfold isValid at h
  cases hchars : name.toList with
  | nil => exact fun c hc => absurd hc List.not_mem_nil
  | cons x rest =>
      rw [hchars, Bool.and_eq_true, List.all_eq_true] at h
      refine List.forall_mem_cons.mpr ⟨hcharacter ?_, fun c hc => hcharacter (h.2 c hc)⟩
      have hinitial := h.1
      unfold isInitial at hinitial
      unfold isSubsequent isWordChar
      rw [Bool.or_right_comm, hinitial, Bool.true_or]

/-- What is derived from a name begins like the name, but for underscores. -/
theorem find?_intercalate {base : String} (hbase : isValid base = true) {c : Char}
    (hfirst : base.toList.find? (· ≠ '_') = some c) (parts : List String) :
    ("_".intercalate (base :: parts)).toList.find? isWordChar = some c := by
  have hsame : base.toList.find? isWordChar = base.toList.find? (· ≠ '_') := by
    rw [← List.head?_filter, ← List.head?_filter]
    congr 1
    refine List.filter_congr fun x hx => ?_
    rcases characters_of_isValid hbase x hx with hword | rfl
    · have hne : x ≠ '_' := by
        rintro rfl
        exact Bool.false_ne_true (isWordChar_underscore.symm.trans hword)
      rw [hword, decide_eq_true hne]
    · rfl
  rw [String.toList_intercalate]
  cases parts with
  | nil => simpa [hsame] using hfirst
  | cons part parts =>
      rw [List.map_cons, List.map_cons, List.intercalate_cons_cons, List.append_assoc, List.find?_append, hsame,
        hfirst]
      rfl

end Name

/-- **Names derived from parameters.**  Sanitizing keeps the letters and digits of a text, in order, with single
underscores between some of them, and leaves alone what has been sanitized.  The name derived for a module is
therefore valid for all parameters, if the base name is valid and its first character other than an underscore is a
letter, and so is every name with a counter that a scope makes of it. -/
theorem derived_names_valid :
    (∀ text, Name.Joined (Name.sanitize text).toList ∧
      (Name.sanitize text).toList.filter Name.isWordChar = text.toList.filter Name.isWordChar ∧
        Name.sanitize (Name.sanitize text) = Name.sanitize text) ∧
      ∀ (base : String) (c : Char) (key : ParameterKey), Name.isValid base = true →
        base.toList.find? (· ≠ '_') = some c → Name.isLetter c = true →
          Name.isValid (key.moduleName base) = true ∧
            (∀ n, Name.isValid (NameScope.candidate (key.moduleName base) n) = true) ∧
              ∀ scope : NameScope, Name.isValid (scope.uniquify (key.moduleName base)).1 = true := by
  refine ⟨fun text => ⟨Name.joined_sanitize text, Name.filter_sanitize text, Name.sanitize_sanitize text⟩, ?_⟩
  intro base c key hbase hfirst hletter
  have hvalid : Name.isValid (key.moduleName base) = true :=
    Name.isValid_sanitize (Name.find?_intercalate hbase hfirst key.nameParts) hletter
  exact ⟨hvalid, NameScope.candidate_valid hvalid, fun scope => scope.uniquify_valid hvalid⟩

namespace Sample

/-- A list, and text beyond ASCII in a name and in a value. -/
def firKey : ParameterKey :=
  .ofList [("taps", .list [.int 1, .int (-2)]), ("größe", .str "ß x")]

theorem nameParts_firKey : firKey.nameParts = ["größeß x", "taps[1, -2]"] := by
  unfold ParameterKey.nameParts
  rw [List.mergeSort_of_pairwise]
  · decide +kernel
  · decide +kernel

end Sample

/-- Of the text beyond ASCII nothing is left in the name but the gaps. -/
theorem derived_names_valid_fir :
    Sample.firKey.moduleName "_Fir" = "Fir_gr_e_x_taps1_2" ∧
      Name.isValid (Sample.firKey.moduleName "_Fir") = true := by
  have hvalid := (derived_names_valid.2 "_Fir" 'F' Sample.firKey (by decide) (by decide) (by decide)).1
  refine ⟨?_, hvalid⟩
  unfold ParameterKey.moduleName
  rw [Sample.nameParts_firKey]
  cbv

end Wirework
