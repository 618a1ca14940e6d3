import Mathlib.Data.List.Infix
import Wirework.Design.Printer
import Wirework.Proofs.Text.Quoted

/-! # What the text of an attribute tells

Strings are quoted in the text of an attribute, but the names in a dictionary stand in it as they
are.  A name can therefore look like what stands around it, and attributes that differ can have one
text (`attributes_share_text`).  Names that are `LegibleName`s cannot: they do not contain the sign
between a name and its value, and they do not begin like the end of an empty dictionary.

With such names the text determines the attribute.  Of what follows an attribute it is only known
that it consists of closing brackets up to the end or a comma (`Ends`).  The kind is read off the
first characters (`kindRank?_text`); an induction along the attribute then shows that it can be told
from any text that begins with its own (`text_cancel`). -/

namespace Wirework
namespace Attribute

open Text

/-! ### Legible names -/

/-- Brackets that close a list or a dictionary. -/
def isCloser (c : Char) : Bool := c == ']' || c == '\x7d'

/-- A name that cannot be mistaken for what stands around it in a dictionary. -/
structure LegibleName (name : String) : Prop where
  unseparated : ¬ [' ', '=', ' '] <:+: name.toList
  unclosed : name.toList.head? = some '\x7d' →
    (name.toList.dropWhile isCloser).head? ≠ some ','

instance (name : String) : Decidable (LegibleName name) :=
  decidable_of_iff (¬ [' ', '=', ' '] <:+: name.toList ∧ (name.toList.head? = some '\x7d' →
      (name.toList.dropWhile isCloser).head? ≠ some ','))
    ⟨fun h => ⟨h.1, h.2⟩, fun h => ⟨h.1, h.2⟩⟩

mutual

/-- The names in the dictionaries of an attribute, at any depth. -/
def names : Attribute → List String
  | list items => itemNames items
  | dict ⟨entries⟩ => entryNames entries
  | _ => []

/-- The names in the dictionaries of the items of a list. -/
def itemNames : List Attribute → List String
  | [] => []
  | item :: rest => item.names ++ itemNames rest

/-- The names of the entries of a dictionary, and those within their values. -/
def entryNames : List (String × Attribute) → List String
  | [] => []
  | (name, value) :: rest => name :: value.names ++ entryNames rest

end

/-- All names in an attribute are legible. -/
def Legible (a : Attribute) : Prop := ∀ name ∈ a.names, LegibleName name

instance (a : Attribute) : Decidable a.Legible :=
  inferInstanceAs (Decidable (∀ name ∈ a.names, LegibleName name))

/-! ### What follows an attribute -/

/-- Closing brackets follow, and then a comma or nothing. -/
def Ends (rest : List Char) : Prop := ∀ c ∈ (rest.dropWhile isCloser).head?, c = ','

/-- The texts after the first one in a list. -/
def following (texts : List String) : List Char :=
  texts.flatMap fun text => ',' :: ' ' :: text.toList

variable {r s : List Char}

theorem Ends.nil : Ends [] := by simp [Ends]

theorem Ends.following {c : Char} (hr : Ends r) (hc : isCloser c = true) (texts : List String) :
    Ends (following texts ++ c :: r) := by
  cases texts with
  | nil =>
      unfold Ends
      rw [Attribute.following, List.flatMap_nil, List.nil_append, List.dropWhile_cons_of_pos hc]
      exact hr
  | cons text texts =>
      have hcomma : isCloser ',' = false := rfl
      simp [Ends, Attribute.following, hcomma]

theorem Ends.stops {p : Char → Bool} (hr : Ends r) (hcomma : p ',' = false)
    (hcloser : ∀ c, isCloser c = true → p c = false) : Stops p r := by
  intro c hc
  cases r with
  | nil => cases hc
  | cons d r =>
      obtain rfl : d = c := Option.some.inj hc
      cases hd : isCloser d with
      | true => exact hcloser d hd
      | false =>
          have hdrop : (d :: r).dropWhile isCloser = d :: r :=
            List.dropWhile_cons_of_neg (by simp [hd])
          rw [hr d (by rw [hdrop]; rfl)]
          exact hcomma

theorem Ends.stops_digit (hr : Ends r) : Stops Char.isDigit r := by
  refine hr.stops rfl fun c hc => ?_
  rcases Bool.or_eq_true _ _ |>.mp hc with h | h
  · rw [eq_of_beq h]; rfl
  · rw [eq_of_beq h]; rfl

theorem Ends.stops_numeral (hr : Ends r) : Stops isNumeral r := by
  refine hr.stops rfl fun c hc => ?_
  rcases Bool.or_eq_true _ _ |>.mp hc with h | h
  · rw [eq_of_beq h]; rfl
  · rw [eq_of_beq h]; rfl

theorem toList_commaList_cons (text : String) (texts : List String) :
    (", ".intercalate (text :: texts)).toList = text.toList ++ following texts := by
  induction texts generalizing text with
  | nil => simp [following]
  | cons next texts ih =>
      rw [String.intercalate_cons_cons, String.toList_append, String.toList_append, ih]
      simp [following]

/-! ### Kinds -/

/-- The place of the kind that is told by the first character of a text, if it is not a number. -/
def signRank? : Char → Option Nat
  | 't' | 'f' => some 1
  | '"' => some 3
  | 'i' | 'u' | 's' | 'c' => some 4
  | '[' => some 5
  | '\x7b' => some 6
  | _ => none

/-- The place of the kind that a text of an attribute begins with. -/
def kindRank? : List Char → Option Nat
  | [] => none
  | c :: rest =>
    if isNumeral c then some 2
    else if c = 'u' ∧ rest.head? = some 'n' then some 0
    else signRank? c

theorem kindRank?_text (a : Attribute) (rest : List Char) :
    kindRank? (a.text.toList ++ rest) = some a.kindRank := by
  cases a with
  | unit => rfl
  | bool value => cases value <;> rfl
  | int value =>
      obtain ⟨c, digits, hvalue, hc⟩ := exists_numeral value
      rw [text, hvalue, List.cons_append]
      exact if_pos hc
  | str value => rw [text, Text.quote, String.toList_ofList]; rfl
  | type value => cases value <;> simp [text, HwType.text, kindRank?, signRank?, isNumeral, kindRank]
  | list items => simp [text, kindRank?, signRank?, isNumeral, kindRank]
  | dict entries => cases entries; simp [text, kindRank?, signRank?, isNumeral, kindRank]

theorem kindRank_eq {a b : Attribute} (h : a.text.toList ++ r = b.text.toList ++ s) :
    a.kindRank = b.kindRank := by
  have hrank := kindRank?_text a r
  rw [h, kindRank?_text b s] at hrank
  exact (Option.some.inj hrank).symm

theorem text_ne_cons {c : Char} (hc : ∀ rest, kindRank? (c :: rest) = none) (a : Attribute)
    (rest : List Char) : a.text.toList ++ r ≠ c :: rest := by
  intro h
  have hrank := kindRank?_text a r
  rw [h, hc] at hrank
  cases hrank

theorem type_cancel {t u : HwType} (hr : Ends r) (hs : Ends s)
    (h : t.text.toList ++ r = u.text.toList ++ s) : t = u ∧ r = s := by
  have hrd := hr.stops_digit
  have hsd := hs.stops_digit
  cases t <;> cases u <;> simp [HwType.text] at h
  · obtain ⟨rfl, rfl⟩ := digits_cancel hrd hsd h
    exact ⟨rfl, rfl⟩
  · obtain ⟨rfl, rfl⟩ := digits_cancel hrd hsd h
    exact ⟨rfl, rfl⟩
  · obtain ⟨rfl, rfl⟩ := digits_cancel hrd hsd h
    exact ⟨rfl, rfl⟩
  · exact ⟨rfl, h⟩

/-! ### Names and their values -/

theorem definite_equals (a : Attribute) : Definite [' ', '=', ' '] (a.text.toList ++ r) := by
  intro t u hne hlt h
  match t, hne, hlt with
  | [x], _, _ => simp at h
  | [x, y], _, _ =>
      obtain ⟨_, _, hvalue⟩ : ' ' = x ∧ '=' = y ∧ a.text.toList ++ r = '=' :: ' ' :: u := by
        simpa using h
      exact text_ne_cons (fun _ => rfl) a _ hvalue

theorem definite_colon (rest : List Char) : Definite [':', ' '] rest := by
  intro t u hne hlt h
  match t, hne, hlt with
  | [x], _, _ => simp at h

/-- A legible name does not stand where a dictionary can end. -/
theorem closer_ne_name {name : String} (hname : LegibleName name) (hr : Ends r) (rest : List Char) :
    '\x7d' :: r ≠ name.toList ++ ([' ', '=', ' '] ++ rest) := by
  intro h
  have hunclosed := hname.unclosed
  cases hn : name.toList with
  | nil => simp [hn] at h
  | cons c tail =>
      rw [hn, List.cons_append, List.cons.injEq] at h
      obtain ⟨rfl, rfl⟩ := h
      have hcomma := hunclosed (by rw [hn]; rfl)
      rw [hn, List.dropWhile_cons_of_pos (by rfl)] at hcomma
      unfold Ends at hr
      rw [List.dropWhile_append] at hr
      -- what is left of the name would have to begin with a comma, or else the blank after it would
      cases hleft : tail.dropWhile isCloser with
      | nil => simp [hleft, isCloser] at hr
      | cons d left => simp_all

/-! ### Reading an attribute off a text -/

theorem toList_list_cons (x : Attribute) (xs : List Attribute) :
    (list (x :: xs)).text.toList =
      '[' :: (x.text.toList ++ (following (itemTexts xs) ++ [']'])) := by
  rw [text, itemTexts, String.toList_append, String.toList_append, toList_commaList_cons]
  simp

theorem toList_dict_cons (name : String) (x : Attribute) (xs : List (String × Attribute)) :
    (dict ⟨(name, x) :: xs⟩).text.toList =
      '\x7b' :: (name.toList ++ ([' ', '=', ' '] ++ (x.text.toList ++
        (following (entryTexts xs) ++ ['\x7d'])))) := by
  rw [text, entryTexts, String.toList_append, String.toList_append, toList_commaList_cons]
  simp

/-- Lists whose texts begin a common text agree on it after a first comma, too. -/
theorem following_of_list {xs ys : List Attribute}
    (h : (list xs).text.toList ++ r = (list ys).text.toList ++ s) :
    following (itemTexts xs) ++ ']' :: r = following (itemTexts ys) ++ ']' :: s := by
  have hempty {r s : List Char} (y : Attribute) (ys : List Attribute) :
      (list []).text.toList ++ r ≠ (list (y :: ys)).text.toList ++ s := by
    intro h
    rw [toList_list_cons, List.cons_append, List.append_assoc] at h
    exact text_ne_cons (fun _ => rfl) y _ (List.cons.inj h).2.symm
  cases xs with
  | nil =>
      cases ys with
      | nil => rw [List.append_cancel_left h]
      | cons y ys => exact absurd h (hempty y ys)
  | cons x xs =>
      cases ys with
      | nil => exact absurd h.symm (hempty x xs)
      | cons y ys =>
          rw [toList_list_cons, toList_list_cons] at h
          simpa [itemTexts, following] using h

/-- So do dictionaries, unless a name in one could end the other. -/
theorem following_of_dict {xs ys : List (String × Attribute)}
    (hx : ∀ name ∈ entryNames xs, LegibleName name) (hy : ∀ name ∈ entryNames ys, LegibleName name)
    (hr : Ends r) (hs : Ends s) (h : (dict ⟨xs⟩).text.toList ++ r = (dict ⟨ys⟩).text.toList ++ s) :
    following (entryTexts xs) ++ '\x7d' :: r = following (entryTexts ys) ++ '\x7d' :: s := by
  have hempty {r s : List Char} {name : String} (hname : LegibleName name) (hr : Ends r)
      (y : Attribute) (ys : List (String × Attribute)) :
      (dict ⟨[]⟩).text.toList ++ r ≠ (dict ⟨(name, y) :: ys⟩).text.toList ++ s := by
    intro h
    rw [toList_dict_cons, List.cons_append, List.append_assoc, List.append_assoc] at h
    exact closer_ne_name hname hr _ (List.cons.inj h).2
  cases xs with
  | nil =>
      cases ys with
      | nil => rw [List.append_cancel_left h]
      | cons y ys => exact absurd h (hempty (hy y.1 List.mem_cons_self) hr y.2 ys)
  | cons x xs =>
      cases ys with
      | nil => exact absurd h.symm (hempty (hx x.1 List.mem_cons_self) hs x.2 xs)
      | cons y ys =>
          rw [toList_dict_cons, toList_dict_cons] at h
          simpa [entryTexts, following] using h

mutual

/-- An attribute with legible names is told from any text that begins with its own. -/
theorem text_cancel {r s : List Char} : (a b : Attribute) → a.Legible → b.Legible → Ends r → Ends s →
    a.text.toList ++ r = b.text.toList ++ s → a = b ∧ r = s
  | unit, b, _, _, _, _, h => by
      have hkind := kindRank_eq h
      cases b with
      | unit => exact ⟨rfl, List.append_cancel_left h⟩
      | _ => cases hkind
  | bool x, b, _, _, _, _, h => by
      have hkind := kindRank_eq h
      cases b with
      | bool y => cases x <;> cases y <;> simp [text] at h <;> exact ⟨rfl, h⟩
      | _ => cases hkind
  | int x, b, _, _, hr, hs, h => by
      have hkind := kindRank_eq h
      cases b with
      | int y =>
          obtain ⟨rfl, rfl⟩ := int_cancel hr.stops_numeral hs.stops_numeral h
          exact ⟨rfl, rfl⟩
      | _ => cases hkind
  | str x, b, _, _, _, _, h => by
      have hkind := kindRank_eq h
      cases b with
      | str y =>
          obtain ⟨rfl, rfl⟩ := quote_cancel h
          exact ⟨rfl, rfl⟩
      | _ => cases hkind
  | type x, b, _, _, hr, hs, h => by
      have hkind := kindRank_eq h
      cases b with
      | type y =>
          obtain ⟨rfl, rfl⟩ := type_cancel hr hs h
          exact ⟨rfl, rfl⟩
      | _ => cases hkind
  | list xs, b, ha, hb, hr, hs, h => by
      have hkind := kindRank_eq h
      cases b with
      | list ys =>
          obtain ⟨rfl, hrs⟩ := items_cancel xs ys ha hb hr hs (following_of_list h)
          exact ⟨rfl, hrs⟩
      | _ => cases hkind
  | dict ⟨xs⟩, b, ha, hb, hr, hs, h => by
      have hkind := kindRank_eq h
      cases b with
      | dict ys =>
          obtain ⟨ys⟩ := ys
          obtain ⟨rfl, hrs⟩ :=
            entries_cancel xs ys ha hb hr hs (following_of_dict ha hb hr hs h)
          exact ⟨rfl, hrs⟩
      | _ => cases hkind

theorem items_cancel {r s : List Char} : (xs ys : List Attribute) →
    (∀ name ∈ itemNames xs, LegibleName name) → (∀ name ∈ itemNames ys, LegibleName name) →
    Ends r → Ends s →
    following (itemTexts xs) ++ ']' :: r = following (itemTexts ys) ++ ']' :: s → xs = ys ∧ r = s
  | [], [], _, _, _, _, h => ⟨rfl, (List.cons.inj h).2⟩
  | [], y :: ys, _, _, _, _, h => by simp [itemTexts, following] at h
  | x :: xs, [], _, _, _, _, h => by simp [itemTexts, following] at h
  | x :: xs, y :: ys, ha, hb, hr, hs, h => by
      simp only [itemNames, List.mem_append, or_imp, forall_and] at ha hb
      simp only [itemTexts, following, List.flatMap_cons, List.cons_append, List.append_assoc,
        List.cons.injEq, true_and] at h
      obtain ⟨rfl, hrest⟩ := text_cancel x y ha.1 hb.1 (hr.following rfl _) (hs.following rfl _) h
      obtain ⟨rfl, hrs⟩ := items_cancel xs ys ha.2 hb.2 hr hs hrest
      exact ⟨rfl, hrs⟩

theorem entries_cancel {r s : List Char} : (xs ys : List (String × Attribute)) →
    (∀ name ∈ entryNames xs, LegibleName name) → (∀ name ∈ entryNames ys, LegibleName name) →
    Ends r → Ends s →
    following (entryTexts xs) ++ '\x7d' :: r = following (entryTexts ys) ++ '\x7d' :: s →
    xs = ys ∧ r = s
  | [], [], _, _, _, _, h => ⟨rfl, (List.cons.inj h).2⟩
  | [], y :: ys, _, _, _, _, h => by simp [entryTexts, following] at h
  | x :: xs, [], _, _, _, _, h => by simp [entryTexts, following] at h
  | (n, x) :: xs, (m, y) :: ys, ha, hb, hr, hs, h => by
      simp only [entryNames, List.cons_append, List.mem_cons, List.mem_append, or_imp, forall_and,
        forall_eq] at ha hb
      simp only [entryTexts, following, List.flatMap_cons, String.toList_append, List.cons_append,
        List.append_assoc, List.cons.injEq, true_and] at h
      obtain ⟨hn, hvalue⟩ := separated_cancel ha.1.unseparated hb.1.unseparated
        (definite_equals x) (definite_equals y) h
      obtain ⟨rfl, hrest⟩ :=
        text_cancel x y ha.2.1 hb.2.1 (hr.following rfl _) (hs.following rfl _) hvalue
      obtain ⟨rfl, hrs⟩ := entries_cancel xs ys ha.2.2 hb.2.2 hr hs hrest
      exact ⟨by rw [String.toList_injective hn], hrs⟩

end

theorem text_injective {a b : Attribute} (ha : a.Legible) (hb : b.Legible) (h : a.text = b.text) :
    a = b :=
  (text_cancel a b ha hb .nil .nil (by rw [h])).1

/-! ### Parameters of instances -/

/-- The values of parameters are legible, and their names do not contain the sign between a name and
its value. -/
def LegibleParameters (parameters : AttributeMap) : Prop :=
  ∀ entry ∈ parameters.entries, ¬ [':', ' '] <:+: entry.1.toList ∧ entry.2.Legible

instance (parameters : AttributeMap) : Decidable (LegibleParameters parameters) :=
  inferInstanceAs (Decidable (∀ entry ∈ parameters.entries, _ ∧ _))

def parameterTexts (entries : List (String × Attribute)) : List String :=
  entries.map fun (name, value) => name ++ ": " ++ value.text

theorem Ends.following_nil (texts : List String) : Ends (Attribute.following texts) := by
  cases texts <;> simp [Ends, Attribute.following, isCloser]

theorem parameters_cancel {xs ys : List (String × Attribute)}
    (hx : LegibleParameters ⟨xs⟩) (hy : LegibleParameters ⟨ys⟩)
    (h : following (parameterTexts xs) = following (parameterTexts ys)) : xs = ys := by
  induction xs generalizing ys with
  | nil =>
      cases ys with
      | nil => rfl
      | cons y ys => simp [parameterTexts, following] at h
  | cons x xs ih =>
      cases ys with
      | nil => simp [parameterTexts, following] at h
      | cons y ys =>
          obtain ⟨n, x⟩ := x
          obtain ⟨m, y⟩ := y
          obtain ⟨⟨hn, hxl⟩, hxs⟩ := List.forall_mem_cons.mp hx
          obtain ⟨⟨hm, hyl⟩, hys⟩ := List.forall_mem_cons.mp hy
          have hsep : n.toList ++ ([':', ' '] ++ (x.text.toList ++ following (parameterTexts xs))) =
              m.toList ++ ([':', ' '] ++ (y.text.toList ++ following (parameterTexts ys))) := by
            simpa [parameterTexts, following] using h
          obtain ⟨hnm, hvalue⟩ := separated_cancel hn hm (definite_colon _) (definite_colon _) hsep
          obtain ⟨rfl, hrest⟩ :=
            text_cancel x y hxl hyl (.following_nil _) (.following_nil _) hvalue
          obtain rfl := ih hxs hys hrest
          obtain rfl : n = m := String.toList_injective hnm
          rfl

theorem toList_parametersText_cons (x : String × Attribute) (xs : List (String × Attribute)) :
    ',' :: ' ' :: ((Design.parametersText ⟨x :: xs⟩).toList.drop 1) =
      following (parameterTexts (x :: xs)) ++ ['>'] := by
  show ',' :: ' ' :: (("<" ++ ", ".intercalate (parameterTexts (x :: xs)) ++ ">").toList.drop 1) = _
  rw [String.toList_append, String.toList_append, parameterTexts, List.map_cons, toList_commaList_cons]
  simp [following]

theorem parametersText_injective {p q : AttributeMap} (hp : LegibleParameters p)
    (hq : LegibleParameters q) (h : Design.parametersText p = Design.parametersText q) : p = q := by
  have hempty (y : String × Attribute) (ys : List (String × Attribute)) :
      Design.parametersText ⟨[]⟩ ≠ Design.parametersText ⟨y :: ys⟩ := by
    intro h
    have hlist := toList_parametersText_cons y ys
    rw [← h] at hlist
    simp [Design.parametersText, Design.angleList, parameterTexts, following] at hlist
  obtain ⟨xs⟩ := p
  obtain ⟨ys⟩ := q
  cases xs with
  | nil =>
      cases ys with
      | nil => rfl
      | cons y ys => exact absurd h (hempty y ys)
  | cons x xs =>
      cases ys with
      | nil => exact absurd h.symm (hempty x xs)
      | cons y ys =>
          have hfollowing : following (parameterTexts (x :: xs)) ++ ['>'] =
              following (parameterTexts (y :: ys)) ++ ['>'] := by
            rw [← toList_parametersText_cons, ← toList_parametersText_cons, h]
          exact congrArg Dict.mk (parameters_cancel hp hq (List.append_cancel_right hfollowing))

end Attribute

open Attribute

/-! ### The text determines the attribute -/

/-- **Text of attributes.**  Attributes whose names are legible are equal if their texts are, and so
are the attributes of modules and operations, and the parameters of instances, in their own texts and
within the text of an instance. -/
theorem legible_texts_apart :
    (∀ a b : Attribute, a.Legible → b.Legible → a.text = b.text → a = b) ∧
    (∀ a b : AttributeMap, (dict a).Legible → (dict b).Legible →
      Design.attributesText a = Design.attributesText b → a = b) ∧
    (∀ p q : AttributeMap, LegibleParameters p → LegibleParameters q →
      Design.parametersText p = Design.parametersText q → p = q) ∧
    ∀ (d : Design) (m callee : HwModule) (name : String) (inputs : List ValueId) (p q : AttributeMap),
      LegibleParameters p → LegibleParameters q →
      d.instanceText m callee name inputs p = d.instanceText m callee name inputs q → p = q := by
  refine ⟨fun a b => text_injective, fun a b ha hb h => ?_, fun p q => parametersText_injective,
    fun d m callee name inputs p q hp hq h => parametersText_injective hp hq ?_⟩
  · exact dict.inj (text_injective ha hb h)
  · unfold Design.instanceText at h
    simpa using h

namespace Sample

/-- A dictionary whose names look like text of other kinds, with a string that does, too. -/
def trickyEntries : List (String × Attribute) :=
  [("x]", .list [.str "\", y = [1", .dict {}, .type (.uint 8)]), ("a, b=", .int (-1)), ("\x7d", .unit)]

/-- One of them twice, from entries in two orders. -/
def tricky : AttributeMap := Dict.ofList trickyEntries

def trickyToo : AttributeMap := Dict.ofList trickyEntries.reverse

end Sample

open Sample in
theorem legible_texts_apart_tricky :
    ((dict tricky).Legible ∧ (dict trickyToo).Legible ∧ (dict tricky).text = (dict trickyToo).text ∧
      dict tricky = dict trickyToo) ∧
    (LegibleParameters tricky ∧ LegibleParameters trickyToo ∧
      Design.parametersText tricky = Design.parametersText trickyToo ∧ tricky = trickyToo) := by
  have hl : (dict tricky).Legible := by decide +kernel
  have hl' : (dict trickyToo).Legible := by decide +kernel
  have ht : (dict tricky).text = (dict trickyToo).text := by decide +kernel
  have hp : LegibleParameters tricky := by decide +kernel
  have hp' : LegibleParameters trickyToo := by decide +kernel
  have htp : Design.parametersText tricky = Design.parametersText trickyToo := by decide +kernel
  exact ⟨⟨hl, hl', ht, legible_texts_apart.1 _ _ hl hl' ht⟩, hp, hp', htp,
    legible_texts_apart.2.2.1 _ _ hp hp' htp⟩

/-- Other names can be mistaken for the text around them: a name with the sign before a value, alone or
with one that closes the string it opens, a name that begins like the end of a dictionary, and a name
of a parameter with the sign before its value. -/
theorem attributes_share_text :
    (dict ⟨[("a = 1, b", int 2)]⟩ ≠ dict ⟨[("a", int 1), ("b", int 2)]⟩ ∧
      (dict ⟨[("a = 1, b", int 2)]⟩).text = (dict ⟨[("a", int 1), ("b", int 2)]⟩).text) ∧
    (dict ⟨[("a = [\"", int 1), ("b\"], d", int 2)]⟩ ≠
        dict ⟨[("a", list [str " = 1, b"]), ("d", int 2)]⟩ ∧
      (dict ⟨[("a = [\"", int 1), ("b\"], d", int 2)]⟩).text =
        (dict ⟨[("a", list [str " = 1, b"]), ("d", int 2)]⟩).text) ∧
    (list [dict ⟨[("\x7d, \x7by", int 1)]⟩] ≠ list [dict ⟨[]⟩, dict ⟨[("y", int 1)]⟩] ∧
      (list [dict ⟨[("\x7d, \x7by", int 1)]⟩]).text = (list [dict ⟨[]⟩, dict ⟨[("y", int 1)]⟩]).text) ∧
    ((⟨[("a: 1, b", int 2)]⟩ : AttributeMap) ≠ ⟨[("a", int 1), ("b", int 2)]⟩ ∧
      Design.parametersText ⟨[("a: 1, b", int 2)]⟩ =
        Design.parametersText ⟨[("a", int 1), ("b", int 2)]⟩) := by
  decide +kernel

end Wirework
