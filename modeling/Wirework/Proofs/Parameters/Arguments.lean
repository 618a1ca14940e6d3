import Wirework.Parameters
import Wirework.Proofs.Dictionaries

/-! # Which calls are accepted, and what they bind

A call supplies values for parameters (`Signature.supplied`), the first of them by position and the others by keyword.
Binding goes over them in passes that extend one dictionary; what it comes to can be said of the list of supplied
values alone.

Each pass has an equivalence that says when it succeeds and with which dictionary: keywords
(`bindKeywords_eq_ok_iff`), missing parameters (`missing_eq_nil_iff`), and defaults.  Put one after the other, a call
is accepted if it is in order (`Signature.Accepts`), and the dictionary is then the collection of what is supplied,
with the defaults of the other parameters (`bind_eq_ok_iff`).

How a value is spelled, by position, by keyword at any place, or by leaving out a default, therefore makes no
difference (`Signature.Binds`), nor does it to the key of the call. -/

namespace Wirework

namespace Signature

variable {s : Signature} {args : Args} {b : BoundArgs}

/-! ### Declared parameters -/

theorem names_append (function : String) (parameters parameters' : List (String × Option Attribute)) :
    (Signature.mk function (parameters ++ parameters')).names =
      (Signature.mk function parameters).names ++ parameters'.map (·.1) :=
  List.map_append

theorem addFormals_eq_ok_iff (h : s.names.Nodup) {formals : List Formal} {s' : Signature} :
    s.addFormals formals = .ok s' ↔ s'.names.Nodup ∧ ∃ parameters,
      formals = parameters.map (fun p => .named p.1 p.2) ∧ s' = ⟨s.function, s.parameters ++ parameters⟩ := by
  induction formals generalizing s with
  | nil =>
      have hself : s = ⟨s.function, s.parameters ++ []⟩ := by rw [List.append_nil]
      constructor
      · intro hs
        obtain rfl := pure_eq_ok_iff.mp hs
        exact ⟨h, [], rfl, hself⟩
      · rintro ⟨-, parameters, hformals, rfl⟩
        obtain rfl := List.map_eq_nil_iff.mp hformals.symm
        exact congrArg Except.ok hself
  | cons formal rest ih =>
      cases formal with
      | variadic name =>
          refine iff_of_false nofun ?_
          rintro ⟨-, _ | ⟨p, parameters⟩, hformals, -⟩ <;> cases hformals
      | named name default =>
          unfold addFormals
          by_cases hname : name ∈ s.names
          · rw [if_pos hname]
            refine iff_of_false nofun ?_
            rintro ⟨hnodup, _ | ⟨p, parameters⟩, hformals, rfl⟩
            · cases hformals
            · cases hformals
              rw [names_append] at hnodup
              exact (List.nodup_append.mp hnodup).2.2 _ hname _ List.mem_cons_self rfl
          · have hnext : (Signature.mk s.function (s.parameters ++ [(name, default)])).names.Nodup := by
              rw [names_append]
              exact List.nodup_append'.mpr ⟨h, List.nodup_singleton _, List.disjoint_singleton.mpr hname⟩
            rw [if_neg hname, ih hnext]
            refine and_congr_right fun _ => ?_
            simp only [List.append_assoc, List.singleton_append]
            constructor
            · rintro ⟨parameters, rfl, rfl⟩
              exact ⟨(name, default) :: parameters, rfl, rfl⟩
            · rintro ⟨_ | ⟨p, parameters⟩, hformals, rfl⟩
              · cases hformals
              · cases hformals
                exact ⟨parameters, rfl, rfl⟩

theorem ofFormals_eq_ok_iff {function : String} {formals : List Formal} :
    ofFormals function formals = .ok s ↔
      s.names.Nodup ∧ formals = s.parameters.map (fun p => .named p.1 p.2) ∧ s.function = function := by
  unfold ofFormals
  rw [addFormals_eq_ok_iff (s := ⟨function, []⟩) .nil]
  refine and_congr_right fun _ => ?_
  constructor
  · rintro ⟨parameters, rfl, rfl⟩
    exact ⟨rfl, rfl⟩
  · rintro ⟨rfl, rfl⟩
    exact ⟨s.parameters, rfl, rfl⟩

/-! ### Calls -/

/-- The values that a call supplies, with the names of their parameters. -/
def supplied (s : Signature) (args : Args) : List (String × Attribute) :=
  s.names.zip args.positional ++ args.keyword

/-- A call is in order. -/
structure Accepts (s : Signature) (args : Args) : Prop where
  count : args.positional.length ≤ s.parameters.length
  declared : ∀ name ∈ args.keyword.map (·.1), name ∈ s.names
  once : ((s.supplied args).map (·.1)).Nodup
  required : ∀ name, (name, none) ∈ s.parameters → name ∈ (s.supplied args).map (·.1)

theorem map_fst_zip_names (h : args.positional.length ≤ s.parameters.length) :
    (s.names.zip args.positional).map (·.1) = s.names.take args.positional.length := by
  have hlength : s.names.length = s.parameters.length := List.length_map _
  rw [List.zip_eq_zip_take_min, List.map_fst_zip]
  · rw [Nat.min_eq_right (hlength ▸ h)]
  · rw [List.length_take, List.length_take]
    omega

theorem mem_names_of_supplied (h : s.Accepts args) {name : String} (hname : name ∈ (s.supplied args).map (·.1)) :
    name ∈ s.names := by
  unfold supplied at hname
  rw [List.map_append, map_fst_zip_names h.count] at hname
  rcases List.mem_append.mp hname with hname | hname
  · exact List.mem_of_mem_take hname
  · exact h.declared name hname

/-! ### Passes -/

/-- Keywords are taken in turn; none may be undeclared or already have a value. -/
theorem bindKeywords_eq_ok_iff {keyword : List (String × Attribute)} {values values' : AttributeMap} :
    s.bindKeywords keyword values = .ok values' ↔
      ((∀ name ∈ keyword.map (·.1), name ∈ s.names) ∧ (keyword.map (·.1)).Nodup ∧
        ∀ name ∈ keyword.map (·.1), name ∉ values.names) ∧
          keyword.foldl (fun d entry => d.insert entry.1 entry.2) values = values' := by
  induction keyword generalizing values with
  | nil =>
      unfold bindKeywords
      rw [pure_eq_ok_iff]
      exact (and_iff_right ⟨nofun, .nil, nofun⟩).symm
  | cons entry rest ih =>
      obtain ⟨name, value⟩ := entry
      unfold bindKeywords
      by_cases hdeclared : name ∈ s.names
      · by_cases hcontains : values.contains name
        · rw [if_neg (not_not.mpr hdeclared), if_pos hcontains]
          refine iff_of_false nofun fun h => ?_
          exact h.1.2.2 name List.mem_cons_self (Dict.contains_iff.mp hcontains)
        · rw [if_neg (not_not.mpr hdeclared), if_neg hcontains, ih, List.foldl_cons]
          refine and_congr_left fun _ => ?_
          rw [List.map_cons, List.forall_mem_cons, List.forall_mem_cons, List.nodup_cons]
          simp only [Dict.mem_names_insert, not_or]
          rw [Dict.contains_iff] at hcontains
          constructor
          · rintro ⟨hrest, hnodup, hfresh⟩
            exact ⟨⟨hdeclared, hrest⟩, ⟨fun hmem => (hfresh name hmem).1 rfl, hnodup⟩, hcontains,
              fun n hn => (hfresh n hn).2⟩
          · rintro ⟨⟨-, hrest⟩, ⟨hmem, hnodup⟩, -, hfresh⟩
            exact ⟨hrest, hnodup, fun n hn => ⟨fun hname => hmem (hname ▸ hn), hfresh n hn⟩⟩
      · rw [if_pos hdeclared]
        exact iff_of_false nofun fun h => hdeclared (h.1.1 name List.mem_cons_self)

theorem missing_eq_nil_iff {values : AttributeMap} :
    s.missing values = [] ↔ ∀ name, (name, none) ∈ s.parameters → name ∈ values.names := by
  unfold missing
  rw [List.filterMap_eq_nil_iff]
  constructor
  · intro h name hname
    have hnone := h _ hname
    rw [← Dict.contains_iff]
    by_contra hcontains
    simp [hcontains] at hnone
  · rintro h ⟨name, _ | value⟩ hp
    · simp [Dict.contains_iff.mpr (h name hp)]
    · simp

/-- A default for a parameter that has no value. -/
def addDefault (values : AttributeMap) (name : String) (default : Option Attribute) : AttributeMap :=
  match default with
  | some value => if values.contains name then values else values.insert name value
  | none => values

theorem find?_addDefault (values : AttributeMap) (name : String) (default : Option Attribute) (k : String) :
    (addDefault values name default).find? k =
      if k = name then (values.find? k).or default else values.find? k := by
  cases default with
  | none => rw [Option.or_none, ite_self]; rfl
  | some value =>
      change Dict.find? (if values.contains name then values else values.insert name value) k = _
      by_cases hcontains : values.contains name
      · obtain ⟨old, hold⟩ := Option.isSome_iff_exists.mp hcontains
        rw [if_pos hcontains]
        split
        case isTrue hk => rw [hk, hold, Option.some_or]
        case isFalse => rfl
      · have hnone : values.find? name = none := Option.not_isSome_iff_eq_none.mp hcontains
        rw [if_neg hcontains, Dict.find?_insert]
        split
        case isTrue hk => rw [hk, hnone, Option.none_or]
        case isFalse => rfl

theorem addDefaults_cons (function name : String) (default : Option Attribute)
    (rest : List (String × Option Attribute)) (values : AttributeMap) :
    addDefaults ⟨function, (name, default) :: rest⟩ values =
      addDefaults ⟨function, rest⟩ (addDefault values name default) :=
  rfl

theorem find?_addDefaults_of_not_mem {name : String} (h : name ∉ s.names) (values : AttributeMap) :
    (s.addDefaults values).find? name = values.find? name := by
  obtain ⟨function, parameters⟩ := s
  induction parameters generalizing values with
  | nil => rfl
  | cons p rest ih =>
      obtain ⟨hne, hrest⟩ := not_or.mp fun hmem => h (List.mem_cons.mpr hmem)
      rw [addDefaults_cons, ih _ hrest, find?_addDefault, if_neg hne]

theorem find?_addDefaults_of_mem (h : s.names.Nodup) {name : String} {default : Option Attribute}
    (hp : (name, default) ∈ s.parameters) (values : AttributeMap) :
    (s.addDefaults values).find? name = (values.find? name).or default := by
  obtain ⟨function, parameters⟩ := s
  induction parameters generalizing values with
  | nil => cases hp
  | cons p rest ih =>
      obtain ⟨hfirst, hrest⟩ := List.nodup_cons.mp h
      rw [addDefaults_cons]
      rcases List.mem_cons.mp hp with rfl | hp
      · rw [find?_addDefaults_of_not_mem hfirst, find?_addDefault, if_pos rfl]
      · have hne : name ≠ p.1 := by
          rintro rfl
          exact hfirst (List.mem_map.mpr ⟨_, hp, rfl⟩)
        rw [ih _ hrest hp, find?_addDefault, if_neg hne]

theorem sorted_addDefaults {values : AttributeMap} (h : values.Sorted) : (s.addDefaults values).Sorted := by
  obtain ⟨function, parameters⟩ := s
  induction parameters generalizing values with
  | nil => exact h
  | cons p rest ih =>
      rw [addDefaults_cons]
      refine ih ?_
      unfold addDefault
      split
      · split
        · exact h
        · exact h.insert _ _
      · exact h

/-! ### Binding -/

theorem bind_eq_ok_iff_passes :
    s.bind args = .ok b ↔ args.positional.length ≤ s.parameters.length ∧
      ∃ values, s.bindKeywords args.keyword (.ofList (s.names.zip args.positional)) = .ok values ∧
        s.missing values = [] ∧ ⟨s.function, s.addDefaults values⟩ = b := by
  unfold bind
  by_cases hcount : s.parameters.length < args.positional.length
  · rw [if_pos hcount]
    exact iff_of_false nofun fun h => Nat.not_lt.mpr h.1 hcount
  · rw [if_neg hcount, and_iff_right (Nat.not_lt.mp hcount)]
    beta_reduce
    rw [Wirework.bind_eq_ok_iff]
    refine exists_congr fun values => and_congr_right fun _ => ?_
    cases hmissing : s.missing values with
    | nil => exact pure_eq_ok_iff.trans (and_iff_right rfl).symm
    | cons name rest => exact iff_of_false nofun nofun

/-- A call is accepted if it is in order, and then binds what is supplied and the other defaults. -/
theorem bind_eq_ok_iff (h : s.names.Nodup) :
    s.bind args = .ok b ↔
      s.Accepts args ∧ ⟨s.function, s.addDefaults (.ofList (s.supplied args))⟩ = b := by
  have hcollect : args.keyword.foldl (fun d entry => d.insert entry.1 entry.2)
      (Dict.ofList (s.names.zip args.positional)) = Dict.ofList (s.supplied args) :=
    List.foldl_append.symm
  have hnames : (s.supplied args).map (·.1) =
      (s.names.zip args.positional).map (·.1) ++ args.keyword.map (·.1) := List.map_append
  rw [bind_eq_ok_iff_passes]
  simp only [bindKeywords_eq_ok_iff, missing_eq_nil_iff, hcollect]
  constructor
  · rintro ⟨hcount, values, ⟨⟨hdeclared, hnodup, hfresh⟩, rfl⟩, hrequired, hb⟩
    refine ⟨⟨hcount, hdeclared, ?_, fun name hname => Dict.mem_names_ofList.mp (hrequired name hname)⟩, hb⟩
    rw [hnames]
    refine List.nodup_append'.mpr ⟨?_, hnodup, fun name hposition hkeyword => ?_⟩
    · rw [map_fst_zip_names hcount]
      exact h.take
    · exact hfresh name hkeyword (Dict.mem_names_ofList.mpr hposition)
  · rintro ⟨⟨hcount, hdeclared, honce, hrequired⟩, hb⟩
    rw [hnames] at honce
    obtain ⟨-, hnodup, hdisjoint⟩ := List.nodup_append'.mp honce
    exact ⟨hcount, _, ⟨⟨hdeclared, hnodup, fun name hkeyword hposition =>
      hdisjoint (Dict.mem_names_ofList.mp hposition) hkeyword⟩, rfl⟩,
      fun name hname => Dict.mem_names_ofList.mpr (hrequired name hname), hb⟩

theorem find?_of_bind (h : s.names.Nodup) (hb : s.bind args = .ok b) {name : String}
    {default : Option Attribute} (hp : (name, default) ∈ s.parameters) :
    b.find? name = ((s.supplied args).lookup name).or default := by
  obtain ⟨haccepts, rfl⟩ := (bind_eq_ok_iff h).mp hb
  change (s.addDefaults _).find? name = _
  rw [find?_addDefaults_of_mem h hp, Dict.find?_ofList_of_nodup haccepts.once]

theorem find?_of_bind_of_not_mem (h : s.names.Nodup) (hb : s.bind args = .ok b) {name : String}
    (hname : name ∉ s.names) : b.find? name = none := by
  obtain ⟨haccepts, rfl⟩ := (bind_eq_ok_iff h).mp hb
  change (s.addDefaults _).find? name = none
  rw [find?_addDefaults_of_not_mem hname, ← Option.not_isSome_iff_eq_none, ← Dict.mem_names_iff,
    Dict.mem_names_ofList]
  exact fun hmem => hname (mem_names_of_supplied haccepts hmem)

theorem sorted_of_bind (h : s.names.Nodup) (hb : s.bind args = .ok b) : b.values.Sorted := by
  obtain ⟨-, rfl⟩ := (bind_eq_ok_iff h).mp hb
  exact sorted_addDefaults (Dict.sorted_ofList _)

theorem names_of_bind (h : s.names.Nodup) (hb : s.bind args = .ok b) : b.values.names.Perm s.names := by
  refine (List.perm_ext_iff_of_nodup (sorted_of_bind h hb).nodup_names h).mpr fun name => ?_
  rw [Dict.mem_names_iff]
  change (b.find? name).isSome ↔ name ∈ s.names
  constructor
  · intro hsome
    by_contra hname
    rw [find?_of_bind_of_not_mem h hb hname] at hsome
    cases hsome
  · intro hname
    obtain ⟨⟨name, default⟩, hp, rfl⟩ := List.mem_map.mp hname
    rw [find?_of_bind h hb hp, Option.isSome_or, Bool.or_eq_true, lookup_isSome_iff_mem]
    cases default with
    | some value => exact .inr rfl
    | none => exact .inl (((bind_eq_ok_iff h).mp hb).1.required _ hp)

/-! ### Spellings -/

theorem Accepts.of_perm (ha : s.Accepts args) {args' : Args}
    (hcount : args'.positional.length ≤ s.parameters.length) (hperm : (s.supplied args).Perm (s.supplied args')) :
    s.Accepts args' where
  count := hcount
  declared name hname := by
    have hsupplied : name ∈ (s.supplied args').map (·.1) := by
      unfold supplied
      rw [List.map_append]
      exact List.mem_append_right _ hname
    exact mem_names_of_supplied ha ((hperm.map (·.1)).mem_iff.mpr hsupplied)
  once := (hperm.map (·.1)).nodup_iff.mp ha.once
  required name hname := (hperm.map (·.1)).mem_iff.mp (ha.required name hname)

theorem bind_of_perm (h : s.names.Nodup) {args' : Args}
    (hcount : args.positional.length ≤ s.parameters.length ↔ args'.positional.length ≤ s.parameters.length)
    (hperm : (s.supplied args).Perm (s.supplied args')) (b : BoundArgs) :
    s.bind args = .ok b ↔ s.bind args' = .ok b := by
  rw [bind_eq_ok_iff h, bind_eq_ok_iff h]
  constructor
  · rintro ⟨haccepts, hb⟩
    rw [← Dict.ofList_perm haccepts.once hperm] at hb
    exact ⟨haccepts.of_perm (hcount.mp haccepts.count) hperm, hb⟩
  · rintro ⟨haccepts, hb⟩
    rw [← Dict.ofList_perm haccepts.once hperm.symm] at hb
    exact ⟨haccepts.of_perm (hcount.mpr haccepts.count) hperm.symm, hb⟩

theorem supplied_append {positional : List Attribute} (hlength : positional.length ≤ s.names.length)
    (more : List Attribute) (keyword : List (String × Attribute)) :
    s.supplied ⟨positional ++ more, keyword⟩ =
      s.supplied ⟨positional, (s.names.drop positional.length).zip more ++ keyword⟩ := by
  have hzip : ∀ more, s.names.zip (positional ++ more) =
      (s.names.take positional.length).zip positional ++ (s.names.drop positional.length).zip more := by
    intro more
    rw [← List.zip_append (List.length_take_of_le hlength), List.take_append_drop]
  have hnone := hzip []
  rw [List.append_nil, List.zip_nil_right, List.append_nil] at hnone
  unfold supplied
  rw [hzip more, hnone, List.append_assoc]

theorem default_unique (h : s.names.Nodup) {name : String} {default default' : Option Attribute}
    (hp : (name, default) ∈ s.parameters) (hp' : (name, default') ∈ s.parameters) : default = default' :=
  Option.some.inj (((lookup_eq_some_iff_mem h).mpr hp).symm.trans ((lookup_eq_some_iff_mem h).mpr hp'))

section spelledOut

variable {positional : List Attribute} {keyword : List (String × Attribute)} {name : String} {value : Attribute}

theorem supplied_cons_perm (s : Signature) (positional : List Attribute) (keyword : List (String × Attribute))
    (name : String) (value : Attribute) :
    (s.supplied ⟨positional, (name, value) :: keyword⟩).Perm
      ((name, value) :: s.supplied ⟨positional, keyword⟩) :=
  List.perm_middle

theorem accepts_default_iff (h : s.names.Nodup) (hp : (name, some value) ∈ s.parameters)
    (hname : name ∉ (s.supplied ⟨positional, keyword⟩).map (·.1)) :
    s.Accepts ⟨positional, (name, value) :: keyword⟩ ↔ s.Accepts ⟨positional, keyword⟩ := by
  have hnames := (s.supplied_cons_perm positional keyword name value).map (·.1)
  constructor
  · rintro ⟨hcount, hdeclared, honce, hrequired⟩
    refine ⟨hcount, fun n hn => hdeclared n (List.mem_cons_of_mem _ hn),
      (List.nodup_cons.mp (hnames.nodup_iff.mp honce)).2, fun n hn => ?_⟩
    refine (List.mem_cons.mp (hnames.mem_iff.mp (hrequired n hn))).resolve_left ?_
    rintro rfl
    cases default_unique h hn hp
  · rintro ⟨hcount, hdeclared, honce, hrequired⟩
    exact ⟨hcount, List.forall_mem_cons.mpr ⟨List.mem_map.mpr ⟨_, hp, rfl⟩, hdeclared⟩,
      hnames.nodup_iff.mpr (List.nodup_cons.mpr ⟨hname, honce⟩),
      fun n hn => hnames.mem_iff.mpr (List.mem_cons_of_mem _ (hrequired n hn))⟩

/-- A default may be spelled out. -/
theorem bind_default (h : s.names.Nodup) (hp : (name, some value) ∈ s.parameters)
    (hname : name ∉ (s.supplied ⟨positional, keyword⟩).map (·.1)) (b : BoundArgs) :
    s.bind ⟨positional, (name, value) :: keyword⟩ = .ok b ↔ s.bind ⟨positional, keyword⟩ = .ok b := by
  have haccepts := accepts_default_iff h hp hname
  rw [bind_eq_ok_iff h, bind_eq_ok_iff h, haccepts]
  refine and_congr_right fun ha => Eq.congr_left (congrArg (BoundArgs.mk s.function) ?_)
  refine (sorted_addDefaults (Dict.sorted_ofList _)).ext (sorted_addDefaults (Dict.sorted_ofList _)) fun k => ?_
  have hlookup : (s.supplied ⟨positional, (name, value) :: keyword⟩).lookup k =
      ((name, value) :: s.supplied ⟨positional, keyword⟩).lookup k :=
    (lookup_perm (haccepts.mpr ha).once (s.supplied_cons_perm positional keyword name value)).symm
  have hskip : k ≠ name → (s.supplied ⟨positional, (name, value) :: keyword⟩).lookup k =
      (s.supplied ⟨positional, keyword⟩).lookup k := fun hk => hlookup.trans (lookup_cons_ne hk)
  by_cases hk : k ∈ s.names
  · obtain ⟨⟨k, default⟩, hkp, rfl⟩ := List.mem_map.mp hk
    rw [find?_addDefaults_of_mem h hkp, find?_addDefaults_of_mem h hkp,
      Dict.find?_ofList_of_nodup (haccepts.mpr ha).once, Dict.find?_ofList_of_nodup ha.once]
    by_cases hkname : k = name
    · -- the value is the default on both sides, here as it is supplied and there as it is filled in
      subst hkname
      obtain rfl := default_unique h hkp hp
      have hnone : (s.supplied ⟨positional, keyword⟩).lookup k = none :=
        Option.not_isSome_iff_eq_none.mp fun hsome => hname (lookup_isSome_iff_mem.mp hsome)
      rw [hlookup, List.lookup_cons_self, hnone]
      rfl
    · rw [hskip hkname]
  · have hkname : k ≠ name := by
      rintro rfl
      exact hk (List.mem_map.mpr ⟨_, hp, rfl⟩)
    rw [find?_addDefaults_of_not_mem hk, find?_addDefaults_of_not_mem hk,
      Dict.find?_ofList_of_nodup (haccepts.mpr ha).once, Dict.find?_ofList_of_nodup ha.once, hskip hkname]

end spelledOut

/-! ### Keys -/

theorem key_eq_iff (h : s.names.Nodup) {args' : Args} {b' : BoundArgs} (hb : s.bind args = .ok b)
    (hb' : s.bind args' = .ok b') :
    b.key = b'.key ↔ ∀ name ∈ s.names, Name.isPrivate name = false → b.find? name = b'.find? name := by
  have hfind : ∀ (b : BoundArgs) (k : String), b.key.values.find? k =
      if Name.isPrivate k = false then b.find? k else none := by
    intro b k
    refine (Dict.find?_filterNames _ k).trans ?_
    cases Name.isPrivate k <;> rfl
  constructor
  · intro hkey name _ hpublic
    have hsame := (hfind b name).symm.trans ((congrArg (·.values.find? name) hkey).trans (hfind b' name))
    rwa [if_pos hpublic, if_pos hpublic] at hsame
  · intro hagree
    refine congrArg ParameterKey.mk ?_
    refine ((sorted_of_bind h hb).filterNames _).ext ((sorted_of_bind h hb').filterNames _) fun k => ?_
    refine (hfind b k).trans (Eq.trans ?_ (hfind b' k).symm)
    by_cases hpublic : Name.isPrivate k = false
    · rw [if_pos hpublic, if_pos hpublic]
      by_cases hk : k ∈ s.names
      · exact hagree k hk hpublic
      · rw [find?_of_bind_of_not_mem h hb hk, find?_of_bind_of_not_mem h hb' hk]
    · rw [if_neg hpublic, if_neg hpublic]

/-- What the calls of a function come to. -/
structure Binds (s : Signature) : Prop where
  /-- The parameters can be declared. -/
  declared : ofFormals s.function (s.parameters.map fun p => .named p.1 p.2) = .ok s
  /-- The calls in order are accepted, and no other. -/
  accepts : ∀ args, (∃ b, s.bind args = .ok b) ↔ s.Accepts args
  /-- Exactly the declared names have a value. -/
  names : ∀ args b, s.bind args = .ok b → b.values.names.Perm s.names
  /-- The value of a parameter is what is supplied, or else the default. -/
  values : ∀ args b, s.bind args = .ok b → ∀ name default, (name, default) ∈ s.parameters →
    b.find? name = ((s.supplied args).lookup name).or default
  /-- The order of keywords makes no difference. -/
  permuted : ∀ positional keyword keyword', keyword.Perm keyword' →
    ∀ b, s.bind ⟨positional, keyword⟩ = .ok b ↔ s.bind ⟨positional, keyword'⟩ = .ok b
  /-- Values may be given by position or, from any place on, by keyword. -/
  named : ∀ positional more keyword, (positional ++ more).length ≤ s.parameters.length →
    ∀ b, s.bind ⟨positional ++ more, keyword⟩ = .ok b ↔
      s.bind ⟨positional, (s.names.drop positional.length).zip more ++ keyword⟩ = .ok b
  /-- A default may be spelled out or left out. -/
  defaults : ∀ positional keyword name value, (name, some value) ∈ s.parameters →
    name ∉ (s.supplied ⟨positional, keyword⟩).map (·.1) →
      ∀ b, s.bind ⟨positional, (name, value) :: keyword⟩ = .ok b ↔ s.bind ⟨positional, keyword⟩ = .ok b
  /-- Calls have one key if they agree on all parameters that are not private. -/
  keys : ∀ args args' b b', s.bind args = .ok b → s.bind args' = .ok b' →
    (b.key = b'.key ↔ ∀ name ∈ s.names, Name.isPrivate name = false → b.find? name = b'.find? name)

end Signature

/-- **Binding of arguments.**  A function with distinct parameters accepts exactly the calls that are in order, and
gives every parameter its value.  The spelling of a call makes no difference to what it binds, and calls have one
key if they agree on the parameters that are not private. -/
theorem arguments_bind {s : Signature} (distinct : s.names.Nodup) : s.Binds where
  declared := Signature.ofFormals_eq_ok_iff.mpr ⟨distinct, rfl, rfl⟩
  accepts args := by
    constructor
    · rintro ⟨b, hb⟩
      exact ((Signature.bind_eq_ok_iff distinct).mp hb).1
    · exact fun ha => ⟨_, (Signature.bind_eq_ok_iff distinct).mpr ⟨ha, rfl⟩⟩
  names _ _ hb := Signature.names_of_bind distinct hb
  values _ _ hb _ _ hp := Signature.find?_of_bind distinct hb hp
  permuted _ _ _ hperm := Signature.bind_of_perm distinct .rfl (hperm.append_left _)
  named positional more keyword hcount := by
    have hfewer : positional.length ≤ s.parameters.length := by
      rw [List.length_append] at hcount
      omega
    have hlength : s.names.length = s.parameters.length := List.length_map _
    exact Signature.bind_of_perm distinct (iff_of_true hcount hfewer)
      (.of_eq (Signature.supplied_append (hlength ▸ hfewer) more keyword))
  defaults _ _ _ _ hp hname := Signature.bind_default distinct hp hname
  keys _ _ _ _ hb hb' := Signature.key_eq_iff distinct hb hb'

namespace Sample

/-- A function with a default and a private parameter. -/
def fifo : Signature :=
  ⟨"fifo", [("width", none), ("depth", some (.int 4)), ("_trace", some (.bool false))]⟩

theorem width_of_required {name : String} (h : (name, none) ∈ fifo.parameters) : name = "width" := by
  simpa [fifo] using h

end Sample

/-- Two spellings of a call that differ in a private argument. -/
theorem arguments_bind_fifo :
    ∃ b b', Sample.fifo.bind ⟨[.int 8], [("_trace", .bool true)]⟩ = .ok b ∧
      Sample.fifo.bind ⟨[], [("depth", .int 4), ("width", .int 8)]⟩ = .ok b' ∧ b.key = b'.key ∧ b ≠ b' := by
  have hbinds : Sample.fifo.Binds := arguments_bind (by decide)
  obtain ⟨b, hb⟩ : ∃ b, Sample.fifo.bind ⟨[.int 8], [("_trace", .bool true)]⟩ = .ok b := by
    refine (hbinds.accepts _).mpr ⟨by decide, by decide, by decide, fun name hname => ?_⟩
    rw [Sample.width_of_required hname]
    decide
  obtain ⟨b', hb'⟩ : ∃ b', Sample.fifo.bind ⟨[], [("depth", .int 4), ("width", .int 8)]⟩ = .ok b' := by
    refine (hbinds.accepts _).mpr ⟨by decide, by decide, by decide, fun name hname => ?_⟩
    rw [Sample.width_of_required hname]
    decide
  have hvalue : ∀ {args c}, Sample.fifo.bind args = .ok c → ∀ p ∈ Sample.fifo.parameters,
      c.find? p.1 = ((Sample.fifo.supplied args).lookup p.1).or p.2 := fun hc p hp => hbinds.values _ _ hc _ _ hp
  refine ⟨b, b', hb, hb', (hbinds.keys _ _ _ _ hb hb').mpr fun name hname hpublic => ?_, ?_⟩
  · obtain ⟨p, hp, rfl⟩ := List.mem_map.mp hname
    rw [hvalue hb p hp, hvalue hb' p hp]
    revert hpublic
    revert p
    decide
  · rintro rfl
    have hsame := (hvalue hb ("_trace", some (.bool false)) (by decide)).symm.trans (hvalue hb' _ (by decide))
    exact absurd hsame (by decide)

end Wirework
