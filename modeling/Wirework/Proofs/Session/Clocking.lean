import Wirework.Proofs.Session.Moves

/-! # Clocks of bodies

Every register takes the clock in scope, and scopes of clocks are entered and left with the bodies that are built.  So
the clocks in scope are those of the bodies under construction, innermost first, and the registers of a body, be it
under construction or finished, have the clock that a body of its definition has (`Session.Clocked`).

Every change of a session preserves this (`Clocked.moves`), also one that leaves a body whose generation has failed.
There is one lemma for each kind of change: an operation is appended, which has the clock in scope if it is a
register; a module is made; a body is entered, with a clock or with none, which hides those outside; and a body is
left, finished or not. -/

namespace Wirework

/-- Every register in the body has the clock. -/
def Design.BodyClocked (d : Design) (body : Body) (clock : Option Clock) : Prop :=
  ∀ o ∈ body.ops, ∃ op, d.op? o = some op ∧ op.operation.ClockedBy clock

theorem Design.BodyClocked.retained {d d' : Design} {body : Body} {clock : Option Clock}
    (h : d.BodyClocked body clock) (hretains : d.Retains d') : d'.BodyClocked body clock := by
  intro o ho
  obtain ⟨op, hop, hclock⟩ := h o ho
  obtain ⟨op', hop', _, hoperation, _⟩ := hretains.op o op hop
  exact ⟨op', hop', hoperation ▸ hclock⟩

namespace Session

variable {catalog : Catalog} {s s' : Session} {d : DefId} {id : ModuleId} {clock : Option Clock}

/-- The body of the module has the clock, as a body of the definition may, and so have its registers. -/
def Timed (s : Session) (catalog : Catalog) (d : DefId) (id : ModuleId) (clock : Option Clock) : Prop :=
  ∃ m body, s.design.module? id = some m ∧ m.body? = some body ∧
    catalog.clocks d body.arguments clock ∧ s.design.BodyClocked body clock

/-- All bodies have clocks of their own, and the clocks in scope are those of the bodies under construction. -/
structure Clocked (s : Session) (catalog : Catalog) : Prop where
  timed : ∀ d id m body, (d, id) ∈ s.modules → ¬ catalog.imported d → s.design.module? id = some m →
    m.body? = some body → ∃ clock, s.Timed catalog d id clock
  ambient : List.Forall₂ (fun id clock => ∃ d, (d, id) ∈ s.modules ∧ s.Timed catalog d id clock) s.points
    s.design.scopes.clocks

theorem clocked_ofConfig (config : Config) (catalog : Catalog) : (ofConfig config).Clocked catalog where
  timed _ _ _ _ hmem := absurd hmem List.not_mem_nil
  ambient := .nil

theorem Timed.congr (h : s.Timed catalog d id clock) (hmodule : s'.design.module? id = s.design.module? id)
    (hretains : s.design.Retains s'.design) : s'.Timed catalog d id clock := by
  obtain ⟨m, body, hm, hbody, hclock, hregisters⟩ := h
  exact ⟨m, body, hmodule.trans hm, hbody, hclock, hregisters.retained hretains⟩

/-- An operation is appended to the body; if it is a register, it has the clock of the body. -/
theorem Timed.append (h : s.Timed catalog d id clock) {operation : Operation ModuleId ValueId} {design : Design}
    (happ : s.design.Appends id operation design) (hclocked : operation.ClockedBy clock) :
    Timed { s with design } catalog d id clock := by
  obtain ⟨m, body, hm, hbody, hclock, hregisters⟩ := h
  obtain ⟨m', body', hm', hbody', _, hself⟩ := happ.module?_self
  obtain rfl := Option.some.inj (hm.symm.trans hm')
  obtain rfl := Option.some.inj (hbody.symm.trans hbody')
  refine ⟨_, _, hself, rfl, hclock, fun o ho => ?_⟩
  rcases Array.mem_push.mp ho with hold | rfl
  · exact hregisters.retained happ.retains o hold
  · obtain ⟨op, hop, _, hoperation⟩ := happ.op?_new
    exact ⟨op, hop, hoperation ▸ hclocked⟩

namespace Clocked

theorem outer (h : s.Clocked catalog) (hs : s.Coherent) {ids : List ModuleId} (inside : s.points = id :: ids) :
    ∃ d clock clocks, s.design.scopes.clocks = clock :: clocks ∧ (d, id) ∈ s.modules ∧
      s.Timed catalog d id clock ∧
        List.Forall₂ (fun j clock => j ≠ id ∧ ∃ e, (e, j) ∈ s.modules ∧ s.Timed catalog e j clock) ids clocks := by
  have hambient := h.ambient
  have hnodup := hs.stacked.points_nodup
  rw [inside] at hambient hnodup
  generalize s.design.scopes.clocks = clocks at hambient
  cases hambient with
  | @cons _ clock _ clocks hfirst hrest =>
      obtain ⟨d, hmem, htimed⟩ := hfirst
      refine ⟨d, clock, clocks, rfl, hmem, htimed, (List.forall₂_and_left ids clocks).mpr ⟨?_, hrest⟩⟩
      rintro j hj rfl
      exact (List.nodup_cons.mp hnodup).1 hj

theorem congr (h : s.Clocked catalog) (hmodules : s'.modules = s.modules)
    (hmodule : ∀ id, s'.design.module? id = s.design.module? id)
    (hscopes : s'.design.scopes = s.design.scopes) (hretains : s.design.Retains s'.design) :
    s'.Clocked catalog where
  timed d id m body hmem original hm hbody := by
    rw [hmodules] at hmem
    rw [hmodule] at hm
    obtain ⟨clock, htimed⟩ := h.timed d id m body hmem original hm hbody
    exact ⟨clock, htimed.congr (hmodule id) hretains⟩
  ambient := by
    unfold points
    rw [hscopes, hmodules]
    refine h.ambient.imp fun id clock => ?_
    rintro ⟨d, hmem, htimed⟩
    exact ⟨d, hmem, htimed.congr (hmodule id) hretains⟩

theorem append (h : s.Clocked catalog) (hs : s.Coherent) {operation : Operation ModuleId ValueId}
    {design : Design} (here : s.here? = some id) (happ : s.design.Appends id operation design)
    (hclocked : operation.ClockedBy s.design.scopes.clock?) : Clocked { s with design } catalog := by
  obtain ⟨ids, inside⟩ := List.head?_eq_some_iff.mp here
  obtain ⟨d, clock, clocks, hclocks, hmem, htimed, hrest⟩ := h.outer hs inside
  have hscope : s.design.scopes.clock? = clock := by
    unfold Scopes.clock?
    rw [hclocks]
    rfl
  have hself := htimed.append happ (hscope ▸ hclocked)
  have hother : ∀ {e j clock}, j ≠ id → s.Timed catalog e j clock →
      Timed { s with design } catalog e j clock :=
    fun hne htimed => htimed.congr (happ.module?_ne hne) happ.retains
  constructor
  case timed =>
    intro e j m body hj original hm hbody
    by_cases hjid : j = id
    · subst hjid
      obtain rfl := hs.roster.definition_inj hmem hj
      exact ⟨clock, hself⟩
    · have hm : design.module? j = some m := hm
      obtain ⟨clock, htimed⟩ := h.timed e j m body hj original
        ((happ.module?_ne hjid).symm.trans hm) hbody
      exact ⟨clock, hother hjid htimed⟩
  case ambient =>
    have hpoints : Session.points { s with design } = id :: ids :=
      (congrArg Scopes.insertionPoints happ.scopes_eq).trans inside
    rw [hpoints, happ.scopes_eq, hclocks]
    refine .cons ⟨d, hmem, hself⟩ (hrest.imp fun j clock => ?_)
    rintro ⟨hne, e, hmem, htimed⟩
    exact ⟨e, hmem, hother hne htimed⟩

/-- The other modules keep their clocks when a module is made for the definition. -/
theorem enroll (h : s.Clocked catalog) (hs : s.Coherent) {name : String} {m : HwModule} {design : Design}
    {entry : ManifestEntry} (fits : s.Fits name m design entry) (s' : Session)
    (hmodules : s'.modules = (d, s.design.nextModule) :: s.modules)
    (hdesign : ∀ j, s'.design.module? j = design.module? j) (hretains : s.design.Retains s'.design)
    (hnew : ¬ catalog.imported d → ∀ body, m.body? = some body →
      ∃ clock, s'.Timed catalog d s.design.nextModule clock) :
    (∀ e j n body, (e, j) ∈ s'.modules → ¬ catalog.imported e → s'.design.module? j = some n →
      n.body? = some body → ∃ clock, s'.Timed catalog e j clock) ∧
    List.Forall₂ (fun j clock => ∃ e, (e, j) ∈ s'.modules ∧ s'.Timed catalog e j clock) s.points
      s.design.scopes.clocks := by
  have hmodule : ∀ {e j}, (e, j) ∈ s.modules → s'.design.module? j = s.design.module? j := by
    intro e j hmem
    have hne := (hs.isLive_iff.mpr ⟨e, hmem⟩).ne_nextModule
    exact (hdesign j).trans (fits.takes.module?_old j hne)
  rw [hmodules]
  constructor
  · intro e j n body hj original hn hbody
    rcases List.mem_cons.mp hj with hnext | hj
    · obtain ⟨rfl, rfl⟩ := Prod.mk.inj hnext
      obtain rfl := Option.some.inj (fits.takes.module?_next.symm.trans ((hdesign _).symm.trans hn))
      exact hnew original body hbody
    · obtain ⟨clock, htimed⟩ := h.timed e j n body hj original ((hmodule hj).symm.trans hn) hbody
      exact ⟨clock, htimed.congr (hmodule hj) hretains⟩
  · refine h.ambient.imp fun j clock => ?_
    rintro ⟨e, hmem, htimed⟩
    exact ⟨e, List.mem_cons_of_mem _ hmem, htimed.congr (hmodule hmem) hretains⟩

theorem leaf (h : s.Clocked catalog) (hs : s.Coherent) {name : String} {m : HwModule} {design : Design}
    {entry : ManifestEntry} (fits : s.Fits name m design entry)
    (copied : catalog.imported d ∨ m.isExternal = true) : (s.enroll d m design entry).Clocked catalog := by
  obtain ⟨htimed, hambient⟩ := h.enroll hs fits (s.enroll d m design entry) rfl (fun _ => rfl)
    fits.takes.retains fun original body hbody => by
      rcases copied with himported | hexternal
      · exact absurd himported original
      · cases hbody.symm.trans (HwModule.body?_eq_none_of_isExternal hexternal)
  have hpoints : (s.enroll d m design entry).points = s.points :=
    congrArg Scopes.insertionPoints fits.takes.scopes_eq
  have hclocks : (s.enroll d m design entry).design.scopes.clocks = s.design.scopes.clocks :=
    congrArg Scopes.clocks fits.takes.scopes_eq
  exact ⟨htimed, by rwa [hpoints, hclocks]⟩

/-- A body that is entered has no registers yet, and its clock is in scope. -/
theorem enter (h : s.Clocked catalog) (hs : s.Coherent) {name : String}
    (opens : s.Opens catalog d name s') : s'.Clocked catalog := by
  have hretains := opens.retains
  cases opens with
  | @intro m design entry arguments idle unbound original fits begun suits location clock clocked =>
      let entered := (s.enroll d m design entry).enter d s.design.nextModule location clock
      have hself : entered.Timed catalog d s.design.nextModule clock :=
        ⟨m, _, fits.takes.module?_next, begun, clocked, fun o ho => absurd ho (by simp)⟩
      obtain ⟨htimed, hambient⟩ := h.enroll hs fits entered rfl (fun _ => rfl) hretains
        fun _ _ _ => ⟨clock, hself⟩
      have hpoints : entered.points = s.design.nextModule :: s.points :=
        congrArg (s.design.nextModule :: ·) (congrArg Scopes.insertionPoints fits.takes.scopes_eq)
      have hclocks : entered.design.scopes.clocks = clock :: s.design.scopes.clocks :=
        congrArg (clock :: ·) (congrArg Scopes.clocks fits.takes.scopes_eq)
      refine ⟨htimed, ?_⟩
      rw [hpoints, hclocks]
      exact .cons ⟨d, List.mem_cons_self, hself⟩ hambient

theorem leave (h : s.Clocked catalog) (d : DefId) : (s.leave d).Clocked catalog where
  timed := h.timed
  ambient := by
    have hambient := h.ambient
    change List.Forall₂ _ s.points.tail s.design.scopes.clocks.tail
    generalize s.points = ids at hambient
    generalize s.design.scopes.clocks = clocks at hambient
    cases hambient with
    | nil => exact .nil
    | cons hfirst hrest => exact hrest

/-- The module whose body was left is taken out of the session. -/
theorem discard (h : s.Clocked catalog) (hs : s.Coherent) {ds : List DefId} {ids : List ModuleId}
    (running : s.generating = d :: ds) (inside : s.points = id :: ids) (name : String) :
    ((s.leave d).drop d name id).Clocked catalog := by
  obtain ⟨hmem, _⟩ := hs.outer running inside
  have hmodule := (s.leave d).module?_drop d name id
  have hother : ∀ {e j clock}, j ≠ id → s.Timed catalog e j clock →
      ((s.leave d).drop d name id).Timed catalog e j clock :=
    fun hne htimed => htimed.congr ((hmodule _).trans (if_neg hne)) (Design.retains_of_tables rfl rfl)
  constructor
  case timed =>
    intro e j m body hj original hm hbody
    rw [hmodule] at hm
    by_cases hjid : j = id
    · rw [if_pos hjid] at hm
      cases hm
    · rw [if_neg hjid] at hm
      obtain ⟨clock, htimed⟩ := h.timed e j m body (List.mem_of_mem_filter hj) original hm hbody
      exact ⟨clock, hother hjid htimed⟩
  case ambient =>
    obtain ⟨_, clock, clocks, hclocks, _, _, hrest⟩ := h.outer hs inside
    have hpoints : ((s.leave d).drop d name id).points = ids := Coherent.points_leave (d := d) inside
    have htail : ((s.leave d).drop d name id).design.scopes.clocks = clocks :=
      congrArg List.tail hclocks
    rw [hpoints, htail]
    refine hrest.imp fun j clock => ?_
    rintro ⟨hne, e, he, htimed⟩
    refine ⟨e, List.mem_filter.mpr ⟨he, ?_⟩, hother hne htimed⟩
    rw [decide_eq_true_eq]
    rintro rfl
    exact hne (congrArg Prod.snd (List.inj_on_of_nodup_map hs.roster.definitions_nodup he hmem rfl))

/-- Every change of a session keeps the clocks of bodies apart. -/
theorem moves (h : s.Clocked catalog) (hs : s.Coherent) (hmoves : s.Moves catalog s') :
    s'.Clocked catalog := by
  have hretains := hmoves.retains
  cases hmoves with
  | spoil takes warnings =>
      refine h.congr rfl (fun id => ?_) takes.scopes_eq hretains
      by_cases hid : id = s.design.nextModule
      · rw [hid, takes.module?_next, s.design.module?_nextModule]
      · exact takes.module?_old id hid
  | leaf unbound fits settled copied declares => exact h.leaf hs fits copied
  | enter opens => exact h.enter hs opens
  | edit edits =>
      cases edits with
      | append here appends goesOn callee clocked => exact h.append hs here appends clocked
      | annotate | name | register | warn => exact h.congr rfl (fun _ => rfl) rfl hretains
  | finish running inside ends =>
      have here : s.here? = some _ := congrArg List.head? inside
      exact (h.append hs here ends trivial).leave _
  | discard running inside name => exact h.discard hs running inside name

end Clocked

end Session

end Wirework
