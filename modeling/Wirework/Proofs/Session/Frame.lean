import Wirework.Proofs.Session.Activity

/-! # What an activity leaves alone

However activities nest and fail, making a module gives back the scopes, the running generators and the names in use
as they were, and changes neither the modules there were nor the operations in their bodies.  Going on with a body
does the same but for the module of that body and its innermost scope of names (`Does.keeps`).

`Keeps own depth s s'` says both at once, with the module and the number of scopes that may change as its arguments,
so one induction over activities serves both kinds of tasks.  The case that needs care is a body that is entered,
changed and left again (`Opens.keeps_leave`): what it has changed inside is its own module and its own scope, which
are gone or new to those outside. -/

namespace Wirework

namespace Session

/-- The module that a task may change. -/
def Task.own? (t : Task) (s : Session) : Option ModuleId :=
  match t with
  | .make _ _ _ => none
  | .fill => s.here?

/-- How many scopes of instance names a task may change. -/
def Task.depth : Task → Nat
  | .make _ _ _ => 0
  | .fill => 1

/-- The session `s'` differs from `s` within a module and the innermost scopes of names, and by what is
new. -/
structure Keeps (own : Option ModuleId) (depth : Nat) (s s' : Session) : Prop where
  scopes_eq : s'.design.scopes = s.design.scopes
  generating_eq : s'.generating = s.generating
  config_eq : s'.config = s.config
  blocks_eq : s'.blocks.drop depth = s.blocks.drop depth
  modules_suffix : s.modules <:+ s'.modules
  size_le : s.design.modules.size ≤ s'.design.modules.size
  module?_eq : ∀ id, id.index < s.design.modules.size → some id ≠ own →
    s'.design.module? id = s.design.module? id
  header?_eq : ∀ id, id.index < s.design.modules.size →
    s'.design.header? id = s.design.header? id
  op?_eq : ∀ o op, s.design.op? o = some op → op.parent.index < s.design.modules.size →
    some op.parent ≠ own → s'.design.op? o = some op

namespace Keeps

variable {own : Option ModuleId} {depth : Nat} {s s' s'' : Session}

theorem refl (own : Option ModuleId) (depth : Nat) (s : Session) : Keeps own depth s s where
  scopes_eq := rfl
  generating_eq := rfl
  config_eq := rfl
  blocks_eq := rfl
  modules_suffix := List.suffix_rfl
  size_le := Nat.le_refl _
  module?_eq _ _ _ := rfl
  header?_eq _ _ := rfl
  op?_eq _ _ h _ _ := h

theorem trans (h : Keeps own depth s s') (h' : Keeps own depth s' s'') : Keeps own depth s s'' where
  scopes_eq := h'.scopes_eq.trans h.scopes_eq
  generating_eq := h'.generating_eq.trans h.generating_eq
  config_eq := h'.config_eq.trans h.config_eq
  blocks_eq := h'.blocks_eq.trans h.blocks_eq
  modules_suffix := h.modules_suffix.trans h'.modules_suffix
  size_le := Nat.le_trans h.size_le h'.size_le
  module?_eq id hid hne := by
    rw [h'.module?_eq id (Nat.lt_of_lt_of_le hid h.size_le) hne, h.module?_eq id hid hne]
  header?_eq id hid := by
    rw [h'.header?_eq id (Nat.lt_of_lt_of_le hid h.size_le), h.header?_eq id hid]
  op?_eq o op hop hlt hne :=
    h'.op?_eq o op (h.op?_eq o op hop hlt hne) (Nat.lt_of_lt_of_le hlt h.size_le) hne

theorem weaken (h : Keeps none 0 s s') (own : Option ModuleId) (depth : Nat) :
    Keeps own depth s s' where
  scopes_eq := h.scopes_eq
  generating_eq := h.generating_eq
  config_eq := h.config_eq
  blocks_eq := by
    have hblocks := h.blocks_eq
    rw [List.drop_zero, List.drop_zero] at hblocks
    rw [hblocks]
  modules_suffix := h.modules_suffix
  size_le := h.size_le
  module?_eq id hid _ := h.module?_eq id hid (by simp)
  header?_eq := h.header?_eq
  op?_eq o op hop hlt _ := h.op?_eq o op hop hlt (by simp)

theorem symbolOf?_eq (h : Keeps own depth s s') {id : ModuleId}
    (hid : id.index < s.design.modules.size) : s'.design.symbolOf? id = s.design.symbolOf? id :=
  Design.symbolOf?_of_header? (h.header?_eq id hid)

theorem here?_eq (h : Keeps own depth s s') : s'.here? = s.here? :=
  congrArg Scopes.insertionPoint? h.scopes_eq

theorem points_eq (h : Keeps own depth s s') : s'.points = s.points :=
  congrArg Scopes.insertionPoints h.scopes_eq

end Keeps

/-! ### One step within a body -/

theorem keeps_of_appends {s : Session} {parent : ModuleId} {operation : Operation ModuleId ValueId}
    {design : Design} (h : s.design.Appends parent operation design) (depth : Nat) :
    Keeps (some parent) depth s { s with design } where
  scopes_eq := h.scopes_eq
  generating_eq := rfl
  config_eq := rfl
  blocks_eq := rfl
  modules_suffix := List.suffix_rfl
  size_le := Nat.le_of_eq h.modules_size.symm
  module?_eq _ _ hne := h.module?_ne fun he => hne (congrArg some he)
  header?_eq id _ := h.header?_eq id
  op?_eq _ _ hop _ _ := h.op?_old hop

theorem Edits.keeps {s s' : Session} (h : s.Edits s') : Keeps s.here? 1 s s' := by
  cases h with
  | append here appends goesOn callee =>
      rw [here]
      exact keeps_of_appends appends 1
  | @annotate parent id op here found own attributes =>
      refine { Keeps.refl s.here? 1 s with op?_eq := ?_ }
      intro o op' hop _ hne
      by_cases ho : o = id
      · subst ho
        rw [found] at hop
        obtain rfl := Option.some.inj hop
        rw [own, here] at hne
        exact absurd rfl hne
      · rw [Design.op?_annotate found, if_neg ho, hop]
  | name blocks => exact { Keeps.refl s.here? 1 s with blocks_eq := by rw [blocks]; rfl }
  | register => exact { Keeps.refl s.here? 1 s with }
  | warn => exact { Keeps.refl s.here? 1 s with }

/-! ### New modules -/

theorem keeps_of_takes {s : Session} {slot : Option HwModule} {design : Design}
    (h : s.design.Takes slot design) : Keeps none 0 s { s with design } where
  scopes_eq := h.scopes_eq
  generating_eq := rfl
  config_eq := rfl
  blocks_eq := rfl
  modules_suffix := List.suffix_rfl
  size_le := by
    change s.design.modules.size ≤ design.modules.size
    rw [h.size_eq]
    exact Nat.le_succ _
  module?_eq id hid _ := h.module?_old id (Design.ne_nextModule hid)
  header?_eq id hid := Design.header?_congr (h.module?_old id (Design.ne_nextModule hid))
  op?_eq o op hop _ _ := h.op_old o op hop

theorem Fits.keeps {s : Session} {name : String} {m : HwModule} {design : Design}
    {entry : ManifestEntry} (h : s.Fits name m design entry) (d : DefId) :
    Keeps none 0 s (s.enroll d m design entry) :=
  { keeps_of_takes h.takes with modules_suffix := List.suffix_cons _ _ }

theorem filter_unbound {s : Session} {d : DefId} (h : s.moduleOf? d = none) :
    s.modules.filter (·.1 ≠ d) = s.modules := by
  refine List.filter_eq_self.mpr fun entry hentry => ?_
  have hne := List.lookup_eq_none_iff.mp h entry hentry
  rw [bne_iff_ne] at hne
  rw [decide_eq_true_eq]
  exact hne.symm

theorem filter_idle {d : DefId} {ds : List DefId} (h : d ∉ ds) : (d :: ds).filter (· ≠ d) = ds := by
  rw [List.filter_cons_of_neg (by simp)]
  refine List.filter_eq_self.mpr fun e he => ?_
  rw [decide_eq_true_eq]
  rintro rfl
  exact h he

/-- Entering a body, changing it and leaving it again. -/
theorem Opens.keeps_leave {catalog : Catalog} {s s₁ s₂ : Session} {d : DefId} {name : String}
    (opens : s.Opens catalog d name s₁) (h : Keeps (some s.design.nextModule) 1 s₁ s₂) :
    Keeps none 0 s (s₂.leave d) := by
  cases opens with
  | @intro m design entry arguments idle unbound original fits begun suits location clock =>
      have henroll := fits.keeps d
      refine ⟨?_, ?_, h.config_eq, ?_, henroll.modules_suffix.trans h.modules_suffix,
        Nat.le_trans henroll.size_le h.size_le, ?_, fun id hid => ?_, ?_⟩
      · change s₂.design.scopes.leave = s.design.scopes
        rw [h.scopes_eq]
        exact fits.takes.scopes_eq
      · change s₂.generating.filter (· ≠ d) = s.generating
        rw [h.generating_eq]
        exact filter_idle idle
      · change s₂.blocks.tail = s.blocks
        rw [← List.drop_one, h.blocks_eq]
        rfl
      · intro id hid _
        have hne := Design.ne_nextModule hid
        have hinside := h.module?_eq id (Nat.lt_of_lt_of_le hid henroll.size_le)
          fun he => hne (Option.some.inj he)
        exact hinside.trans (henroll.module?_eq id hid (by simp))
      · exact (h.header?_eq id (Nat.lt_of_lt_of_le hid henroll.size_le)).trans
          (henroll.header?_eq id hid)
      · intro o op hop hlt _
        have hne := Design.ne_nextModule hlt
        exact h.op?_eq o op (henroll.op?_eq o op hop hlt (by simp))
          (Nat.lt_of_lt_of_le hlt henroll.size_le) fun he => hne (Option.some.inj he)

theorem symbols_drop {s : Session} {id : ModuleId} {m : HwModule} (h : s.design.module? id = some m)
    (d : DefId) (name : String) : (s.drop d name id).symbols = s.symbols.release m.symbol := by
  unfold drop
  simp only [h]

theorem module?_drop (s : Session) (d : DefId) (name : String) (id j : ModuleId) :
    (s.drop d name id).design.module? j = if j = id then none else s.design.module? j :=
  Design.module?_erase rfl j

/-- Removing a module that was not there. -/
theorem Keeps.drop {s s' : Session} {d : DefId} (h : Keeps none 0 s s')
    (unbound : s.moduleOf? d = none) (name : String) :
    Keeps none 0 s (s'.drop d name s.design.nextModule) where
  scopes_eq := h.scopes_eq
  generating_eq := h.generating_eq
  config_eq := h.config_eq
  blocks_eq := h.blocks_eq
  modules_suffix := by
    rw [← filter_unbound unbound]
    exact h.modules_suffix.filter _
  size_le := by
    change s.design.modules.size ≤ (s'.design.modules.setIfInBounds _ none).size
    rw [Array.size_setIfInBounds]
    exact h.size_le
  module?_eq id hid hne := by
    rw [module?_drop, if_neg (Design.ne_nextModule hid), h.module?_eq id hid hne]
  header?_eq id hid := by
    rw [← h.header?_eq id hid]
    refine Design.header?_congr ?_
    rw [module?_drop, if_neg (Design.ne_nextModule hid)]
  op?_eq := h.op?_eq

/-! ### Tasks -/

/-- What an activity leaves alone. -/
theorem Does.keeps {catalog : Catalog} {t : Task} {s s' : Session}
    (h : Does catalog t s s') : Keeps (t.own? s) t.depth s s' := by
  induction h with
  | refused => exact .refl none 0 _
  | spoilt d name takes warnings => exact { keeps_of_takes takes with }
  | known => exact .refl none 0 _
  | leaf idle unbound fits settled copied suits => exact fits.keeps _
  | @generated s s₁ s₂ d name values design opens fill ends ih =>
      rw [Task.own?, opens.here?_eq] at ih
      exact opens.keeps_leave (ih.trans (keeps_of_appends ends 1))
  | @discarded s s₁ s₂ d name opens fill current ih =>
      rw [Task.own?, opens.here?_eq] at ih
      exact (opens.keeps_leave ih).drop opens.unbound current
  | rest s => exact .refl _ 1 s
  | edit fill edits ih =>
      have hedits := edits.keeps
      rw [ih.here?_eq] at hedits
      exact ih.trans hedits
  | nested fill make ihfill ihmake => exact ihfill.trans (ihmake.weaken _ 1)

end Session

end Wirework
