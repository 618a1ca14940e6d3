import Wirework.Proofs.Design.Sketching
import Wirework.Proofs.Engine.Emitting
import Wirework.Proofs.Engine.Permanence

/-! # Bodies that are being drafted

While a body is being built, a draft tells what it holds so far and what is in scope, without telling where in the
tables of the session (`Session.Drafted`).  An operation on values and modules that the draft knows is appended and
becomes the next one of the draft (`Drafted.append`).  Modules that are made meanwhile leave the draft alone
(`Drafted.make`), since finished modules stay finished (`Session.Sustains`).

What is in a module that has been finished is compared with what it should hold.  A setting says so for each planned
definition, wherever its modules are made.  A world is ready for the setting if what has been made of planned
definitions is as the setting says, and what is being made comes late enough not to be asked for (`World.Ready`).  A
way of making modules is steady if it leaves ready worlds ready, and refuses just the definitions of which the setting
says that they cannot be made (`Materializer.Steady`). -/

namespace Wirework

/-! ## Drafts -/

variable {ρ σ : Type}

namespace Session

/-! ### Finished modules -/

/-- Finished modules are still there, with their bodies, and so are all values. -/
structure Sustains (s s' : Session) : Prop where
  persists : ∀ d id m, s.MadeFor d id → s.design.module? id = some m → Persists d id m s s'
  retains : s.design.Retains s'.design

namespace Sustains

variable {s s' : Session}

theorem madeFor (h : s.Sustains s') (hs : s.Coherent) {d : DefId} {id : ModuleId} (made : s.MadeFor d id) :
    s'.MadeFor d id := by
  obtain ⟨m, hm⟩ := hs.isLive_of_made made.made
  exact (h.persists d id m made hm).made

end Sustains

theorem Edits.sustains {s s' : Session} (h : s.Edits s') (hs : s.Coherent) : s.Sustains s' where
  persists _ _ _ made hm := by
    refine h.keeps.persists hs (hs.edits h) made hm fun here => ?_
    exact hs.not_mem_points made.made (Coherent.mem_of_here? here.symm)
  retains := h.retains

end Session

theorem World.Works.sustains {w w' : World σ} (h : w.Works w') (hs : w.session.Coherent) :
    w.session.Sustains w'.session where
  persists _ _ _ := h.persists hs
  retains := (h.session _ (refl_of Library.Extends _)).retains

/-! ### Drafts -/

/-- What is known of a body that is being built. -/
structure Draft where
  /-- Types of the values, by their positions. -/
  types : List HwType
  ops : List SketchOp := []
  /-- Position of the clock in scope. -/
  clock : Option Nat
  location : Location
  /-- Instance names in use. -/
  names : NameScope := .empty

/-- The draft with one more operation. -/
def Draft.extend (draft : Draft) (op : SketchOp) : Draft :=
  { draft with types := draft.types ++ op.resultTypes, ops := draft.ops ++ [op] }

namespace Session

/-- The body of the frame is being built and has come as far as drafted; its values are `locals`. -/
structure Drafted (s : Session) (definition : Definition ρ) (frame : Frame) (locals : List ValueId)
    (draft : Draft) : Prop where
  here : s.here? = some frame.module
  body : ∃ m ops, s.design.module? frame.module = some m ∧
    m.header = (Compile.plainModule definition m.symbol).header ∧
    m.body? = some { arguments := frame.arguments, ops } ∧
    s.design.Sketched s.MadeFor ops.toList frame.arguments draft.ops locals
  values : s.design.Locals frame.module draft.types locals
  arguments : frame.arguments.length = definition.inputs.length
  clock : Option.Rel (fun clock position => locals[position]? = some clock.value) s.design.scopes.clock?
    draft.clock
  location : s.design.scopes.location = draft.location
  names : ∃ outer, s.blocks = draft.names :: outer

namespace Drafted

variable {s s' : Session} {definition : Definition ρ} {frame : Frame} {locals : List ValueId} {draft : Draft}

theorem building (h : s.Drafted definition frame locals draft) : s.design.Building frame.module := by
  obtain ⟨m, ops, hm, _, hbody, _⟩ := h.body
  exact ⟨h.here, m, _, hm, hbody, rfl⟩

theorem owned (h : s.Drafted definition frame locals draft) {operation : Operation ModuleId ValueId}
    {drawn : Operation DefId Nat} (hoperation : operation.Corresponds (Function.swap s.MadeFor)
      (fun v position => locals[position]? = some v) drawn) :
    ∀ v ∈ operation.operands, s.design.owner? v = some frame.module := by
  intro v hv
  obtain ⟨position, _, hposition⟩ := exists_of_mem_right hoperation.operands.flip hv
  exact h.values.owned v (List.mem_of_getElem? hposition)

/-- What is appended becomes the next operation of the draft. -/
theorem append (h : s.Drafted definition frame locals draft) {operation : Operation ModuleId ValueId}
    {drawn : SketchOp} (hoperation : operation.Corresponds (Function.swap s.MadeFor)
      (fun v position => locals[position]? = some v) drawn.operation)
    (hgoes : operation.isTerminator = false) (hclocked : operation.ClockedBy s.design.scopes.clock?)
    {m : HwModule} {body : Body} (hm : s.design.module? frame.module = some m) (hbody : m.body? = some body) :
    let design := s.design.append frame.module body operation drawn.resultTypes drawn.attributes drawn.location
    s.Edits { s with design } ∧
      Drafted { s with design } definition frame
        (locals ++ s.design.nextValues drawn.resultTypes.length) (draft.extend drawn) := by
  intro design
  obtain ⟨m', ops, hm', hheader, hbody', hsketched⟩ := h.body
  obtain rfl := Option.some.inj (hm.symm.trans hm')
  obtain rfl := Option.some.inj (hbody.symm.trans hbody')
  have happ : s.design.Appends frame.module operation design :=
    .intro hm hbody rfl (h.owned hoperation) _ _ _
  have hmade : ∀ id, operation.callee? = some id → s.Made id := by
    intro id hid
    obtain ⟨c, _, hc⟩ := hoperation.swap.callee? hid
    exact MadeFor.made hc
  refine ⟨.append h.here happ hgoes hmade hclocked, ?_⟩
  let begun : Body := { arguments := frame.arguments, ops }
  have hself : design.module? frame.module =
      some { m with kind := .generated (some (begun.extend s.design.nextOp operation)) } := by
    rw [Design.module?_append, if_pos rfl, hm]
    rfl
  constructor
  case here => exact (congrArg Scopes.insertionPoint? happ.scopes_eq).trans h.here
  case body =>
    refine ⟨_, ops.push s.design.nextOp, hself, hheader, ?_, ?_⟩
    · change some (begun.extend s.design.nextOp operation) = _
      unfold Body.extend
      rw [hgoes]
    · rw [Array.toList_push]
      exact hsketched.extend happ hoperation
  case values => exact h.values.append happ rfl
  case arguments => exact h.arguments
  case clock =>
    change Option.Rel _ s.design.scopes.clock? draft.clock
    refine optionRel_mono (fun clock position hclock => ?_) h.clock
    rw [List.getElem?_append_left (List.getElem?_eq_some_iff.mp hclock).1, hclock]
  case location => exact h.location
  case names => exact h.names

theorem name (h : s.Drafted definition frame locals draft) (name : String) {outer : List NameScope} :
    Drafted { s with blocks := (draft.names.uniquify name).2 :: outer } definition frame locals
      { draft with names := (draft.names.uniquify name).2 } :=
  { h with names := ⟨outer, rfl⟩ }

/-- Modules that are made meanwhile leave the body alone. -/
theorem make (h : s.Drafted definition frame locals draft) (hs : s.Coherent) (hkeeps : Keeps none 0 s s')
    (hsustains : s.Sustains s') : s'.Drafted definition frame locals draft where
  here := hkeeps.here?_eq.trans h.here
  body := by
    obtain ⟨m, ops, hm, hheader, hbody, hsketched⟩ := h.body
    obtain ⟨hm', hops⟩ := hkeeps.body_kept hs hm (by simp)
    refine ⟨m, ops, hm', hheader, hbody, hsketched.mono (fun o ho op hop => ?_)
      (fun v type => hsustains.retains.typeOf?_eq) fun c id => hsustains.madeFor hs⟩
    exact (hops _ hbody o (Array.mem_toList_iff.mp ho)).trans hop
  values := h.values.retained hsustains.retains
  arguments := h.arguments
  clock := by
    rw [hkeeps.scopes_eq]
    exact h.clock
  location := by
    rw [hkeeps.scopes_eq]
    exact h.location
  names := by
    obtain ⟨outer, houter⟩ := h.names
    exact ⟨outer, hkeeps.blocks_eq.trans houter⟩

end Drafted

end Session

/-! ## Standard modules -/

/-! ### Contents of modules -/

/-- What is in a module, as a sketch. -/
inductive SketchContents where
  | external (parameters : List ParameterDecl)
  | body (ops : List SketchOp)

namespace Session

/-- The module holds what is sketched. -/
inductive Holds (s : Session) (m : HwModule) : SketchContents → Prop
  | external {parameters : List ParameterDecl} (kind : m.kind = .external parameters) :
      Holds s m (.external parameters)
  | body {arguments : List ValueId} {ops : Array OpId} {drawn : List SketchOp} {last : List ValueId}
      (kind : m.kind = .generated (some { arguments, ops, terminated := true }))
      (sketched : s.design.Sketched s.MadeFor ops.toList arguments drawn last) (nodup : last.Nodup) :
      Holds s m (.body drawn)

/-- The module is one of the definition, but for its symbol, and holds what is sketched. -/
def Shows (s : Session) (definition : Definition ρ) (id : ModuleId) (contents : SketchContents) : Prop :=
  ∃ m, s.design.module? id = some m ∧ m.header = (Compile.plainModule definition m.symbol).header ∧
    s.Holds m contents

variable {s s' : Session} {definition : Definition ρ} {d : DefId} {id : ModuleId}
  {contents contents' : SketchContents}

theorem Coherent.madeFor_inj (hs : s.Coherent) {c c' : DefId} (h : s.MadeFor c id) (h' : s.MadeFor c' id) :
    c = c' :=
  hs.roster.definition_inj (hs.moduleOf?_eq_some_iff.mp h.1) (hs.moduleOf?_eq_some_iff.mp h'.1)

/-- A module holds one thing only. -/
theorem Shows.unique (h : s.Shows definition id contents) (h' : s.Shows definition id contents')
    (hs : s.Coherent) : contents = contents' := by
  obtain ⟨m, hm, _, hholds⟩ := h
  obtain ⟨m', hm', _, hholds'⟩ := h'
  obtain rfl := Option.some.inj (hm.symm.trans hm')
  cases hholds with
  | external kind =>
      cases hholds' with
      | external kind' => cases kind.symm.trans kind'; rfl
      | body kind' => cases kind.symm.trans kind'
  | body kind sketched nodup =>
      cases hholds' with
      | external kind' => cases kind.symm.trans kind'
      | body kind' sketched' nodup' =>
          cases kind.symm.trans kind'
          rw [sketched.unique sketched' nodup fun c c' id => hs.madeFor_inj]

theorem Shows.sustained (h : s.Shows definition id contents) (hs : s.Coherent) (made : s.MadeFor d id)
    (hsustains : s.Sustains s') : s'.Shows definition id contents := by
  obtain ⟨m, hm, hheader, hholds⟩ := h
  obtain ⟨hm', hops⟩ := (hsustains.persists d id m made hm).kept
  refine ⟨m, hm', hheader, ?_⟩
  cases hholds with
  | external kind => exact .external kind
  | body kind sketched nodup =>
      refine .body kind (sketched.mono (fun o ho op hop => ?_) (fun v type => hsustains.retains.typeOf?_eq)
        fun c id => hsustains.madeFor hs) nodup
      have hbody := HwModule.body?_eq_some_iff.mpr kind
      exact (hops _ hbody o (Array.mem_toList_iff.mp ho)).trans hop

end Session

/-! ### Settings -/

/-- Definitions that are planned, and what modules of them have to hold. -/
structure Setting (σ : Type) where
  library : Library σ
  config : Config
  planned : DefId → Prop
  standard : DefId → SketchContents → Prop

/-- What has been made in the world is as the setting says, and definitions below the bound are not being
generated. -/
structure World.Ready (g : Setting σ) (bound : Nat) (w : World σ) : Prop where
  coherent : w.session.Coherent
  knows : ∀ d, g.planned d → w.workspace.library.getDefinition d = g.library.getDefinition d
  config_eq : w.session.config = g.config
  pending : ∀ d ∈ w.session.generating, bound ≤ d.index
  standard : ∀ d definition id, g.planned d → g.library.getDefinition d = .ok definition →
    w.session.MadeFor d id → ∃ contents, g.standard d contents ∧ w.session.Shows definition id contents

/-- Ready worlds stay ready, and definitions below the bound are made just if the setting says what they hold. -/
def Materializer.Steady (g : Setting σ) (bound : Nat) (materialize : Materializer σ) : Prop :=
  ∀ d (w : World σ), g.planned d → d.index < bound → w.Ready g bound →
    World.Ready g bound ((materialize d).apply w).2 ∧
      (((materialize d).apply w).1.isOk = true ↔ ∃ contents, g.standard d contents)

namespace World.Ready

variable {g : Setting σ} {bound bound' : Nat} {w w' : World σ}

theorem start (workspace : Workspace σ)
    (knows : ∀ d, g.planned d → workspace.library.getDefinition d = g.library.getDefinition d) :
    World.Ready g bound ⟨workspace, .ofConfig g.config⟩ where
  coherent := Session.coherent_ofConfig g.config
  knows := knows
  config_eq := rfl
  pending d hd := absurd hd List.not_mem_nil
  standard d definition id _ _ made := by cases made.1

/-- A session that has no finished modules but those of a ready one, and one that is as the setting says. -/
theorem carry (h : w.Ready g bound) (hsustains : w.session.Sustains w'.session)
    (hcoherent : w'.session.Coherent)
    (hknows : ∀ d, g.planned d → w'.workspace.library.getDefinition d = g.library.getDefinition d)
    (hconfig : w'.session.config = w.session.config)
    (hpending : ∀ d ∈ w'.session.generating, bound' ≤ d.index)
    (hmade : ∀ d definition id, g.planned d → g.library.getDefinition d = .ok definition →
      w'.session.MadeFor d id → w.session.MadeFor d id ∨
        ∃ contents, g.standard d contents ∧ w'.session.Shows definition id contents) :
    w'.Ready g bound' where
  coherent := hcoherent
  knows := hknows
  config_eq := hconfig.trans h.config_eq
  pending := hpending
  standard d definition id hd hdefinition made := by
    rcases hmade d definition id hd hdefinition made with made | hshows
    · obtain ⟨contents, hcontents, hshows⟩ := h.standard d definition id hd hdefinition made
      exact ⟨contents, hcontents, hshows.sustained h.coherent made hsustains⟩
    · exact hshows

theorem edits (h : w.Ready g bound) {s : Session} (hedits : w.session.Edits s) :
    World.Ready g bound { w with session := s } := by
  have hkeeps := hedits.keeps
  refine h.carry (hedits.sustains h.coherent) (h.coherent.edits hedits) h.knows hkeeps.config_eq ?_ ?_
  · change ∀ d ∈ s.generating, _
    rw [hkeeps.generating_eq]
    exact h.pending
  · refine fun d _ id _ _ made => Or.inl ⟨?_, ?_⟩
    · unfold Session.moduleOf?
      rw [← hedits.modules_eq]
      exact made.1
    · rw [← hkeeps.generating_eq]
      exact made.2

end World.Ready

end Wirework
