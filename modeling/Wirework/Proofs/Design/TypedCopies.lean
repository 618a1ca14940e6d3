import Wirework.Proofs.Design.Capture
import Wirework.Proofs.Design.Typing

/-! # Type soundness

A copy of an image inserts operations with the result types that the image names, without the checks that the
steps for single operations make.  An image that has been taken of a design with well-typed bodies is right
nevertheless: the values of a copy have the types of those they stand for (`Copying`), so its operations are
well typed as the copied ones are (`WellTyped.copied`).

Designs that are built by truthful calls and by copies of images of such designs therefore have well-typed
bodies, and an instance that has once passed its check goes on fitting the ports of its module
(`bodies_type_sound`). -/

namespace Wirework

namespace Design

variable {A b b' : Design} {id : ModuleId} {locals locals' : List ValueId} {outputs : List Port}
  {types : List HwType}

/-! ### Copies of operations -/

theorem SameType.typeOf?_eq {v v' : ValueId} (h : A.SameType b v v') {type : HwType}
    (hv : A.typeOf? v = some type) : b.typeOf? v' = some type := by
  obtain ⟨found, hfound, hv'⟩ := h
  exact Option.some.inj (hfound.symm.trans hv) ▸ hv'

/-- A copy of a well-typed operation is well typed. -/
theorem WellTyped.copied {original operation : Operation ModuleId ValueId} {copied : Operation String Nat}
    {R : ModuleId → String → Prop} {Q : ValueId → Nat → Prop} {R' : String → ModuleId → Prop}
    {Q' : Nat → ValueId → Prop} (h : A.WellTyped outputs original types)
    (hcopied : original.Corresponds R Q copied) (hresolves : copied.Corresponds R' Q' operation)
    (hsame : List.Forall₂ (A.SameType b) original.operands operation.operands) :
    b.WellTyped outputs operation types := by
  cases h with
  | constant c fits =>
      cases hcopied
      cases hresolves
      exact .constant c fits
  | add arithmetic left right =>
      cases hcopied
      cases hresolves
      obtain ⟨hl, hsame⟩ := List.forall₂_cons.mp hsame
      obtain ⟨hr, -⟩ := List.forall₂_cons.mp hsame
      exact .add arithmetic (hl.typeOf?_eq left) (hr.typeOf?_eq right)
  | register fed clocked =>
      cases hcopied
      cases hresolves
      obtain ⟨hi, hsame⟩ := List.forall₂_cons.mp hsame
      obtain ⟨hc, -⟩ := List.forall₂_cons.mp hsame
      exact .register (hi.typeOf?_eq fed) (hc.typeOf?_eq clocked)
  | instantiate =>
      cases hcopied
      cases hresolves
      exact .instantiate _ _ _ _ _
  | output driven =>
      cases hcopied
      cases hresolves
      exact .output (forall₂_comp (fun _ _ _ hv hsame => hsame.typeOf?_eq hv) driven hsame)

theorem Copying.appends (h : A.Copying b id locals locals') {operation : Operation ModuleId ValueId}
    (happ : b.Appends id operation b') (hyields : b'.Yields b.nextOp types) {results : List ValueId}
    (hresults : List.Forall₂ (fun v type => A.typeOf? v = some type) results types) :
    ∃ op, b'.op? b.nextOp = some op ∧ A.Copying b' id (locals ++ results) (locals' ++ op.results) := by
  obtain ⟨op, found, hop, _, _, hnext, hvalues⟩ := happ.op_next
  obtain ⟨op', hop', hgives⟩ := hyields
  obtain rfl := Option.some.inj (hop.symm.trans hop')
  have hunique : Relator.LeftUnique fun (type : HwType) v => b'.typeOf? v = some type :=
    fun _ _ _ ha hb => Option.some.inj (ha.symm.trans hb)
  obtain rfl : types = found :=
    List.left_unique_forall₂' hunique hgives (hnext ▸ typeOf?_nextValues hvalues)
  refine ⟨op, hop, ?_⟩
  rw [hnext]
  exact h.append happ.enlarges hresults hvalues (happ.result_owned hvalues)

/-! ### Images of bodies -/

theorem depicts_of_image {image : ModuleImage} {ops : List ImageOp} (h : A.image id = .ok image)
    (hcontents : image.contents = .body ops) :
    ∃ m body, A.module? id = some m ∧ m.body? = some body ∧ image.inputs = m.inputs ∧
      image.outputs = m.outputs ∧ A.Depicts body.ops.toList body.arguments ops := by
  obtain ⟨m, hm, hshows⟩ := image_eq_ok_iff.mp h
  cases hshows with
  | external kind => cases hcontents
  | @complete body found begun terminated depicted =>
      cases hcontents
      exact ⟨m, body, hm, begun, rfl, rfl, depicted⟩

end Design

namespace Edit

open Step Design

variable {A b b' : Design} {id : ModuleId}

/-! ### Copies of bodies -/

/-- Operations that depict well-typed ones are copied to well-typed ones. -/
theorem importOps_typeSound {os : List OpId} {locals : List ValueId} {ops : List ImageOp}
    (hdepicts : A.Depicts os locals ops) {outputs : List Port}
    (htyped : ∀ o ∈ os, ∃ op, A.op? o = some op ∧ A.OpTyped outputs op) {b : Design}
    (hb : b.TypeSound) {locals' : List ValueId} (hcopying : A.Copying b id locals locals')
    (houtputs : ∀ m, b.module? id = some m → m.outputs = outputs) :
    ((importOps id ops locals').apply b).2.TypeSound := by
  induction hdepicts generalizing b locals' with
  | nil locals => exact hb
  | @cons o op os locals copied ops found operation types attributes location rest ih =>
      rw [importOps]
      simp only [apply_bind, traverse_apply]
      rcases htraverse : copied.operation.traverse (moduleNamed b) (valueAt locals') with e | copy
      · exact hb
      have hresolves := traverse_eq_ok_iff.mp htraverse
      simp only
      rcases appendOp_cases id copy copied.resultTypes copied.attributes copied.location b with
        ⟨e, he⟩ | ⟨b₁, happ, hyields, hok⟩
      · rw [he]
        exact hb
      rw [hok]
      obtain ⟨new, hnew, hcopying₁⟩ := hcopying.appends happ hyields types
      obtain ⟨found', hfound', given, hop, hgives⟩ := htyped o List.mem_cons_self
      obtain rfl := Option.some.inj (found.symm.trans hfound')
      -- The image names the types of the results, which are those the operation has.
      obtain rfl := Yields.unique ⟨_, found, hgives⟩ ⟨_, found, types.flip⟩
      have hsame := hcopying.sameTypes operation.operands hresolves.operands
      have hb₁ : b₁.TypeSound := by
        refine hb.append happ (fun c hc => ?_) hyields fun m hm => ?_
        · obtain ⟨symbol, _, hfind⟩ := hresolves.callee? hc
          obtain ⟨callee, hcallee, _⟩ := find?_eq_some hfind
          exact ⟨callee, hcallee⟩
        · rw [houtputs m hm]
          exact hop.copied operation hresolves hsame
      simp only [apply_query]
      cases b₁.verify b.nextOp with
      | error e => exact hb₁
      | ok _ =>
          simp only [getOp_eq_ok_iff.mpr hnew]
          refine ih (fun o ho => htyped o (List.mem_cons_of_mem _ ho)) hb₁ hcopying₁ fun m₁ hm₁ => ?_
          obtain ⟨m, hm, hheader⟩ := exists_module?_of_header? (happ.header?_eq id).symm hm₁
          have heq : m.outputs = m₁.outputs := congrArg (·.outputs) hheader
          exact heq ▸ houtputs m hm

/-- A body is copied into a module of the same ports. -/
theorem importBody_typeSound (hA : A.TypeSound) {source : ModuleId} {m n : HwModule} {body : Body}
    {ops : List ImageOp} (hm : A.module? source = some m) (hbody : m.body? = some body)
    (hdepicts : A.Depicts body.ops.toList body.arguments ops) (hb : b.TypeSound)
    (hn : b.module? id = some n) (hinputs : n.inputs = m.inputs) (houtputs : n.outputs = m.outputs)
    (symbol : String) : ((importBody id symbol ops).apply b).2.TypeSound := by
  have hbegin := addEntryBlock_typeSound hb id
  rcases addEntryBlock_cases id b with ⟨e, he⟩ | ⟨n', hn', hkind, hok⟩
  · unfold importBody
    simp only [apply_bind, he]
    exact hb
  obtain rfl := Option.some.inj (hn.symm.trans hn')
  rw [hok] at hbegin
  have hops := importOps_typeSound hdepicts
    (fun o ho => hA.ops source m body hm hbody o (Array.mem_toList_iff.mp ho)) hbegin
    (Copying.begin (hA.linked.bodies source m body hm hbody) hinputs b) fun n' hn' => ?_
  · unfold importBody
    simp only [apply_bind, hok]
    rcases himport : (importOps id ops (b.nextValues n.inputs.length)).apply (b.beginBody id n) with
      ⟨e | ⟨⟩, b₁⟩
    · rw [himport] at hops
      exact hops
    · rw [himport] at hops
      simp only [apply_get]
      by_cases hcomplete : (b₁.module? id).any (·.isComplete) = true
      · rw [if_pos hcomplete]
        exact hops
      · rw [if_neg hcomplete]
        exact hops
  · obtain ⟨found, hfound, hheader⟩ := exists_module?_of_header? (header?_beginBody b id n id).symm hn'
    obtain rfl := Option.some.inj (hn.symm.trans hfound)
    have heq : n.outputs = n'.outputs := congrArg (·.outputs) hheader
    exact heq.symm.trans houtputs

/-- A copy of an image of a design with well-typed bodies leaves every body well typed, whether it is made or
not. -/
theorem importImage_typeSound (hA : A.TypeSound) {source : ModuleId} {image : ModuleImage}
    (himage : A.image source = .ok image) (hb : b.TypeSound) (symbol : String) :
    ((importImage image symbol).apply b).2.TypeSound := by
  rcases importImage_apply image symbol b with ⟨e, he⟩ | happly
  · rw [he]
    exact hb
  have hnew := hb.of_ops (.single (.addModule _ (image.blankAs_body? symbol))) rfl fun _ hc => hc
  rw [happly]
  cases hcontents : image.contents with
  | external parameters => exact hnew
  | body ops =>
      obtain ⟨m, body, hm, hbody, hinputs, houtputs, hdepicts⟩ := depicts_of_image himage hcontents
      have hn : ({ b with modules := b.modules.push (some (image.blankAs symbol)) } : Design).module?
          b.nextModule = some (image.blankAs symbol) :=
        (module?_push (d := b) rfl b.nextModule).trans (if_pos rfl)
      have hcopy := importBody_typeSound hA hm hbody hdepicts hnew hn
        ((image.blankAs_inputs symbol).trans hinputs) ((image.blankAs_outputs symbol).trans houtputs) symbol
      dsimp only
      rcases himport : (importBody b.nextModule symbol ops).apply
        { b with modules := b.modules.push (some (image.blankAs symbol)) } with ⟨e | ⟨⟩, b₁⟩
      · rw [himport] at hcopy
        exact hcopy.of_ops (.single (.eraseModule b.nextModule)) rfl fun _ hc => hc
      · rw [himport] at hcopy
        exact hcopy

/-! ### Instances in copies -/

theorem verify_enlarged {o : OpId} {op : Op} (hop : b.op? o = some op) (h : b.verify o = .ok ⟨⟩)
    (he : b.Enlarges b') : b'.verify o = .ok ⟨⟩ := by
  obtain ⟨hoperands, hfits⟩ := (verify_eq_ok_iff hop).mp h
  refine (verify_eq_ok_iff (he.op o op hop)).mpr ⟨fun v hv => ?_, hfits.enlarged he⟩
  obtain ⟨type, htype⟩ := hoperands v hv
  exact ⟨type, he.typeOf? htype⟩

/-- Every operation is checked when it has been copied. -/
theorem importOps_verified {ops : List ImageOp} {locals : List ValueId}
    (h : (importOps id ops locals).apply b = (.ok ⟨⟩, b'))
    (hverified : ∀ m, b.module? id = some m → b.Verified m) :
    ∀ m', b'.module? id = some m' → b'.Verified m' := by
  induction ops generalizing b locals with
  | nil =>
      obtain rfl : b = b' := (Prod.mk.inj h).2
      exact hverified
  | cons copied ops ih =>
      rw [importOps] at h
      simp only [apply_bind_eq_ok_iff, apply_query_eq_ok_iff, traverse_apply, Prod.mk.injEq] at h
      obtain ⟨operation, _, ⟨_, rfl⟩, o, b₁, happend, ⟨⟩, _, ⟨hverify, rfl⟩, _, _, ⟨_, rfl⟩, hrest⟩ := h
      rcases appendOp_cases id operation copied.resultTypes copied.attributes copied.location b with
        ⟨e, he⟩ | ⟨b₂, happ, _, hok⟩
      · rw [he] at happend
        cases happend
      rw [hok] at happend
      cases happend
      refine ih hrest fun m₁ hm₁ body₁ o op hbody₁ ho hop hcallee => ?_
      obtain ⟨m, body, hm, hbody, _, hself⟩ := happ.module?_self
      obtain rfl := Option.some.inj (hm₁.symm.trans hself)
      obtain rfl : body.extend b.nextOp operation = body₁ := Option.some.inj hbody₁
      rcases happ.op_cases hop with hold | ⟨rfl, _⟩
      · rcases Array.mem_push.mp ho with ho | rfl
        · exact verify_enlarged hold (hverified m hm body o op hbody ho hold hcallee) happ.enlarges
        · exact hverify
      · exact hverify

theorem importImage_verified {image : ModuleImage} {symbol : String}
    (h : (importImage image symbol).apply b = (.ok id, b')) :
    ∀ m, b'.module? id = some m → b'.Verified m := by
  obtain ⟨rfl, ⟨parameters, hcontents, rfl⟩ | ⟨ops, hcontents, himport⟩⟩ := importBody_of_importImage h
  · intro m hm body o op hbody
    obtain rfl := Option.some.inj (((module?_push rfl _).trans (if_pos rfl)).symm.trans hm)
    cases (image.blankAs_body? symbol).symm.trans hbody
  · obtain ⟨n, hn, hops⟩ := importOps_of_importBody himport
    refine importOps_verified hops fun m hm body o op hbody ho => ?_
    rw [module?_beginBody, if_pos rfl, hn] at hm
    obtain rfl := Option.some.inj hm
    obtain rfl := Option.some.inj hbody
    exact absurd ho (Array.not_mem_empty o)

end Edit

/-! ### All designs -/

namespace Design

variable {d d' : Design}

/-- The design `d'` is built from `d` by truthful calls and by copies of images, each of which has been taken
of a design that is built in the same way. -/
inductive Builds : Design → Design → Prop
  | refl (d : Design) : Builds d d
  | call {d d' : Design} (built : Builds d d') (call : DesignCall) (truthful : call.Truthful d') :
      Builds d (d'.after call)
  | copy {d d' A : Design} {source : ModuleId} {image : ModuleImage} (built : Builds d d')
      (origin : Builds empty A) (taken : A.image source = .ok image) (symbol : String) :
      Builds d (d'.after (.importImage image symbol))

theorem Builds.evolves (h : d.Builds d') : d.Evolves d' := by
  induction h with
  | refl => exact .refl
  | call _ _ _ ih => exact ih.trans (evolves_after _ _)
  | copy _ _ _ _ ih _ => exact ih.trans (evolves_after _ _)

theorem Builds.typeSound (h : d.Builds d') (hd : d.TypeSound) : d'.TypeSound := by
  induction h with
  | refl => exact hd
  | call _ _ truthful ih => exact (ih hd).after truthful
  | copy _ _ taken symbol ih iha =>
      unfold after DesignCall.step
      rw [Step.apply_discard]
      exact Edit.importImage_typeSound (iha TypeSound.empty) taken (ih hd) symbol

/-- What the types in a design can be relied on for. -/
structure Typechecks (d : Design) : Prop where
  /-- In every body each operation is well typed. -/
  bodies : ∀ id m body, d.module? id = some m → m.body? = some body → ∀ o ∈ body.ops,
    ∃ op, d.op? o = some op ∧ d.OpTyped m.outputs op
  /-- An instance that passes its check fits the ports of its module for as long as there is one. -/
  instances : ∀ o, d.verify o = .ok ⟨⟩ → ∀ d', d.Builds d' →
    ∀ op c name inputs parameters callee, d'.op? o = some op →
      op.operation = .instantiate c name inputs parameters → d'.module? c = some callee →
        List.Forall₂ (fun port v => d'.typeOf? v = some port.type) callee.inputs inputs
  /-- The instances in a copy of an image pass their check. -/
  copies : ∀ image symbol id d', (Edit.importImage image symbol).apply d = (.ok id, d') →
    ∀ m, d'.module? id = some m → d'.Verified m
  /-- A signal that is read off an operation is truthful. -/
  returned : ∀ o index s, d.result o index = .ok s → d.typeOf? s.value = some s.type

/-- An instance that has passed its check goes on fitting. -/
theorem fits_later (hd : d.Linked) {o : OpId} (hverify : d.verify o = .ok ⟨⟩) (he : d.Evolves d')
    {op : Op} {c : ModuleId} {name : String} {inputs : List ValueId} {parameters : AttributeMap}
    {callee : HwModule} (hop : d'.op? o = some op)
    (hoperation : op.operation = .instantiate c name inputs parameters)
    (hcallee : d'.module? c = some callee) :
    List.Forall₂ (fun port v => d'.typeOf? v = some port.type) callee.inputs inputs := by
  obtain ⟨old, hold, -⟩ := bind_eq_ok_iff.mp hverify
  rw [getOp_eq_ok_iff] at hold
  obtain ⟨-, hlike, -⟩ := he.retains.operation_eq hold hop
  rw [hoperation] at hlike
  obtain ⟨-, hfits⟩ := (verify_eq_ok_iff hold).mp hverify
  rw [← hlike] at hfits
  obtain ⟨-, found, hfound, hports⟩ := hfits
  have hmade := hd.callee_made o old c hold (by rw [← hlike]; rfl)
  obtain ⟨m, hm, hheader⟩ := he.module?_eq_some hmade hcallee
  obtain rfl := Option.some.inj (hfound.symm.trans hm)
  have hinputs : found.inputs = callee.inputs := congrArg (·.inputs) hheader
  exact hinputs ▸ hports.imp fun _ _ hv => he.retains.typeOf?_eq hv

theorem typeOf?_of_result {o : OpId} {index : Nat} {s : Signal} (h : d.result o index = .ok s) :
    d.typeOf? s.value = some s.type := by
  obtain ⟨op, _, h⟩ := bind_eq_ok_iff.mp h
  cases hv : op.results[index]? with
  | none => rw [hv] at h; cases h
  | some v =>
      rw [hv] at h
      obtain ⟨htype, rfl⟩ := signal_eq_ok_iff.mp h
      exact htype

end Design

/-- **Bodies are well typed.**  In a design that is built by truthful calls and by copies of images of such
designs, every operation of every body has operands and results of the right types, and instances that have
passed their check fit the ports of their modules from then on. -/
theorem bodies_type_sound {d : Design} (h : Design.empty.Builds d) : d.Typechecks where
  bodies := (h.typeSound Design.TypeSound.empty).ops
  instances _ hverify _ hbuilds _ _ _ _ _ _ hop hoperation hcallee :=
    Design.fits_later (h.typeSound Design.TypeSound.empty).linked hverify hbuilds.evolves hop hoperation
      hcallee
  copies _ _ _ _ hcopy := Edit.importImage_verified hcopy
  returned _ _ _ hresult := Design.typeOf?_of_result hresult

/-! ### A design with a copy -/

namespace Sample

theorem doubler_built : Design.empty.Builds (Design.build doublerCalls) := by
  have htruthful : ∀ (d : Design) (v : ValueId), d.typeOf? v = some (.uint 8) →
      (⟨v, .uint 8⟩ : Signal).Truthful d :=
    fun d v hv type htype => Option.some.inj (hv.symm.trans htype)
  have hbegun := ((((Design.Builds.refl .empty).call doublerCalls[0] trivial).call
    doublerCalls[1] trivial).call doublerCalls[2] trivial).call doublerCalls[3] trivial
  have hadded := hbegun.call doublerCalls[4]
    ⟨htruthful _ _ (by decide +kernel), htruthful _ _ (by decide +kernel)⟩
  have hplaced := hadded.call doublerCalls[5] trivial
  exact hplaced.call doublerCalls[6] fun s hs =>
    List.mem_singleton.mp hs ▸ htruthful _ _ (by decide +kernel)

/-- Other modules and a copy of the doubler. -/
def copiedDoubler : Design :=
  (Design.build otherCalls).after (.importImage doublerImage "Copy")

theorem copiedDoubler_built : Design.empty.Builds copiedDoubler :=
  .copy (.call (.call (.refl .empty) otherCalls[0] trivial) otherCalls[1] trivial) doubler_built
    doublerImage_taken "Copy"

end Sample

/-- The copied doubler is well typed. -/
theorem bodies_type_sound_doubler :
    (Sample.copiedDoubler.module? ⟨2⟩).any (·.isComplete) = true ∧ Sample.copiedDoubler.Typechecks :=
  ⟨by decide +kernel, bodies_type_sound Sample.copiedDoubler_built⟩

end Wirework
