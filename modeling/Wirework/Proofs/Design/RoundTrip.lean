import Wirework.Proofs.Design.Copying

/-! # Round trips

The image of a module can be taken if the module is settled and its callees are live.  A copy of the image, inserted
into any design that supplies modules for the callees, has the same image again but for its symbol
(`image_import_image`).

The image shows the module, which is a relation between operations of the image and operations of a design
(`Design.Depicts`).  Copying operation by operation keeps this relation with the body of the copy
(`importOps_copied`); the induction is on the operations of the image and needs that nothing follows an operation that
ends a body, which holds of images of terminated bodies (`Depicts.closes`).  So the body of the copy is depicted by
the image that it was made of (`importBody_copied`), and there is only one image that shows a module. -/

namespace Wirework

namespace Design

variable {A b b' : Design} {id : ModuleId}

/-- Operations of an image have been copied to the end of a body, where they are depicted by the image. -/
structure Copied (b : Design) (id : ModuleId) (body : Body) (locals : List ValueId)
    (ops : List ImageOp) (b' : Design) : Prop where
  enlarges : b.Enlarges b'
  extended : ∃ m' body' os, b'.module? id = some m' ∧ m'.body? = some body' ∧
    body'.arguments = body.arguments ∧ body'.ops.toList = body.ops.toList ++ os ∧
    b'.Depicts os locals ops ∧
    body'.terminated = ops.foldl (fun _ op => op.operation.isTerminator) body.terminated

/-- Copying an operation and then the others. -/
theorem Copied.cons {body : Body} {locals : List ValueId} {copied : ImageOp}
    {ops : List ImageOp} {operation : Operation ModuleId ValueId}
    (hcorresponds : operation.Corresponds (fun c symbol => b.symbolOf? c = some symbol)
      (fun v position => locals.idxOf? v = some position) copied.operation)
    (happ : b.Appends id operation
      (b.append id body operation copied.resultTypes copied.attributes copied.location))
    (h : Copied (b.append id body operation copied.resultTypes copied.attributes copied.location) id
      (body.extend b.nextOp operation) (locals ++ b.nextValues copied.resultTypes.length) ops b') :
    Copied b id body locals (copied :: ops) b' := by
  obtain ⟨he, m', body', os, hm', hbody', harguments, hops, hdepicts, hterminated⟩ := h
  refine ⟨happ.enlarges.trans he, m', body', b.nextOp :: os, hm', hbody', harguments, ?_, ?_, ?_⟩
  · rw [hops]
    unfold Body.extend
    rw [Array.toList_push, List.append_assoc]
    rfl
  · have hnext := b.op?_append_next id body operation copied.resultTypes copied.attributes
      copied.location
    refine .cons (he.op _ _ hnext) ?_ ?_ rfl rfl hdepicts
    · refine hcorresponds.mono (fun c symbol _ hc => ?_) fun _ _ _ hv => hv
      exact (he.symbolOf? c).trans ((happ.enlarges.symbolOf? c).trans hc)
    · exact (typeOf?_nextValues rfl).flip.imp fun v type hv => he.typeOf? hv
  · rw [hterminated, List.foldl_cons, hcorresponds.isTerminator_eq]
    rfl

/-- Operations that depict those of another design are copied, as long as nothing follows an operation
that ends a body. -/
theorem importOps_copied {os : List OpId} {locals : List ValueId} {ops : List ImageOp}
    (h : A.Depicts os locals ops)
    (hfits : ∀ o ∈ os, ∀ op, A.op? o = some op → A.Fits op.operation)
    (hcloses : ∀ (k : Nat) copied, ops[k]? = some copied → copied.operation.isTerminator = true →
      k + 1 = ops.length)
    {b : Design} {locals' : List ValueId} {m : HwModule} {body : Body}
    (hsupplies : ∀ o ∈ os, ∀ op c, A.op? o = some op → op.operation.callee? = some c →
      A.Supplies b c)
    (hcopying : A.Copying b id locals locals') (hm : b.module? id = some m)
    (hbody : m.body? = some body) (hunfinished : ops ≠ [] → body.terminated = false) :
    ∃ b', (Edit.importOps id ops locals').apply b = (.ok ⟨⟩, b') ∧
      Copied b id body locals' ops b' := by
  induction h generalizing b locals' m body with
  | nil locals =>
      refine ⟨b, rfl, ⟨fun _ => rfl, fun _ _ h => h, fun _ _ h => h⟩, m, body, [], hm, hbody, rfl,
        (List.append_nil _).symm, .nil locals', rfl⟩
  | @cons o op os locals copied ops found operation types attributes location rest ih =>
      obtain ⟨copy, hresolves, hcopyFits⟩ := hcopying.exists_operation operation
        (fun c hc => hsupplies o List.mem_cons_self op c found hc)
        (hfits o List.mem_cons_self op found)
      have howned := hcopying.operand_owned hresolves
      have hopen := hunfinished (List.cons_ne_nil copied ops)
      have happ : b.Appends id copy
          (b.append id body copy copied.resultTypes copied.attributes copied.location) :=
        .intro hm hbody hopen howned _ _ _
      have hmodule : (b.append id body copy copied.resultTypes copied.attributes
          copied.location).module? id =
            some { m with kind := .generated (some (body.extend b.nextOp copy)) } := by
        rw [module?_append, if_pos rfl, hm]
        rfl
      have hrest := ih (fun o ho => hfits o (List.mem_cons_of_mem _ ho))
        (fun k op hk hterm => Nat.succ.inj (hcloses (k + 1) op hk hterm))
        (fun o ho op c hop hc =>
          (hsupplies o (List.mem_cons_of_mem _ ho) op c hop hc).enlarged happ.enlarges)
        (hcopying.append happ.enlarges types rfl (happ.result_owned rfl)) hmodule rfl fun hne => ?_
      · obtain ⟨b', happly, hcopied⟩ := hrest
        refine ⟨b', ?_, hcopied.cons (hcopying.corresponds hresolves) happ⟩
        rw [Edit.importOps_cons_apply hm hbody hopen hresolves howned hcopyFits, happly]
      · -- More operations follow, so this one does not end the body.
        by_contra hterm
        rw [Bool.not_eq_false] at hterm
        have hlast := hcloses 0 copied rfl (hresolves.isTerminator_eq ▸ hterm)
        exact hne (List.length_eq_zero_iff.mp (Nat.succ.inj hlast).symm)

/-! ### The end of a body -/

theorem Depicts.length_eq {os : List OpId} {locals : List ValueId} {ops : List ImageOp}
    (h : A.Depicts os locals ops) : ops.length = os.length := by
  induction h with
  | nil => rfl
  | cons _ _ _ _ _ _ ih => exact congrArg Nat.succ ih

theorem Depicts.getElem? {os : List OpId} {locals : List ValueId} {ops : List ImageOp}
    (h : A.Depicts os locals ops) {k : Nat} {copied : ImageOp} (hk : ops[k]? = some copied) :
    ∃ o op, os[k]? = some o ∧ A.op? o = some op ∧
      copied.operation.isTerminator = op.operation.isTerminator := by
  induction h generalizing k with
  | nil => cases hk
  | @cons o op _ _ _ _ found operation _ _ _ _ ih =>
      cases k with
      | zero =>
          obtain rfl := Option.some.inj hk
          exact ⟨o, op, rfl, found, operation.isTerminator_eq⟩
      | succ k => exact ih hk

/-- An image of a terminated body ends with the operation that ends the body, and has no other such
operation. -/
theorem Depicts.closes {m : HwModule} {body : Body} {ops : List ImageOp}
    (hsound : A.BodySound id m body) (hterminated : body.terminated = true)
    (h : A.Depicts body.ops.toList body.arguments ops) :
    (∀ (k : Nat) copied, ops[k]? = some copied → copied.operation.isTerminator = true →
      k + 1 = ops.length) ∧
      ops.foldl (fun _ op => op.operation.isTerminator) false = true := by
  constructor
  · intro k copied hk hterm
    obtain ⟨o, op, ho, hop, heq⟩ := h.getElem? hk
    rw [h.length_eq, Array.length_toList]
    rw [Array.getElem?_toList] at ho
    exact (hsound.terminator_last k o op ho hop (heq ▸ hterm)).1
  · obtain ⟨o, op, hback, hop, hterm⟩ := hsound.terminated hterminated
    rw [Array.back?_eq_getElem?] at hback
    have hlt := (Array.getElem?_eq_some_iff.mp hback).1
    have hlength : ops.length = body.ops.size := h.length_eq.trans Array.length_toList
    obtain ⟨last, hlast⟩ : ∃ last, ops[body.ops.size - 1]? = some last :=
      ⟨_, List.getElem?_eq_getElem (hlength ▸ hlt)⟩
    obtain ⟨o', op', ho', hop', heq⟩ := h.getElem? hlast
    rw [Array.getElem?_toList, hback] at ho'
    obtain rfl := Option.some.inj ho'
    rw [hop] at hop'
    obtain rfl := Option.some.inj hop'
    rw [← hlength, ← List.getLast?_eq_getElem?] at hlast
    obtain ⟨init, rfl⟩ := List.getLast?_eq_some_iff.mp hlast
    rw [List.foldl_append]
    exact heq.trans hterm

/-! ### Copies of modules -/

/-- The operations of a body that instantiate a module pass their check. -/
def Verified (d : Design) (m : HwModule) : Prop :=
  ∀ body o op, m.body? = some body → o ∈ body.ops → d.op? o = some op →
    op.operation.callee?.isSome = true → d.verify o = .ok ⟨⟩

theorem Verified.fits {m : HwModule} {body : Body} (h : A.Verified m) (hbody : m.body? = some body)
    {o : OpId} {op : Op} (ho : o ∈ body.ops) (hop : A.op? o = some op) : A.Fits op.operation := by
  have hverify := h body o op hbody ho hop
  cases hoperation : op.operation with
  | instantiate module name inputs parameters =>
      rw [← hoperation]
      exact ((verify_eq_ok_iff hop).mp (hverify (by rw [hoperation]; rfl))).2
  | _ => trivial

theorem Supplies.push {c : ModuleId} (h : A.Supplies b c) {n : HwModule}
    (hmodules : b'.modules = b.modules.push (some n)) : A.Supplies b' c := by
  refine h.of_header fun symbol c' hc' => ⟨find?_push hmodules hc', header?_congr ?_⟩
  obtain ⟨m, hm, _⟩ := find?_eq_some hc'
  rw [module?_push hmodules, if_neg (IsLive.ne_nextModule ⟨m, hm⟩)]

end Design

namespace Edit

open Step Design

variable {A B : Design} {id : ModuleId} {m : HwModule}

theorem importImage_external {parameters : List ParameterDecl} {symbol : String}
    (hvalid : Name.isValid symbol = true) (hfresh : B.find? symbol = none) :
    ∃ id' B', (importImage (m.imageWith (.external parameters)) symbol).apply B = (.ok id', B') ∧
      B'.image id' = .ok { m.imageWith (.external parameters) with symbol } := by
  let n : HwModule := { m with symbol, kind := .external parameters }
  refine ⟨B.nextModule, { B with modules := B.modules.push (some n) }, ?_, ?_⟩
  · exact addModule_apply (m := n) hvalid hfresh
  · have hn : ({ B with modules := B.modules.push (some n) } : Design).module? B.nextModule = some n :=
      (module?_push rfl B.nextModule).trans (if_pos rfl)
    exact image_external hn rfl

/-- A body is copied into a new module, which is then depicted by the same operations. -/
theorem importBody_copied {body : Body} {ops : List ImageOp} (h : A.Linked)
    (hm : A.module? id = some m) (hbody : m.body? = some body) (hterminated : body.terminated = true)
    (hdepicts : A.Depicts body.ops.toList body.arguments ops) (hverified : A.Verified m)
    {target : ModuleId} {n : HwModule} (hn : B.module? target = some n)
    (hkind : n.kind = .generated none) (hinputs : n.inputs = m.inputs)
    (hsupplies : ∀ c ∈ A.callees m, A.Supplies B c) (symbol : String) :
    ∃ B', (importBody target symbol ops).apply B = (.ok ⟨⟩, B') ∧
      B'.image target = .ok (n.imageWith (.body ops)) := by
  have hsound := h.bodies id m body hm hbody
  obtain ⟨hcloses, hends⟩ := hdepicts.closes hsound hterminated
  have hbegun : (B.beginBody target n).module? target = some { n with
      kind := .generated (some { arguments := B.nextValues n.inputs.length }) } := by
    rw [module?_beginBody, if_pos rfl, hn]
    rfl
  obtain ⟨B', happly, henlarges, m', body', os, hm', hbody', harguments, hops, hdepicts',
    hterminated'⟩ := importOps_copied hdepicts
      (fun o ho op hop => hverified.fits hbody (Array.mem_toList_iff.mp ho) hop) hcloses
      (fun o ho op c hop hc => (hsupplies c (mem_callees.mpr
        ⟨body, o, op, hbody, Array.mem_toList_iff.mp ho, hop, hc⟩)).enlarged
          (enlarges_beginBody B target n))
      (Copying.begin hsound hinputs B) hbegun rfl (fun _ => rfl)
  rw [hends] at hterminated'
  refine ⟨B', ?_, ?_⟩
  · have hcomplete : ((B'.module? target).any (·.isComplete)) = true := by
      rw [hm']
      exact HwModule.isComplete_iff.mpr ⟨body', hbody', hterminated'⟩
    unfold importBody
    simp only [apply_bind, addEntryBlock_apply hn hkind, happly, apply_get, hcomplete, if_true,
      apply_pure]
  · have hheader : m'.header = n.header := by
      have heq := (henlarges.header target).trans (header?_beginBody B target n target)
      unfold header? at heq
      rw [hm', hn] at heq
      exact Option.some.inj heq
    have hops' : body'.ops.toList = os := hops
    have harguments' : body'.arguments = B.nextValues n.inputs.length := harguments
    rw [← hops', ← harguments'] at hdepicts'
    rw [image_complete hm' hbody' hterminated' hdepicts']
    have hcopy := congrArg (fun header : HwModule => header.imageWith (.body ops)) hheader
    exact congrArg Except.ok hcopy

/-- A copy of a module with a body. -/
theorem importImage_complete {body : Body} {ops : List ImageOp} (h : A.Linked)
    (hm : A.module? id = some m) (hbody : m.body? = some body) (hterminated : body.terminated = true)
    (hdepicts : A.Depicts body.ops.toList body.arguments ops) (hverified : A.Verified m)
    {symbol : String} (hvalid : Name.isValid symbol = true) (hfresh : B.find? symbol = none)
    (hsupplies : ∀ c ∈ A.callees m, A.Supplies B c) :
    ∃ id' B', (importImage (m.imageWith (.body ops)) symbol).apply B = (.ok id', B') ∧
      B'.image id' = .ok { m.imageWith (.body ops) with symbol } := by
  let n : HwModule := { m with symbol, kind := .generated none }
  let B₀ : Design := { B with modules := B.modules.push (some n) }
  have hnew : (newModule symbol m.inputs m.outputs m.attributes m.location).apply B =
      (.ok B.nextModule, B₀) := addModule_apply hvalid hfresh
  have hn : B₀.module? B.nextModule = some n :=
    (module?_push (d := B) rfl B.nextModule).trans (if_pos rfl)
  obtain ⟨B', happly, himage⟩ := importBody_copied h hm hbody hterminated hdepicts hverified hn rfl
    rfl (fun c hc => (hsupplies c hc).push rfl) symbol
  refine ⟨B.nextModule, B', ?_, himage⟩
  unfold importImage
  simp only [HwModule.imageWith, apply_bind, hnew, apply_tryCatch, happly, apply_pure]

end Edit

open Design in
/-- **A copy has the image it is a copy of.**  A settled module whose callees are live has an image, which shows its
ports, attributes and location, and its parameters or, one by one, the operations of its body.  If its instances pass
their check, then a copy of the image under any free symbol, inserted into any design that supplies the callees, has
the same image under this symbol. -/
theorem image_import_image {A : Design} (hA : A.Reached) {id : ModuleId} {m : HwModule}
    (hm : A.module? id = some m) (hsettled : m.IsSettled) (hlive : ∀ c ∈ A.callees m, A.IsLive c) :
    ∃ image, A.image id = .ok image ∧ A.Shows m image ∧ (A.Verified m → ∀ (B : Design) (symbol : String),
      Name.isValid symbol = true → B.find? symbol = none → (∀ c ∈ A.callees m, A.Supplies B c) →
      ∃ id' B', (Edit.importImage image symbol).apply B = (.ok id', B') ∧
        B'.image id' = .ok { image with symbol }) := by
  rcases hsettled with hexternal | hcomplete
  · obtain ⟨parameters, hkind⟩ := HwModule.isExternal_iff.mp hexternal
    exact ⟨_, image_external hm hkind, .external hkind, fun _ B symbol hvalid hfresh _ =>
      Edit.importImage_external hvalid hfresh⟩
  · obtain ⟨body, hbody, hterminated⟩ := HwModule.isComplete_iff.mp hcomplete
    obtain ⟨ops, hops⟩ := exists_depicts hA.linked hm hbody hlive
    exact ⟨_, image_complete hm hbody hterminated hops, .complete hbody hterminated hops,
      fun hverified B symbol hvalid hfresh =>
        Edit.importImage_complete hA.linked hm hbody hterminated hops hverified hvalid hfresh⟩

/-! ### A round trip -/

namespace Sample

/-- Calls that build a module in which a doubled input goes through an instance of an external module. -/
def doublerCalls : List DesignCall := [
  .newExternalModule "Leaf" [⟨"x", .uint 8⟩] [⟨"y", .uint 8⟩] [] .empty .unknown,
  .newModule "Doubler" [⟨"a", .uint 8⟩] [⟨"b", .uint 8⟩] .empty .unknown,
  .addEntryBlock ⟨1⟩,
  .pushInsertionPoint ⟨1⟩,
  .add ⟨⟨0⟩, .uint 8⟩ ⟨⟨0⟩, .uint 8⟩,
  .instantiate ⟨0⟩ "leaf" [⟨1⟩] .empty .unknown,
  .output [⟨⟨2⟩, .uint 8⟩]]

/-- The module they build. -/
def doubler : HwModule where
  symbol := "Doubler"
  inputs := [⟨"a", .uint 8⟩]
  outputs := [⟨"b", .uint 8⟩]
  attributes := .empty
  kind := .generated (some
    { arguments := [⟨0⟩], ops := #[⟨0⟩, ⟨1⟩, ⟨2⟩], terminated := true })
  location := .unknown

/-- A design with other modules, one of them of the symbol of the instantiated module. -/
def otherCalls : List DesignCall := [
  .newModule "Doubler" [] [] .empty .unknown,
  .newExternalModule "Leaf" [⟨"input", .uint 8⟩] [] [] .empty .unknown]

theorem doubler_live : (Design.build doublerCalls).module? ⟨1⟩ = some doubler := by
  decide +kernel

theorem doubler_callees : (Design.build doublerCalls).callees doubler = [⟨0⟩] := by
  decide +kernel

theorem doubler_verified : (Design.build doublerCalls).Verified doubler := by
  intro body o op hbody ho hop hcallee
  obtain rfl := Option.some.inj hbody
  have hverify : ∀ o ∈ [(⟨0⟩ : OpId), ⟨1⟩, ⟨2⟩],
      ((Design.build doublerCalls).op? o).any (·.operation.callee?.isSome) = true →
        (Design.build doublerCalls).verify o = .ok ⟨⟩ := by decide +kernel
  exact hverify o (Array.mem_toList_iff.mpr ho) (by rw [hop]; exact hcallee)

/-- An external module of the symbol that the doubler instantiates. -/
def leaf (inputs outputs : List Port) : HwModule where
  symbol := "Leaf"
  inputs := inputs
  outputs := outputs
  attributes := .empty
  kind := .external []
  location := .unknown

theorem leaf_live : (Design.build doublerCalls).module? ⟨0⟩ =
    some (leaf [⟨"x", .uint 8⟩] [⟨"y", .uint 8⟩]) := by
  decide +kernel

theorem leaf_supplied : (Design.build doublerCalls).Supplies (Design.build otherCalls) ⟨0⟩ :=
  ⟨_, ⟨1⟩, leaf [⟨"input", .uint 8⟩] [], leaf_live, by decide +kernel, by decide +kernel, rfl⟩

end Sample

/-- The doubler is copied into a design in which its symbol is taken. -/
theorem image_import_image_doubler :
    ∃ image id' B', (Design.build Sample.doublerCalls).image ⟨1⟩ = .ok image ∧
      (Design.build Sample.doublerCalls).Shows Sample.doubler image ∧
      (Edit.importImage image "Copy").apply (Design.build Sample.otherCalls) = (.ok id', B') ∧
      B'.image id' = .ok { image with symbol := "Copy" } := by
  have hcallees : ∀ P : ModuleId → Prop, P ⟨0⟩ →
      ∀ c ∈ (Design.build Sample.doublerCalls).callees Sample.doubler, P c := by
    intro P h c hc
    rw [Sample.doubler_callees] at hc
    exact List.mem_singleton.mp hc ▸ h
  obtain ⟨image, himage, hshows, hcopy⟩ := image_import_image ⟨Sample.doublerCalls, rfl⟩
    Sample.doubler_live (Or.inr rfl) (hcallees _ ⟨_, Sample.leaf_live⟩)
  obtain ⟨id', B', himport, himage'⟩ := hcopy Sample.doubler_verified
    (Design.build Sample.otherCalls) "Copy" (by decide +kernel) (by decide +kernel)
    (hcallees _ Sample.leaf_supplied)
  exact ⟨image, id', B', himage, hshows, himport, himage'⟩

end Wirework
