import Wirework.Proofs.Design.TypedCopies

/-! # Results of copied instances

An instance that is made by a single step has a result for each output port of its module.  One that is copied from an
image has the results that the image names, whatever the module has that is found by its symbol; only its operands are
checked.

So a copied instance agrees with the outputs of its module just if the image names their types
(`import_keeps_results`).  It does if it has been taken where the modules of these symbols have the same outputs
(`namesOutputs_of_image`), of a module whose instances agree there, and need not otherwise
(`import_mistakes_results`).  The image names result types one operation at a time, so both are read off the relation
between the operations of the image and those of a body. -/

namespace Wirework

namespace Design

variable {d d' : Design} {m : HwModule}

/-- Every instance in the body of the module has a result for each output port of its own module, in order and of
its type. -/
def Agrees (d : Design) (m : HwModule) : Prop :=
  ∀ body o op c, m.body? = some body → o ∈ body.ops → d.op? o = some op → op.operation.callee? = some c →
    ∃ callee, d.module? c = some callee ∧ d.Yields o (callee.outputs.map (·.type))

/-- The types of the output ports of the module that is found by the symbol. -/
def outputTypes? (d : Design) (symbol : String) : Option (List HwType) :=
  (d.find? symbol).bind fun c => (d.module? c).map fun callee => callee.outputs.map (·.type)

theorem outputTypes?_eq_some_iff {symbol : String} {types : List HwType} :
    d.outputTypes? symbol = some types ↔ ∃ c callee, d.find? symbol = some c ∧ d.module? c = some callee ∧
      callee.outputs.map (·.type) = types := by
  unfold outputTypes?
  simp only [Option.bind_eq_some_iff, Option.map_eq_some_iff]
  exact ⟨fun ⟨c, hc, callee, h⟩ => ⟨c, callee, hc, h⟩, fun ⟨c, callee, hc, h⟩ => ⟨c, hc, callee, h⟩⟩

/-- The image names the output types of the modules that the design has for its instances. -/
def NamesOutputs (d : Design) (image : ModuleImage) : Prop :=
  ∀ copied ∈ image.ops, ∀ symbol, copied.operation.callee? = some symbol →
    d.outputTypes? symbol = some copied.resultTypes

instance (d : Design) (image : ModuleImage) : Decidable (d.NamesOutputs image) :=
  inferInstanceAs (Decidable (∀ copied ∈ image.ops, ∀ symbol ∈ copied.operation.callee?,
    d.outputTypes? symbol = some copied.resultTypes))

end Design

namespace Edit

open Design

variable {d d' : Design} {id : ModuleId} {image : ModuleImage} {symbol : String}

theorem importImage_copies (h : (importImage image symbol).apply d = (.ok id, d')) :
    ∃ m, d'.module? id = some m ∧ ((m.body? = none ∧ image.ops = []) ∨
      ∃ body, m.body? = some body ∧
        List.Forall₂ (fun copied o => CopyOf d' d' copied o ∧ d'.Yields o copied.resultTypes) image.ops
          body.ops.toList) := by
  unfold ModuleImage.ops
  obtain ⟨rfl, ⟨parameters, hcontents, rfl⟩ | ⟨ops, hcontents, himport⟩⟩ := importBody_of_importImage h
  · rw [hcontents]
    exact ⟨_, (module?_push rfl _).trans (if_pos rfl), .inl ⟨image.blankAs_body? symbol, rfl⟩⟩
  · obtain ⟨henlarges, m, body, hm, hbody, hcopies⟩ := importBody_copies himport
    rw [hcontents]
    refine ⟨m, hm, .inr ⟨body, hbody, hcopies.imp fun copied o hcopy => ?_⟩⟩
    obtain ⟨⟨op, locals, hop, hresolves⟩, htypes⟩ := hcopy
    exact ⟨⟨op, locals, hop, hresolves.of_header fun j => (henlarges.header j).symm⟩, htypes⟩

theorem importImage_agrees_iff (h : (importImage image symbol).apply d = (.ok id, d')) {m : HwModule}
    (hm : d'.module? id = some m) : d'.Agrees m ↔ d'.NamesOutputs image := by
  obtain ⟨m', hm', hcopies⟩ := importImage_copies h
  obtain rfl := Option.some.inj (hm.symm.trans hm')
  rcases hcopies with ⟨hnone, hops⟩ | ⟨body, hbody, hcopies⟩
  · constructor
    · intro _ copied hcopied
      rw [hops] at hcopied
      exact absurd hcopied List.not_mem_nil
    · intro _ body o op c hbody
      cases hnone.symm.trans hbody
  · constructor
    · intro hagrees copied hcopied s hs
      obtain ⟨o, ho, ⟨op, locals, hop, hresolves⟩, htypes⟩ := exists_of_mem_right hcopies.flip hcopied
      obtain ⟨c, hc, hfind⟩ := hresolves.swap.callee? hs
      obtain ⟨callee, hcallee, hyields⟩ := hagrees body o op c hbody (Array.mem_toList_iff.mp ho) hop hc
      exact outputTypes?_eq_some_iff.mpr ⟨c, callee, hfind, hcallee, hyields.unique htypes⟩
    · intro hnames body' o op c hbody' ho hop hc
      obtain rfl := Option.some.inj (hbody.symm.trans hbody')
      obtain ⟨copied, hcopied, ⟨op', locals, hop', hresolves⟩, htypes⟩ :=
        exists_of_mem_right hcopies (Array.mem_toList_iff.mpr ho)
      obtain rfl := Option.some.inj (hop.symm.trans hop')
      obtain ⟨s, hs, hfind⟩ := hresolves.callee? hc
      obtain ⟨c', callee, hfind', hcallee, houtputs⟩ :=
        outputTypes?_eq_some_iff.mp (hnames copied hcopied s hs)
      obtain rfl := Option.some.inj (hfind.symm.trans hfind')
      exact ⟨callee, hcallee, houtputs ▸ htypes⟩

end Edit

namespace Design

/-! ### Images of modules that agree -/

variable {A d : Design} {image : ModuleImage}

theorem Depicts.exists_op {os : List OpId} {locals : List ValueId} {ops : List ImageOp}
    (h : A.Depicts os locals ops) {copied : ImageOp} (hcopied : copied ∈ ops) :
    ∃ o ∈ os, ∃ op, A.op? o = some op ∧ A.Yields o copied.resultTypes ∧
      ∀ symbol, copied.operation.callee? = some symbol →
        ∃ c, op.operation.callee? = some c ∧ A.symbolOf? c = some symbol := by
  induction h with
  | nil => exact absurd hcopied List.not_mem_nil
  | @cons o op os locals first ops found operation types attributes location rest ih =>
      rcases List.mem_cons.mp hcopied with rfl | hrest
      · exact ⟨o, List.mem_cons_self, op, found, ⟨op, found, types.flip⟩, fun _ hsymbol =>
          operation.callee? hsymbol⟩
      · obtain ⟨o', ho', hop⟩ := ih hrest
        exact ⟨o', List.mem_cons_of_mem _ ho', hop⟩

/-- The module of the symbol in the one design has the output types that it has in the other. -/
def SameOutputs (A d : Design) (symbol : String) : Prop :=
  ∀ c callee, A.module? c = some callee → callee.symbol = symbol →
    d.outputTypes? symbol = some (callee.outputs.map (·.type))

/-- An image names the output types of modules if it has been taken where the modules of their symbols have the
same, of a module whose instances agree with them. -/
theorem namesOutputs_of_image {source : ModuleId} {m : HwModule} (himage : A.image source = .ok image)
    (hm : A.module? source = some m) (hagrees : A.Agrees m)
    (hsame : ∀ symbol ∈ image.callees, A.SameOutputs d symbol) : d.NamesOutputs image := by
  unfold ModuleImage.callees at hsame
  intro copied hcopied symbol hsymbol
  have hcallee : symbol ∈ image.ops.filterMap (·.operation.callee?) :=
    List.mem_filterMap.mpr ⟨copied, hcopied, hsymbol⟩
  unfold ModuleImage.ops at hcopied
  cases hcontents : image.contents with
  | external parameters =>
      rw [hcontents] at hcopied
      exact absurd hcopied List.not_mem_nil
  | body ops =>
      rw [hcontents] at hcopied
      obtain ⟨m', body, hm', hbody, _, _, hdepicts⟩ := depicts_of_image himage hcontents
      obtain rfl := Option.some.inj (hm.symm.trans hm')
      obtain ⟨o, ho, op, hop, htypes, hcallees⟩ := hdepicts.exists_op hcopied
      obtain ⟨c, hc, hsymbolOf⟩ := hcallees symbol hsymbol
      obtain ⟨callee, hcallee', hyields⟩ := hagrees body o op c hbody (Array.mem_toList_iff.mp ho) hop hc
      obtain ⟨callee', hfound, hsymbol'⟩ := symbolOf?_eq_some_iff.mp hsymbolOf
      obtain rfl := Option.some.inj (hcallee'.symm.trans hfound)
      rw [hsame symbol hcallee c callee hcallee' hsymbol', hyields.unique htypes]

/-- What is certain of the module `id`, which is a copy of the image. -/
structure CopiesResults (d : Design) (image : ModuleImage) (id : ModuleId) : Prop where
  /-- The operations have results of the types that the image names. -/
  copied : ∀ m body, d.module? id = some m → m.body? = some body →
    List.Forall₂ (fun copied o => d.Yields o copied.resultTypes) image.ops body.ops.toList
  /-- The operands of instances have the types of the input ports. -/
  operands : ∀ m body o op, d.module? id = some m → m.body? = some body → o ∈ body.ops →
    d.op? o = some op → d.Fits op.operation
  /-- The results of instances agree with the output ports just if the image names the types of these, -/
  results : ∀ m, d.module? id = some m → (d.Agrees m ↔ d.NamesOutputs image)
  /-- as it does if they agree where it has been taken and the output ports are the same there. -/
  transferred : ∀ (A : Design) source original, A.image source = .ok image →
    A.module? source = some original → A.Agrees original →
      (∀ symbol ∈ image.callees, A.SameOutputs d symbol) → ∀ m, d.module? id = some m → d.Agrees m

end Design

/-- **Copies take over results.**  If a copy of an image is made, its operations have the results that the image
names, and the operands of its instances fit the input ports of the modules found by their symbols.  The results
agree with the output ports of these modules just if the image names the types of these ports, as every image does
that has been taken where modules of the same symbols have the same output ports and instances agree with them. -/
theorem import_keeps_results {d d' : Design} {image : ModuleImage} {symbol : String} {id : ModuleId}
    (h : (Edit.importImage image symbol).apply d = (.ok id, d')) : d'.CopiesResults image id where
  copied m body hm hbody := by
    obtain ⟨m', hm', hcopies⟩ := Edit.importImage_copies h
    obtain rfl := Option.some.inj (hm.symm.trans hm')
    rcases hcopies with ⟨hnone, -⟩ | ⟨body', hbody', hcopies⟩
    · cases hnone.symm.trans hbody
    · obtain rfl := Option.some.inj (hbody.symm.trans hbody')
      exact hcopies.imp fun _ _ hcopy => hcopy.2
  operands m body o op hm hbody ho hop := (Edit.importImage_verified h m hm).fits hbody ho hop
  results m hm := Edit.importImage_agrees_iff h hm
  transferred A source original himage horiginal hagrees hsame m hm :=
    (Edit.importImage_agrees_iff h hm).mpr (Design.namesOutputs_of_image himage horiginal hagrees hsame)

/-! ### A module with another output -/

namespace Sample

/-- A module of the symbol and the inputs that the doubler instantiates, but with a wider output. -/
def wideCalls : List DesignCall := [
  .newExternalModule "Leaf" [⟨"x", .uint 8⟩] [⟨"y", .uint 16⟩] [] .empty .unknown]

end Sample

/-- A copy of the doubler beside it agrees with the module that both instantiate. -/
theorem import_keeps_results_doubler :
    ∃ d' m, (Edit.importImage Sample.doublerImage "Copy").apply (Design.build Sample.doublerCalls) =
        (.ok ⟨2⟩, d') ∧
      d'.CopiesResults Sample.doublerImage ⟨2⟩ ∧ d'.module? ⟨2⟩ = some m ∧ d'.callees m = [⟨0⟩] ∧
      d'.Agrees m := by
  have himport : ((Edit.importImage Sample.doublerImage "Copy").apply
      (Design.build Sample.doublerCalls)).1 = .ok ⟨2⟩ := by decide +kernel
  have hcopies := import_keeps_results (Step.apply_eq_of_ok himport)
  exact ⟨_, { Sample.doubler with
      symbol := "Copy"
      kind := .generated (some { arguments := [⟨3⟩], ops := #[⟨3⟩, ⟨4⟩, ⟨5⟩], terminated := true }) },
    Step.apply_eq_of_ok himport, hcopies, by decide +kernel, by decide +kernel,
    (hcopies.results _ (by decide +kernel)).mpr (by decide +kernel)⟩

/-- The doubler is copied although the module found for its instance has a wider output than the instance. -/
theorem import_mistakes_results :
    ∃ d' m callee, (Design.build Sample.doublerCalls).image ⟨1⟩ = .ok Sample.doublerImage ∧
      (Edit.importImage Sample.doublerImage "Copy").apply (Design.build Sample.wideCalls) =
        (.ok ⟨1⟩, d') ∧
      d'.module? ⟨1⟩ = some m ∧ d'.callees m = [⟨0⟩] ∧ d'.module? ⟨0⟩ = some callee ∧
      callee.outputs = [⟨"y", .uint 16⟩] ∧ d'.Yields ⟨1⟩ [.uint 8] ∧ ¬ d'.Agrees m := by
  have himport : ((Edit.importImage Sample.doublerImage "Copy").apply
      (Design.build Sample.wideCalls)).1 = .ok ⟨1⟩ := by decide +kernel
  have happly := Step.apply_eq_of_ok himport
  refine ⟨_, { Sample.doubler with symbol := "Copy" }, Sample.leaf [⟨"x", .uint 8⟩] [⟨"y", .uint 16⟩],
    Sample.doublerImage_taken, happly, by decide +kernel, by decide +kernel, by decide +kernel, rfl,
    ⟨{ operation := .instantiate ⟨0⟩ "leaf" [⟨1⟩] .empty, results := [⟨2⟩], attributes := .empty
       parent := ⟨1⟩, location := .unknown }, by decide +kernel, by decide +kernel⟩, fun hagrees => ?_⟩
  exact absurd ((Edit.importImage_agrees_iff happly (by decide +kernel)).mp hagrees) (by decide +kernel)

end Wirework
