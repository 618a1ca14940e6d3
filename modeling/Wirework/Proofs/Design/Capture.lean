import Wirework.Proofs.Design.Emission
import Wirework.Proofs.Design.RoundTrip

/-! # What copies of images instantiate

An image names the modules that its body instantiates by their symbols, and a copy of it instantiates the modules
that these symbols find.  They are looked up when the new module has been added already (`importImage_finds`).  The
new symbol was free, so every other symbol finds the module that had it before, and the new symbol finds the
copy itself (`importImage_captures`).

A copy under a symbol that its image does not name therefore closes no cycle: nothing that was there before leads to
it (`Acyclic.takes`).  A copy under a symbol that its image names is an instance of itself, although the design held
no module of this symbol and the copy should have been refused for it (`import_captures`).  With this one exception
an image is refused if one of its callee symbols is not found (`import_keeps_hierarchy`).

The modules found are left as they are.  Whether they are complete is not checked. -/

namespace Wirework

namespace Edit

open Step Design

variable {d d' : Design} {id : ModuleId}

/-! ### Operations of a copy -/

theorem Resolves.of_header {locals : List ValueId} {copied : Operation String Nat}
    {operation : Operation ModuleId ValueId} (h : Resolves d' locals copied operation)
    (hheader : ∀ id, d'.header? id = d.header? id) : Resolves d locals copied operation :=
  h.mono (fun symbol _ _ hfind => find?_of_header? hheader symbol ▸ hfind) fun _ _ _ hv => hv

/-- The operation of a design is a copy of the operation of the image. -/
def CopyOf (d d' : Design) (copied : ImageOp) (o : OpId) : Prop :=
  ∃ op locals, d'.op? o = some op ∧ Resolves d locals copied.operation op.operation

/-- Copied operations stand at the end of the body in their order, with results of the types that the image names. -/
theorem importOps_resolved {ops : List ImageOp} {locals : List ValueId} {m : HwModule} {body : Body}
    (h : (importOps id ops locals).apply d = (.ok ⟨⟩, d')) (hm : d.module? id = some m)
    (hbody : m.body? = some body) :
    d.Enlarges d' ∧ ∃ m' body' os, d'.module? id = some m' ∧ m'.body? = some body' ∧
      body'.ops.toList = body.ops.toList ++ os ∧
        List.Forall₂ (fun copied o => CopyOf d d' copied o ∧ d'.Yields o copied.resultTypes) ops os := by
  induction ops generalizing d locals m body with
  | nil =>
      obtain rfl : d = d' := (Prod.mk.inj h).2
      exact ⟨⟨fun _ => rfl, fun _ _ h => h, fun _ _ h => h⟩, m, body, [], hm, hbody,
        (List.append_nil _).symm, .nil⟩
  | cons copied ops ih =>
      rw [importOps] at h
      simp only [apply_bind_eq_ok_iff, apply_query_eq_ok_iff, traverse_apply, Prod.mk.injEq,
        traverse_eq_ok_iff] at h
      obtain ⟨operation, _, ⟨hresolves, rfl⟩, o, d₁, happend, _, _, ⟨_, rfl⟩, _, _, ⟨_, rfl⟩, hrest⟩ :=
        h
      rcases appendOp_cases id operation copied.resultTypes copied.attributes copied.location d with
        ⟨e, he⟩ | ⟨d₂, happ, hyields, hok⟩
      · rw [he] at happend
        cases happend
      rw [hok] at happend
      cases happend
      obtain ⟨m₀, body₀, hm₀, hbody₀, _, hself⟩ := happ.module?_self
      rw [hm] at hm₀
      obtain rfl := Option.some.inj hm₀
      rw [hbody] at hbody₀
      obtain rfl := Option.some.inj hbody₀
      obtain ⟨he, m', body', os, hm', hbody', hops, hcopies⟩ := ih hrest hself rfl
      obtain ⟨op, _, hop, _, hoperation, _⟩ := happ.op_next
      refine ⟨happ.enlarges.trans he, m', body', d.nextOp :: os, hm', hbody', ?_, .cons ?_ ?_⟩
      · rw [hops]
        unfold Body.extend
        rw [Array.toList_push, List.append_assoc]
        rfl
      · exact ⟨⟨op, locals, he.op _ _ hop, hoperation ▸ hresolves⟩, he.yields hyields⟩
      · refine hcopies.imp fun copied o hcopy => ?_
        obtain ⟨⟨op, locals, hop, hresolves⟩, htypes⟩ := hcopy
        exact ⟨⟨op, locals, hop, hresolves.of_header happ.header?_eq⟩, htypes⟩

theorem importBody_copies {ops : List ImageOp} {symbol : String}
    (h : (importBody id symbol ops).apply d = (.ok ⟨⟩, d')) :
    d.Enlarges d' ∧ ∃ m body, d'.module? id = some m ∧ m.body? = some body ∧
      List.Forall₂ (fun copied o => CopyOf d d' copied o ∧ d'.Yields o copied.resultTypes) ops
        body.ops.toList := by
  obtain ⟨m, hm, himport⟩ := importOps_of_importBody h
  have hbegun : (d.beginBody id m).module? id = some { m with
      kind := .generated (some { arguments := d.nextValues m.inputs.length }) } := by
    rw [module?_beginBody, if_pos rfl, hm]
    rfl
  obtain ⟨henlarges, m', body', os, hm', hbody', hops, hcopies⟩ := importOps_resolved himport hbegun rfl
  obtain rfl : body'.ops.toList = os := hops
  refine ⟨(enlarges_beginBody d id m).trans henlarges, m', body', hm', hbody', hcopies.imp fun copied o hcopy => ?_⟩
  obtain ⟨⟨op, locals, hop, hresolves⟩, htypes⟩ := hcopy
  exact ⟨⟨op, locals, hop, hresolves.of_header (header?_beginBody d id m)⟩, htypes⟩

theorem importBody_finds {ops : List ImageOp} {symbol : String}
    (h : (importBody id symbol ops).apply d = (.ok ⟨⟩, d')) :
    ∃ m, d'.module? id = some m ∧ List.Forall₂ (fun s c => d.find? s = some c)
      (ops.filterMap (·.operation.callee?)) (d'.callees m) := by
  obtain ⟨_, m, body, hm, hbody, hcopies⟩ := importBody_copies h
  refine ⟨m, hm, ?_⟩
  unfold Design.callees
  rw [hbody]
  refine List.rel_filterMap (fun copied o hcopy => ?_) hcopies
  obtain ⟨⟨op, locals, hop, hresolves⟩, -⟩ := hcopy
  rw [hop]
  exact hresolves.callee_rel

/-- A copy instantiates what is found by the symbols that the image names, once the new module has been
added. -/
theorem importImage_finds {image : ModuleImage} {symbol : String}
    (h : (importImage image symbol).apply d = (.ok id, d')) :
    ∃ n m : HwModule, n.symbol = symbol ∧ d'.module? id = some m ∧
      List.Forall₂ (fun s c => ({ d with modules := d.modules.push (some n) } : Design).find? s = some c)
        image.callees (d'.callees m) := by
  unfold ModuleImage.callees ModuleImage.ops
  obtain ⟨rfl, ⟨parameters, hcontents, rfl⟩ | ⟨ops, hcontents, himport⟩⟩ := importBody_of_importImage h
  · refine ⟨_, _, image.blankAs_symbol symbol, (module?_push rfl _).trans (if_pos rfl), ?_⟩
    unfold Design.callees
    rw [hcontents, image.blankAs_body? symbol]
    exact .nil
  · obtain ⟨m, hm, hfinds⟩ := importBody_finds himport
    rw [hcontents]
    exact ⟨_, m, image.blankAs_symbol symbol, hm, hfinds⟩

end Edit

/-! ### Cycles -/

namespace Design

variable {d d' : Design}

/-- What the callee symbol `s` stands for in the copy `id` under a symbol: the copy itself if the symbols are
equal, and otherwise the module of `d` of that symbol, which is as it was. -/
def Refers (d : Design) (symbol : String) (id : ModuleId) (d' : Design) (s : String) (c : ModuleId) : Prop :=
  if s = symbol then c = id
  else ∃ callee, d.find? s = some c ∧ d.module? c = some callee ∧ d'.module? c = some callee

/-- Every instance in the copy `id` of the image under a symbol refers to what its callee symbol stands for. -/
def Finds (d : Design) (image : ModuleImage) (symbol : String) (id : ModuleId) (d' : Design) : Prop :=
  ∃ m, d'.module? id = some m ∧ List.Forall₂ (d.Refers symbol id d') image.callees (d'.callees m)

theorem Refers.own {symbol : String} {id c : ModuleId} (h : d.Refers symbol id d' symbol c) : c = id := by
  unfold Refers at h
  rwa [if_pos rfl] at h

theorem Refers.other {symbol s : String} {id c : ModuleId} (h : d.Refers symbol id d' s c) (hne : s ≠ symbol) :
    ∃ callee, d.find? s = some c ∧ d.module? c = some callee ∧ d'.module? c = some callee := by
  unfold Refers at h
  rwa [if_neg hne] at h

namespace Finds

variable {image : ModuleImage} {symbol : String} {id : ModuleId}

theorem isLive (h : d.Finds image symbol id d') (hsymbol : symbol ∉ image.callees) {m : HwModule}
    (hm : d'.module? id = some m) {c : ModuleId} (hc : c ∈ d'.callees m) : d.IsLive c := by
  obtain ⟨m', hm', hfinds⟩ := h
  obtain rfl := Option.some.inj (hm'.symm.trans hm)
  obtain ⟨s, hs, hrefers⟩ := exists_of_mem_right hfinds hc
  obtain ⟨callee, -, hcallee, -⟩ := hrefers.other fun heq => hsymbol (heq ▸ hs)
  exact ⟨callee, hcallee⟩

theorem not_acyclic (h : d.Finds image symbol id d') (hsymbol : symbol ∈ image.callees) :
    ¬ d'.Acyclic := by
  obtain ⟨m, hm, hfinds⟩ := h
  obtain ⟨c, hc, hrefers⟩ := exists_of_mem_right hfinds.flip hsymbol
  obtain rfl : c = id := Refers.own hrefers
  exact fun hacyclic => hacyclic c (.single ⟨m, hm, hc⟩)

end Finds

/-- A module that instantiates modules that were there before closes no cycle. -/
theorem Acyclic.takes (h : d.Acyclic) (hlinked : d.Linked) {m : HwModule}
    (htakes : d.Takes (some m) d') (hold : ∀ c ∈ d'.callees m, d.IsLive c) : d'.Acyclic := by
  -- No edge leads to the new module, and all others were there before.
  have hedge : ∀ a b, d'.Instantiates a b →
      b ≠ d.nextModule ∧ (a ≠ d.nextModule → d.Instantiates a b) := by
    rintro a b ⟨n, hn, hb⟩
    by_cases ha : a = d.nextModule
    · rw [ha, htakes.module?_next] at hn
      obtain rfl := Option.some.inj hn
      exact ⟨(hold b hb).ne_nextModule, fun hne => absurd ha hne⟩
    · rw [htakes.module?_old a ha] at hn
      obtain ⟨body, o, op, hbody, ho, hop, hcallee⟩ := mem_callees.mp hb
      obtain ⟨found, hfound, _⟩ := (hlinked.bodies a n body hn hbody).parent o ho
      rw [htakes.op_old o found hfound] at hop
      obtain rfl := Option.some.inj hop
      exact ⟨ne_nextModule (hlinked.callee_made o found b hfound hcallee),
        fun _ => ⟨n, hn, mem_callees.mpr ⟨body, o, found, hbody, ho, hfound, hcallee⟩⟩⟩
  have hpath : ∀ a b, Relation.TransGen d'.Instantiates a b →
      b ≠ d.nextModule ∧ (a ≠ d.nextModule → Relation.TransGen d.Instantiates a b) := by
    intro a b hab
    induction hab with
    | single hstep => exact (hedge _ _ hstep).imp_right fun h ha => .single (h ha)
    | tail _ hstep ih =>
        obtain ⟨hne, hedge⟩ := hedge _ _ hstep
        exact ⟨hne, fun ha => (ih.2 ha).tail (hedge ih.1)⟩
  exact fun id hid => h id ((hpath id id hid).2 (hpath id id hid).1)

end Design

/-- A copy finds itself under its own symbol, which was free, and the modules of the design under others. -/
theorem Edit.importImage_captures {d d' : Design} {image : ModuleImage} {symbol : String} {id : ModuleId}
    (h : (Edit.importImage image symbol).apply d = (.ok id, d')) : d.Finds image symbol id d' := by
  have hfree := Edit.importImage_fresh h
  obtain ⟨n, m, rfl, hm, hfinds⟩ := Edit.importImage_finds h
  obtain ⟨rfl, _, htakes⟩ := Edit.importImage_takes h
  refine ⟨m, hm, hfinds.imp fun s c hfind => ?_⟩
  unfold Design.Refers
  split
  case isTrue heq =>
    rw [heq, Design.find?_push_self rfl hfree] at hfind
    exact (Option.some.inj hfind).symm
  case isFalse hne =>
    rw [Design.find?_push_ne rfl (Ne.symm hne)] at hfind
    obtain ⟨callee, hcallee, -⟩ := Design.find?_eq_some hfind
    exact ⟨callee, hfind, hcallee,
      (htakes.module?_old c (Design.IsLive.ne_nextModule ⟨callee, hcallee⟩)).trans hcallee⟩

/-- **Copies instantiate what their image names.**  In a copy, every instance is one of the module that had the
named symbol before, and of the copy itself where its image names the symbol that the copy is made under; so there
is no cycle, if there was none, just if the image does not name this symbol.  An image that names another symbol
which no live module has is not copied. -/
theorem import_keeps_hierarchy {d : Design} (hd : d.Reached) (hacyclic : d.Acyclic)
    (image : ModuleImage) (symbol : String) :
    (∀ id d', (Edit.importImage image symbol).apply d = (.ok id, d') →
      d.Finds image symbol id d' ∧ (d'.Acyclic ↔ symbol ∉ image.callees)) ∧
      ∀ s ∈ image.callees, s ≠ symbol → d.find? s = none →
        ∃ e, ((Edit.importImage image symbol).apply d).1 = .error e := by
  constructor
  · intro id d' himport
    have hfinds := Edit.importImage_captures himport
    obtain ⟨rfl, m, htakes⟩ := Edit.importImage_takes himport
    refine ⟨hfinds, fun hacyclic' hmem => hfinds.not_acyclic hmem hacyclic', fun hsymbol => ?_⟩
    exact hacyclic.takes hd.linked htakes fun c hc => hfinds.isLive hsymbol htakes.module?_next hc
  · intro s hs hne hnone
    rcases himport : (Edit.importImage image symbol).apply d with ⟨e | id, d'⟩
    · exact ⟨e, rfl⟩
    · obtain ⟨m, hm, hfinds⟩ := Edit.importImage_captures himport
      obtain ⟨c, -, hrefers⟩ := exists_of_mem_right hfinds.flip hs
      obtain ⟨_, hfind, -⟩ := Design.Refers.other hrefers hne
      cases hnone.symm.trans hfind

/-! ### Copies that find themselves -/

namespace Sample

/-- The image of the doubler. -/
def doublerImage : ModuleImage := doubler.imageWith (.body [
  { operation := .add 0 0, resultTypes := [.uint 8], attributes := .empty, location := .unknown },
  { operation := .instantiate "Leaf" "leaf" [1] .empty, resultTypes := [.uint 8]
    attributes := .empty, location := .unknown },
  { operation := .output [2], resultTypes := [], attributes := .empty, location := .unknown }])

theorem doublerImage_taken : (Design.build doublerCalls).image ⟨1⟩ = .ok doublerImage := by
  decide +kernel

/-- A module of the symbol that the doubler instantiates, without a body. -/
def pendingCalls : List DesignCall := [
  .newModule "Leaf" [⟨"x", .uint 8⟩] [⟨"y", .uint 8⟩] .empty .unknown]

end Sample

/-- The doubler finds the only module it names, and not the one that has its own symbol. -/
theorem import_keeps_hierarchy_doubler :
    ∃ id d', (Edit.importImage Sample.doublerImage "Copy").apply (Design.build Sample.otherCalls) =
        (.ok id, d') ∧
      (Design.build Sample.otherCalls).Finds Sample.doublerImage "Copy" id d' ∧ d'.Acyclic := by
  have hacyclic : (Design.build Sample.otherCalls).Acyclic :=
    Design.acyclic_of_order [⟨0⟩, ⟨1⟩] (by decide +kernel)
  obtain ⟨hkeeps, -⟩ := import_keeps_hierarchy ⟨Sample.otherCalls, rfl⟩ hacyclic
    Sample.doublerImage "Copy"
  have himport : ((Edit.importImage Sample.doublerImage "Copy").apply
      (Design.build Sample.otherCalls)).1 = .ok ⟨2⟩ := by decide +kernel
  have happly := Step.apply_eq_of_ok himport
  obtain ⟨hfinds, hkept⟩ := hkeeps ⟨2⟩ _ happly
  exact ⟨⟨2⟩, _, happly, hfinds, hkept.mpr (by decide)⟩

-- A module that has no body yet is found like any other.
example : ((Edit.importImage Sample.doublerImage "Copy").apply
    (Design.build Sample.pendingCalls)).1 = .ok ⟨1⟩ := by decide +kernel

/-- The image of the doubler is copied into the empty design under the symbol of its callee, which no module there
has, and the copy instantiates itself. -/
theorem import_captures :
    (Design.build Sample.doublerCalls).Acyclic ∧
    (Design.build Sample.doublerCalls).image ⟨1⟩ = .ok Sample.doublerImage ∧
    ∃ d', Design.empty.Acyclic ∧ "Leaf" ∈ Sample.doublerImage.callees ∧ Design.empty.find? "Leaf" = none ∧
      (Edit.importImage Sample.doublerImage "Leaf").apply .empty = (.ok ⟨0⟩, d') ∧ ¬ d'.Acyclic := by
  refine ⟨Design.acyclic_of_order [⟨0⟩, ⟨1⟩] (by decide +kernel),
    Sample.doublerImage_taken, ?_⟩
  have himport : ((Edit.importImage Sample.doublerImage "Leaf").apply .empty).1 = .ok ⟨0⟩ := by
    decide +kernel
  refine ⟨_, Design.acyclic_of_order [] (by decide +kernel), by decide, by decide +kernel,
    Step.apply_eq_of_ok himport, fun hacyclic => hacyclic ⟨0⟩ (.single ?_)⟩
  exact ⟨{ Sample.doubler with symbol := "Leaf" }, by decide +kernel, by decide +kernel⟩

end Wirework
