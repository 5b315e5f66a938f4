import ApiSurface.Proofs.Report.Members
import ApiSurface.Proofs.Report.Messages
import ApiSurface.Proofs.Rollup.Lookups
import ApiSurface.Proofs.Surface.Metadata
import ApiSurface.Proofs.Surface.SortKeys
import ApiSurface.Report

/-!
# What stops a report

Writing a report looks up more than writing a rollup does: the messages about each
declaration, and its tags.  Together with what is known about rollups, no document
of an analyzed package ever fails to find a declaration or what is known about it.
On a plain surface only a defect stops the report: messages can always be printed,
since their places are texts, and so are the exports that they name.
-/

namespace ApiSurface

/-! ## Messages -/

/-- What stops printing is no lookup, and where everything is plain it is a defect. -/
def Printing.Settles {α : Type} (plain : Prop) (action : Printing α) : Prop :=
  ∀ before fault after, Fails action before fault after →
    fault.isLookup = false ∧ (plain → ∃ cause, fault = .defect cause)

namespace Printing.Settles

variable {α β : Type} {plain : Prop}

theorem pure {value : α} : Printing.Settles plain (Pure.pure value) :=
  fun _ _ _ h => absurd h not_fails_pure

theorem bind {action : Printing α} {next : α → Printing β} (h : action.Settles plain)
    (hnext : ∀ value, (next value).Settles plain) : Printing.Settles plain (action >>= next) := by
  intro before fault after hfails
  rcases fails_bind.mp hfails with hfails | ⟨value, between, -, hfails⟩
  · exact h before fault after hfails
  · exact hnext value between fault after hfails

theorem liftM {result : Except Fault α} {post : α → Prop}
    (h : ApiSurface.Settles plain result post) :
    Printing.Settles plain (MonadLiftT.monadLift result) := by
  intro before fault after hfails
  have hfault := (fails_liftM.mp hfails).1
  exact ⟨h.isLookup hfault, fun hp => h.cause hp hfault⟩

end Printing.Settles

theorem Message.Printable.not_fails {message : Message} (h : message.Printable)
    {before after : Trails} {fault : Fault} :
    ¬ Fails message.withLocation before fault after := by
  intro hfails
  unfold withLocation at hfails
  split at hfails
  · exact not_fails_pure hfails
  · rename_i location hlocation
    split at hfails
    · exact not_fails_pure hfails
    · rename_i hnull
      rcases h.path location hlocation with hpath | ⟨text, hpath⟩
      · rw [hpath] at hnull
        exact hnull rfl
      · simp only [fails_bind, Location.printed, hpath, not_fails_pure, and_false,
          exists_false, or_self] at hfails

theorem Location.printed_settles (location : Location) : location.printed.Settles False := by
  unfold printed
  split
  · exact .pure
  · intro before fault after hfails
    cases hfails
  · intro before fault after hfails
    cases hfails
    exact ⟨rfl, False.elim⟩

private theorem Message.withLocation_settles {plain : Prop} {message : Message}
    (h : plain → message.Printable) : message.withLocation.Settles plain := by
  have hany : message.withLocation.Settles False := by
    unfold withLocation
    split
    · exact .pure
    · split
      · exact .pure
      · exact (Location.printed_settles _).bind fun _ => .pure
  intro before fault after hfails
  exact ⟨(hany before fault after hfails).1, fun hp => absurd hfails (h hp).not_fails⟩

namespace Report

open Emit

variable {plain : Prop} {messages : List Message}

private theorem placedLines_settles (h : plain → ∀ message ∈ messages, message.Printable) :
    (placedLines messages).Settles plain := by
  induction messages with
  | nil => exact .pure
  | cons message rest ih =>
      refine (Message.withLocation_settles fun hp => h hp message (by simp)).bind fun _ => ?_
      exact (ih fun hp other hother => h hp other (by simp [hother])).bind fun _ => .pure

theorem unassociatedText_settles (h : plain → ∀ message ∈ messages, message.Printable) :
    (unassociatedText messages).Settles plain := by
  unfold unassociatedText
  split
  · exact .pure
  · exact (placedLines_settles h).bind fun _ => .pure

private theorem divideMessages_settles (exports : List Label)
    (h : plain → ∀ message ∈ messages, message.Printable) :
    Settles plain (divideMessages exports messages) fun _ => True := by
  induction messages with
  | nil => exact .ok trivial
  | cons message rest ih =>
      have hnamed : Settles plain (namesExport exports message) fun _ => True := by
        unfold namesExport
        split
        · rename_i hpresent
          refine ((Datum.key_settles _).of_plain fun hp => ?_).bind fun _ _ => .pure trivial
          rcases (h hp message (by simp)).exportName with hname | ⟨text, hname⟩
          · simp [hname, Datum.present] at hpresent
          · exact ⟨_, by rw [hname]; rfl⟩
        · exact .pure trivial
      refine hnamed.bind fun _ _ => ?_
      exact (ih fun hp other hother => h hp other (by simp [hother])).bind fun _ _ =>
        .pure trivial

/-! ## Declarations -/

variable {surface : Surface} {entity : Entity}

theorem writeVariable_writes (declaration : Declaration) (path : Path) (span : Span) :
    Writes plain (writeVariable entity declaration path span) :=
  (variableList_settles declaration.site).bind fun _ _ =>
    .pure fun _ => Changes.textual_enclose _ _ _ _

variable (hplain : plain → surface.Plain)
include hplain

theorem orderMember_writes (sorted : Bool) (parent path : Path) {member : Declaration}
    (hmember : member ∈ surface.inventory.allDeclarations) :
    Writes plain (orderMember sorted parent path member) := by
  have hany : Settles False (sortKeyOf member.symbol.name) fun _ => True := by
    unfold sortKeyOf
    split
    · exact .ok trivial
    · split
      · exact .ok trivial
      · exact .error rfl False.elim
      · exact .error rfl False.elim
      · exact .error rfl False.elim
  unfold orderMember
  split
  · refine (hany.of_plain fun hp => ?_).bind fun _ _ => .pure fun _ => by
      simp [Changes.Textual, Change.textual_sortChildren, Change.textual_setSortKey]
    obtain ⟨text, htext⟩ := (hplain hp).symbolNames member hmember
    exact ⟨_, by rw [htext]; exact sortKeyOf_text text⟩
  · exact .pure fun _ => Changes.textual_nil

theorem ownChanges_writes (declaration : Declaration) (trail : Trail) (span : Span)
    (kind : NodeKind) : Writes plain (ownChanges surface entity declaration trail span kind) := by
  unfold ownChanges
  split
  · exact .pure fun _ => by simp [Changes.Textual, Change.textual_skip]
  · split
    · exact .pure fun _ => textual_writeModifiers _ _ _
    · split
      · exact writeVariable_writes declaration trail.path span
      · split
        · exact renameIdentifier_writes hplain trail.path span.node
        · exact .pure fun _ => Changes.textual_nil

variable (h : surface.Indexed)
include h

omit hplain in
theorem synopsis_settles {declaration : Declaration}
    (hdeclaration : declaration ∈ surface.inventory.allDeclarations) (messages : List Message) :
    Settles plain (synopsis surface declaration.id messages) fun _ => True := by
  have hfooter : Settles plain (footer surface declaration.id) fun _ => True := by
    refine (h.signature_settles hdeclaration).bind fun signature _ => ?_
    split
    · exact .pure trivial
    · exact (h.item_settles hdeclaration).bind fun _ _ => .pure trivial
  exact hfooter.bind fun _ _ => .pure trivial

theorem introduceMember_writes (source : Text) (sorted inside : Bool) (parent path : Path)
    (span : Span) {member : Declaration}
    (hmember : member ∈ surface.inventory.allDeclarations) :
    Writes plain (introduceMember surface source sorted inside parent path span member) := by
  rw [introduceMember_split]
  refine (orderMember_writes hplain sorted parent path hmember).bind fun order horder => ?_
  split
  · exact .pure horder
  · refine (h.reviewMessages_settles hmember).bind fun messages _ => ?_
    refine (synopsis_settles h hmember messages).bind fun lines _ => .pure fun hp => ?_
    exact (horder hp).append (by simp [Changes.Textual, Change.textual_prepend])

theorem childChanges_writes {declaration : Declaration} {span child : Span} {inside : Bool}
    (hspan : Within surface.inventory declaration span) (hchild : child ∈ span.children)
    (hrevised : ∀ {inner}, Within surface.inventory inner child →
      ∀ trail, Writes plain (revise surface entity inner inside trail child))
    (sorted : Bool) (parent : Path) (here : Trail) :
    Writes plain (childChanges surface entity declaration inside sorted parent here child) := by
  unfold childChanges
  split
  · obtain ⟨member, hmember, hwithin⟩ := hspan.member h.forest hchild ‹_›
    rw [hmember]
    refine (introduceMember_writes hplain h _ _ _ _ _ _ hwithin.known).bind fun intro hintro => ?_
    refine (h.item_settles hwithin.known).bind fun item _ => ?_
    split
    · exact .pure fun hp => (hintro hp).append (textual_stub _ _ _)
    · exact (hrevised hwithin here).bind fun inner hinner =>
        .pure fun hp => (hintro hp).append (hinner hp)
  · exact hrevised (hspan.through hchild (Bool.eq_false_iff.mpr ‹_›)) here

omit hplain in
theorem argumentChanges_writes {declaration : Declaration} {span child : Span} {inside : Bool}
    (hspan : Within surface.inventory declaration span) (hchild : child ∈ span.children)
    (hrevised : ∀ {inner}, Within surface.inventory inner child →
      ∀ trail, Writes plain (revise surface entity inner inside trail child)) (here : Trail) :
    Writes plain (argumentChanges surface entity declaration inside here child) := by
  unfold argumentChanges
  split
  · obtain ⟨member, hmember, hwithin⟩ := hspan.member h.forest hchild ‹_›
    rw [hmember]
    exact hrevised hwithin here
  · exact hrevised (hspan.through hchild (Bool.eq_false_iff.mpr ‹_›)) here

theorem revise_writes {declaration : Declaration} {span : Span}
    (hspan : Within surface.inventory declaration span) (inside : Bool) (trail : Trail) :
    Writes plain (revise surface entity declaration inside trail span) := by
  induction span using Span.inductionOnChildren generalizing declaration inside trail with
  | step span ih =>
      obtain ⟨node, lead, tail, separator, children⟩ := span
      unfold revise
      dsimp only
      split
      · exact .pure fun _ => by simp [Changes.Textual, Change.textual_skip]
      · split
        · exact .pure fun _ => by simp [Changes.Textual, Change.textual_skip]
        · refine importType_writes hplain _ trail.path
            (.mk node lead tail separator children) fun bounds => ?_
          rw [reviseArguments_eq]
          refine gather_writes (fun child hchild index previous next => ?_) _ _
          split
          · exact argumentChanges_writes h hspan hchild
              (fun hinner here => ih child hchild hinner inside here) _
          · exact .pure fun _ => Changes.textual_nil
        · have hown : Writes plain (ownChanges surface entity declaration trail
              (.mk node lead tail separator children) node.kind) :=
            ownChanges_writes hplain _ _ _ _
          have hinner : Writes plain (reviseChildren surface entity declaration
              (inside || node.kind = .typeLiteral) (listsMembers trail node.kind) trail
              (.mk node lead tail separator children) 0 none children) := by
            rw [reviseChildren_eq]
            exact gather_writes (fun child hchild index previous next =>
              childChanges_writes hplain h hspan hchild
                (fun hinner here => ih child hchild hinner _ here) _ _ _) _ _
          have hboth : Writes plain _ := hown.bind fun own hown => hinner.bind fun inner hinner =>
            .pure fun hp => (hown hp).append (hinner hp)
          unfold ownChanges modifiers at hboth
          split_ifs at hboth ⊢ <;> exact hboth

/-! ## The document -/

theorem declarationChanges_settles {declaration : Declaration}
    (hdeclaration : declaration ∈ surface.inventory.allDeclarations) :
    Settles plain (declarationChanges surface entity declaration) fun _ => True := by
  refine (Span.ofNode_settles _ _).bind fun span hspan => ?_
  refine (h.item_settles hdeclaration).bind fun item _ => ?_
  split
  · exact .pure trivial
  · have hwithin := within_ofNode h.forest hdeclaration hspan
    exact (revise_writes hplain h hwithin false {}).bind fun _ _ => .pure trivial

theorem declarationTexts_settles (exports : List Label) {declarations : List Declaration}
    (hdeclarations : declarations ⊆ surface.inventory.allDeclarations) :
    Settles plain (declarationTexts surface entity exports declarations) fun _ => True := by
  induction declarations with
  | nil => exact .ok trivial
  | cons declaration rest ih =>
      have hdeclaration := hdeclarations (List.mem_cons_self ..)
      have htext : Settles plain (declarationText surface entity exports declaration)
          fun _ => True := by
        refine (h.reviewMessages_settles hdeclaration).bind fun messages hmessages => ?_
        refine (divideMessages_settles exports fun hp message hmessage =>
          (hplain hp).printable message (hmessages hmessage)).bind fun divided _ => ?_
        refine (synopsis_settles h hdeclaration divided.1).bind fun _ _ => ?_
        refine (h.declaration_settles hdeclaration).bind fun found hfound => ?_
        subst hfound
        exact (declarationChanges_settles hplain h hdeclaration).bind fun _ _ => .pure trivial
      refine htext.bind fun _ _ => ?_
      exact (ih fun other hother => hdeclarations (by simp [hother])).bind fun _ _ =>
        .pure trivial

theorem entityTexts_settles (entities : List Entity) :
    Settles plain (entityTexts surface entities) fun _ => True := by
  induction entities with
  | nil => exact .ok trivial
  | cons entity rest ih =>
      have htext : Settles plain (entityText surface entity) fun _ => True :=
        (declarationTexts_settles hplain h _ fun _ hdeclaration =>
          Surface.mem_allDeclarations_of_entity hdeclaration).bind fun _ _ => .pure trivial
      exact htext.bind fun _ _ => ih.bind fun _ _ => .pure trivial

theorem checkNames_settles (entities : List Entity) :
    Settles plain (checkNames surface entities) fun _ => True := by
  unfold checkNames
  split
  · exact .ok trivial
  · rename_i hnames
    refine Settles.of_plain (.forM fun entity _ => .forM fun declaration hdeclaration => ?_)
      fun hp => absurd (List.all_eq_true.mpr (hplain hp).names) hnames
    have hdeclared := Surface.mem_allDeclarations_of_entity hdeclaration
    refine (declarationChanges_settles False.elim h hdeclared).bind fun _ _ => ?_
    exact checkPieces_settles _ _

private theorem rawText_settles : (rawText surface).Settles plain := by
  have himports := Rollup.importTexts_settles hplain (List.Subset.refl surface.entities)
  refine (Printing.Settles.liftM himports).bind fun _ => ?_
  refine (Printing.Settles.liftM (entityTexts_settles hplain h _)).bind fun _ => ?_
  refine (unassociatedText_settles fun hp message hmessage =>
    (hplain hp).printable message (List.mem_filter.mp hmessage).1).bind fun _ => ?_
  exact (Printing.Settles.liftM (checkNames_settles hplain h _)).bind fun _ => .pure

end Report

theorem Surface.Indexed.report_settles {surface : Surface} {plain : Prop}
    (h : surface.Indexed) (hplain : plain → surface.Plain) {newline : Newline}
    (hnewline : plain → newline.ending?.isSome = true) :
    (surface.report newline).Settles plain :=
  (Report.rawText_settles hplain h).bind fun _ => .liftM (writeNewlines_settles hnewline _)

/-! ## All lookups -/

namespace Surface

theorem Steps.exists_primary {graph : ModuleGraph} {router : Router} {surface : Surface}
    {entities : List Entity} {itemized remarked : Router}
    (h : Steps graph router surface entities itemized remarked) {id : Nat}
    {signature : Signature} (hsignature : surface.signature (.int id) = .ok signature)
    (hancillary : signature.isAncillary = true) :
    ∃ primary ∈ surface.inventory.allDeclarations,
      signature.primary = some { id := primary.id } ∧
      surface.item id = surface.item primary.id := by
  have hlookup : surface.signatures.lookup id = some signature := by
    rw [signature_int] at hsignature
    split at hsignature
    · rename_i found hfound
      rw [hfound, Except.ok.inj hsignature]
    · cases hsignature
  rw [h.coherent _ _ hlookup] at hancillary
  obtain ⟨⟨number, form⟩, hmention⟩ := Option.isSome_iff_exists.mp hancillary
  have hfound : surface.signatures.primary? id = some ⟨number, form⟩ := by
    rw [Signatures.primary?, hlookup, Option.bind_some, hmention]
  have hdistinct := Inventory.ids_nodup h.declared
  have hend := Inventory.primary?_primary h.grouped hdistinct hfound
  obtain ⟨hpair, hform⟩ := (Inventory.groupAccessors_grouped h.grouped).paired _ _ hfound
  obtain ⟨⟨primary, hprimary, rfl, -⟩, -⟩ := Inventory.mem_allPairs hpair
  obtain rfl : form = .int primary.id := hform
  obtain ⟨own, hown, hitem⟩ := (apiItems_covers h.itemsRun).2 primary hprimary
  obtain ⟨item, hitem⟩ := Option.isSome_iff_exists.mp (hitem (by
    rw [h.coherent.isAncillary_eq hown, hend, Option.isSome_none]))
  refine ⟨primary, hprimary, hmention, ?_⟩
  rw [item_eq_of_lookup (h.coherent _ _ hlookup) hlookup (.inr ⟨_, hmention, rfl⟩) hitem,
    h.item_of_lookup hitem]

/-- After an analysis every declaration is found by its number, every member by its node
and everything known about a declaration by way of its signature; an ancillary one has a
primary.  So neither plans nor rollups nor reports, which look all of this up, stop because
a lookup failed. -/
theorem analyze_lookups_succeed {graph : ModuleGraph} {router : Router} {surface : Surface}
    (h : analyze graph router = .ok surface) :
    (∀ declaration ∈ surface.inventory.allDeclarations,
      surface.declaration (.int declaration.id) = .ok declaration ∧
      (∀ inner ∈ declaration.members, member declaration inner.node = .ok inner) ∧
      ∃ signature item, surface.signature (.int declaration.id) = .ok signature ∧
        surface.item declaration.id = .ok item ∧
        (signature.isAncillary = true → ∃ primary ∈ surface.inventory.allDeclarations,
          signature.primary = some { id := primary.id } ∧
          surface.item primary.id = .ok item)) ∧
    (∀ tier fault, TrimPlan.make surface tier = .error fault → fault.isLookup = false) ∧
    (∀ plan omitComments newline fault,
      surface.rollup plan omitComments newline = .error fault → fault.isLookup = false) ∧
    ∀ newline before fault after,
      Fails (surface.report newline) before fault after → fault.isLookup = false := by
  have hindexed := analyze_indexed h
  obtain ⟨entities, itemized, remarked, hsteps⟩ := analyze_steps h
  refine ⟨fun declaration hdeclaration => ?_,
    fun tier _ => (TrimPlan.make_settles hindexed tier).isLookup,
    fun plan omitComments _ _ =>
      (hindexed.rollup_settles False.elim plan omitComments False.elim).isLookup,
    fun _ before fault after hfails =>
      (hindexed.report_settles False.elim False.elim before fault after hfails).1⟩
  obtain ⟨signature, hsignature⟩ := hindexed.exists_signature hdeclaration
  obtain ⟨item, hitem⟩ := hindexed.sound.known declaration hdeclaration
  refine ⟨hindexed.sound.declaration_eq hdeclaration,
    fun inner => hindexed.forest.member_found hdeclaration,
    signature, item, hsignature, hitem, fun hancillary => ?_⟩
  obtain ⟨primary, hprimary, hmention, hshared⟩ := hsteps.exists_primary hsignature hancillary
  exact ⟨primary, hprimary, hmention, hshared ▸ hitem⟩

/-- The public rollup is written of a class with accessors and a property that a parameter
declares. -/
theorem analyze_lookups_succeed_accessors :
    ∃ surface plan document,
      analyze (Inventory.accessorPackage .parameter) {} = .ok surface ∧
      surface.inventory.allDeclarations.map Declaration.kind =
        [.classDeclaration, .getAccessor, .propertySignature, .setAccessor] ∧
      TrimPlan.make surface .public = .ok plan ∧
      surface.rollup plan false ⟨.text "lf", .lf⟩ = .ok document ∧
      (∀ declaration ∈ surface.inventory.allDeclarations,
        ∃ item, surface.item declaration.id = .ok item) ∧
      (∀ tier fault, TrimPlan.make surface tier = .error fault → fault.isLookup = false) ∧
      (∀ plan omitComments newline fault,
        surface.rollup plan omitComments newline = .error fault → fault.isLookup = false) ∧
      ∀ newline before fault after,
        Fails (surface.report newline) before fault after → fault.isLookup = false := by
  have hrun : (do
      let surface ← analyze (Inventory.accessorPackage .parameter) {}
      let plan ← TrimPlan.make surface .public
      let _ ← surface.rollup plan false ⟨.text "lf", .lf⟩
      pure (surface.inventory.allDeclarations.map Declaration.kind)) =
        .ok [.classDeclaration, .getAccessor, .propertySignature, .setAccessor] := by
    cbv
  simp only [bind_eq_ok, pure_eq_ok] at hrun
  obtain ⟨surface, hanalyze, plan, hplan, document, hdocument, hkinds⟩ := hrun
  obtain ⟨hknown, hplans, hrollups, hreports⟩ := analyze_lookups_succeed hanalyze
  refine ⟨surface, plan, document, hanalyze, hkinds, hplan, hdocument,
    fun declaration hdeclaration => ?_, hplans, hrollups, hreports⟩
  obtain ⟨-, -, _, item, -, hitem, -⟩ := hknown declaration hdeclaration
  exact ⟨item, hitem⟩

end Surface

end ApiSurface
