import ApiSurface.Proofs.Emit.Lookups
import ApiSurface.Proofs.Rollup.Walk
import ApiSurface.Proofs.Trim.Plan

/-!
# What stops a plan or a rollup

Neither making a plan nor writing a rollup fails to find what it looks up.  The
plan of the rollup may be any plan, and the names may be anything.  On a plain
surface every part of a rollup is written, or a defect is met.
-/

namespace ApiSurface

/-! ## Plans -/

theorem Datum.items_settles (datum : Datum) : Settles False datum.items fun _ => True := by
  unfold Datum.items
  split
  · exact .ok trivial
  · exact .ok trivial
  · exact .ok trivial
  · exact .error rfl False.elim

private theorem Datum.pairAt_settles (index : Nat) (datum : Datum) :
    Settles False (Datum.pairAt index datum) fun _ => True := by
  unfold Datum.pairAt
  split
  · exact .error rfl False.elim
  · exact (Datum.key_settles _).bind fun _ _ => .pure trivial
  · exact .error rfl False.elim

private theorem Datum.pairsFrom_settles (index : Nat) (items : List Datum) :
    Settles False (Datum.pairsFrom index items) fun _ => True := by
  induction items generalizing index with
  | nil => exact .ok trivial
  | cons item rest ih =>
      refine (pairAt_settles index item).bind fun _ _ => ?_
      exact (ih (index + 1)).bind fun _ _ => .pure trivial

theorem Datum.toEntries_settles (datum : Datum) :
    Settles False datum.toEntries fun _ => True := by
  unfold Datum.toEntries
  split
  · exact .ok trivial
  · refine (items_settles _).bind fun items _ => ?_
    exact (pairsFrom_settles 0 items).bind fun _ _ => .pure trivial

theorem ruleFor_settles (rules id : Datum) : Settles False (ruleFor rules id) fun _ => True := by
  have hrule : Settles False (ruleFields rules id) fun _ => True := by
    unfold ruleFields
    split
    · refine (Datum.toEntries_settles _).bind fun _ _ => ?_
      refine (Datum.key_settles id).bind fun _ _ => ?_
      exact (Datum.toEntries_settles _).bind fun _ _ => .pure trivial
    · exact .error rfl False.elim
  refine hrule.bind fun fields _ => ?_
  dsimp only
  split
  · exact .pure trivial
  · exact .error rfl False.elim

namespace TrimPlan

variable {surface : Surface}

theorem links_declared {source : Declaration} {link : Link} (h : link ∈ links surface source) :
    link.target ∈ surface.inventory.allDeclarations := by
  obtain ⟨id, -, hid⟩ := List.mem_flatMap.mp h
  obtain ⟨target, htarget, rfl⟩ := List.mem_map.mp hid
  exact (mem_rescuable.mp htarget).2.2.1

private theorem follow_printable
    (hlocated : ∀ declaration ∈ surface.inventory.allDeclarations, declaration.Located)
    {plan result : TrimPlan} {unkept : List Nat} {queue : List Link}
    (h : follow surface plan unkept queue = .ok result)
    (hqueue : ∀ link ∈ queue, link.target ∈ surface.inventory.allDeclarations)
    (hplan : ∀ message ∈ plan.messages, message.Printable) :
    ∀ message ∈ result.messages, message.Printable := by
  induction plan, unkept, queue using follow.induct surface with
  | case1 plan unkept =>
      rw [follow] at h
      cases h
      exact hplan
  | case2 plan unkept link rest hmissing ih =>
      rw [follow, dif_pos hmissing] at h
      simp only [bind_eq_ok] at h
      obtain ⟨target, htarget, item, -, message, hjudge, ⟨ids, followed⟩, -, h⟩ := h
      refine ih message ids followed h (fun other hother => ?_) (fun other hother => ?_)
      · rcases List.mem_append.mp hother with hother | hother
        · exact hqueue other (by simp [hother])
        · obtain ⟨source, -, hsource⟩ := List.mem_flatMap.mp hother
          exact links_declared hsource
      · rcases List.mem_append.mp hother with hother | hother
        · exact hplan other hother
        · obtain rfl := List.mem_singleton.mp hother
          have hknown := hlocated _ (Surface.mem_of_declaration htarget)
          exact Router.judge_printable hjudge (hknown.printable _ _)
  | case3 plan unkept link rest hkept ih =>
      rw [follow, dif_neg hkept] at h
      exact ih h (fun other hother => hqueue other (by simp [hother])) hplan

theorem make_printable
    (hlocated : ∀ declaration ∈ surface.inventory.allDeclarations, declaration.Located)
    {tier : Tier} {plan : TrimPlan} (h : make surface tier = .ok plan) :
    ∀ message ∈ plan.messages, message.Printable := by
  simp only [make, bind_eq_ok] at h
  obtain ⟨⟨kept, followed⟩, -, h⟩ := h
  refine follow_printable hlocated h (fun link hlink => ?_) (by simp)
  obtain ⟨source, -, hsource⟩ := List.mem_flatMap.mp hlink
  exact links_declared hsource

/-- Links lead to declarations of the package, so their items are known. -/
theorem follow_settles (h : surface.Indexed) (plan : TrimPlan) (unkept : List Nat)
    (queue : List Link)
    (hqueue : ∀ link ∈ queue, link.target ∈ surface.inventory.allDeclarations) :
    Settles False (follow surface plan unkept queue) fun _ => True := by
  induction plan, unkept, queue using follow.induct surface with
  | case1 plan unkept =>
      rw [follow]
      exact .ok trivial
  | case2 plan unkept link rest hmissing ih =>
      have htarget := hqueue link (by simp)
      rw [follow, dif_pos hmissing]
      refine (h.declaration_settles htarget).bind fun found hfound => ?_
      subst hfound
      refine (h.item_settles htarget).bind fun item _ => ?_
      have hjudged : Settles False (surface.router.judge
          (rescueIssue plan.tier link item.effectiveTag)) fun _ => True :=
        (ruleFor_settles _ _).bind fun _ _ => .pure trivial
      refine hjudged.bind fun message _ => ?_
      obtain ⟨ids, followed, hkeep, -⟩ := keep_collects h.sound
        (plan.tier.threshold.least item.effectiveTag) link.target htarget
      have hkept : Settles False (keep surface (plan.tier.threshold.least item.effectiveTag)
          link.target) fun _ => True := .of_ok hkeep trivial
      refine hkept.bind fun kept _ => ih _ _ _ fun other hother => ?_
      rcases List.mem_append.mp hother with hother | hother
      · exact hqueue other (by simp [hother])
      · obtain ⟨source, -, hsource⟩ := List.mem_flatMap.mp hother
        exact links_declared hsource
  | case3 plan unkept link rest hkept ih =>
      rw [follow, dif_neg hkept]
      exact ih fun other hother => hqueue other (by simp [hother])

theorem make_settles (h : surface.Indexed) (tier : Tier) :
    Settles False (make surface tier) fun _ => True := by
  have hdeclared : ∀ declaration ∈ candidates surface,
      declaration ∈ surface.inventory.allDeclarations := fun declaration hdeclaration =>
    (mem_candidates.mp hdeclaration).1
  obtain ⟨ids, followed, hkeep, -⟩ := keepMembers_collects h.sound tier.threshold
    (candidates surface) hdeclared
  have hkept : Settles False (keepReaching surface tier.threshold (candidates surface))
      fun _ => True := .of_ok hkeep trivial
  refine hkept.bind fun kept _ => follow_settles h _ _ _ fun link hlink => ?_
  obtain ⟨source, -, hsource⟩ := List.mem_flatMap.mp hlink
  exact links_declared hsource

end TrimPlan

/-! ## Declarations -/

namespace Rollup

open Emit

variable {context : Context} {entity : Entity} {plain : Prop}

theorem writeVariable_writes (declaration : Declaration) (path : Path) (span : Span) :
    Writes plain (writeVariable entity declaration path span) :=
  (variableList_settles declaration.site).bind fun _ _ =>
    .pure fun _ => Changes.textual_enclose _ _ _ _

theorem textual_takeOut (comment : Text) (path : Path) (span : Span) (next : Option Span) :
    (takeOut comment path span next).Textual := by
  refine Changes.Textual.append ?_ ?_
  · simp [Changes.Textual, Change.textual_omitChildren, Change.textual_setLead,
      Change.textual_setTail]
  · split <;> simp [Changes.Textual, Change.textual_skip]

private theorem textual_trimMember (trail : Trail) (span : Span) (member : Declaration) :
    (trimMember context trail span member).Textual := by
  unfold trimMember
  dsimp only
  split <;> exact textual_takeOut _ _ _ _

variable (hplain : plain → context.surface.Plain)
include hplain

theorem ownChanges_writes (declaration : Declaration) (trail : Trail) (span : Span)
    (kind : NodeKind) : Writes plain (ownChanges context entity declaration trail span kind) := by
  unfold ownChanges
  split
  · exact .pure fun _ => by simp [Changes.Textual, Change.textual_skip]
  · split
    · exact .pure fun _ => textual_writeModifiers _ _ _
    · split
      · exact writeVariable_writes declaration trail.path span
      · split
        · exact renameIdentifier_writes hplain trail.path span.node
        · exact .pure fun _ => Changes.textual_nil

variable (h : context.surface.Indexed)
include h

omit hplain in
theorem childChanges_writes {declaration : Declaration} {span child : Span}
    (hspan : Within context.surface.inventory declaration span)
    (hchild : child ∈ span.children)
    (hrevised : ∀ {inner}, Within context.surface.inventory inner child →
      ∀ trail, Writes plain (revise context entity inner trail child)) (here : Trail) :
    Writes plain (childChanges context entity declaration here child) := by
  unfold childChanges
  split
  · obtain ⟨member, hmember, hwithin⟩ := hspan.member h.forest hchild ‹_›
    rw [hmember]
    change Writes plain (if _ then _ else _)
    split
    · exact .pure fun _ => textual_trimMember here child member
    · refine (h.item_settles hwithin.known).bind fun item _ => ?_
      split
      · exact .pure fun _ => textual_stub _ _ _
      · exact hrevised hwithin here
  · exact hrevised (hspan.through hchild (Bool.eq_false_iff.mpr ‹_›)) here

omit hplain in
theorem argumentChanges_writes {declaration : Declaration} {span child : Span}
    (hspan : Within context.surface.inventory declaration span)
    (hchild : child ∈ span.children)
    (hrevised : ∀ {inner}, Within context.surface.inventory inner child →
      ∀ trail, Writes plain (revise context entity inner trail child)) (here : Trail) :
    Writes plain (argumentChanges context entity declaration here child) := by
  unfold argumentChanges
  split
  · obtain ⟨member, hmember, hwithin⟩ := hspan.member h.forest hchild ‹_›
    rw [hmember]
    exact hrevised hwithin here
  · exact hrevised (hspan.through hchild (Bool.eq_false_iff.mpr ‹_›)) here

theorem revise_writes {declaration : Declaration} {span : Span}
    (hspan : Within context.surface.inventory declaration span) (trail : Trail) :
    Writes plain (revise context entity declaration trail span) := by
  induction span using Span.inductionOnChildren generalizing declaration trail with
  | step span ih =>
      obtain ⟨node, lead, tail, separator, children⟩ := span
      unfold revise
      dsimp only
      split
      · exact .pure fun _ => by split <;> simp [Changes.Textual, Change.textual_skip]
      · refine importType_writes hplain _ trail.path (.mk node lead tail separator children)
          fun bounds => ?_
        rw [reviseArguments_eq]
        refine gather_writes (fun child hchild index previous next => ?_) _ _
        split
        · exact argumentChanges_writes h hspan hchild (fun hinner => ih child hchild hinner) _
        · exact .pure fun _ => Changes.textual_nil
      · have hown : Writes plain (ownChanges context entity declaration trail
            (.mk node lead tail separator children) node.kind) :=
          ownChanges_writes hplain _ _ _ _
        have hinner : Writes plain (reviseChildren context entity declaration trail
            (.mk node lead tail separator children) 0 none children) := by
          rw [reviseChildren_eq]
          exact gather_writes (fun child hchild index previous next =>
            childChanges_writes h hspan hchild (fun hinner => ih child hchild hinner) _) _ _
        have hboth : Writes plain _ := hown.bind fun own hown => hinner.bind fun inner hinner =>
          .pure fun hp => (hown hp).append (hinner hp)
        unfold ownChanges at hboth
        split_ifs at hboth ⊢ <;> exact hboth

/-! ## The document -/

theorem declarationChanges_settles {declaration : Declaration}
    (hdeclaration : declaration ∈ context.surface.inventory.allDeclarations) :
    Settles plain (declarationChanges context entity declaration) fun _ => True := by
  refine (Span.ofNode_settles _ _).bind fun span hspan => ?_
  refine (h.item_settles hdeclaration).bind fun item _ => ?_
  split
  · exact .pure trivial
  · have hwithin := within_ofNode h.forest hdeclaration hspan
    exact (revise_writes hplain h hwithin {}).bind fun _ _ => .pure trivial

theorem declarationTexts_settles {declarations : List Declaration}
    (hdeclarations : declarations ⊆ context.surface.inventory.allDeclarations) :
    Settles plain (declarationTexts context entity declarations) fun _ => True := by
  induction declarations with
  | nil => exact .ok trivial
  | cons declaration rest ih =>
      have hrest := ih fun other hother => hdeclarations (by simp [hother])
      have hlast : ∀ here : Text, Settles plain (do
          let others ← declarationTexts context entity rest
          pure (here ++ others)) fun _ => True := fun _ => hrest.bind fun _ _ => .pure trivial
      unfold declarationTexts declarationText
      split
      · simp only [bind_assoc, pure_bind]
        have hdeclaration := hdeclarations (List.mem_cons_self ..)
        refine (h.declaration_settles hdeclaration).bind fun found hfound => ?_
        subst hfound
        exact (declarationChanges_settles hplain h hdeclaration).bind fun _ _ => hlast _
      · split <;> exact hlast _

theorem entityTexts_settles (entities : List Entity) :
    Settles plain (entityTexts context entities) fun _ => True := by
  induction entities with
  | nil => exact .ok trivial
  | cons entity rest ih =>
      have htext : Settles plain (entityText context entity) fun _ => True := by
        unfold entityText
        split
        · exact .pure trivial
        · rename_i label _ _
          have hdeclared : context.surface.declarationsOf label.key ⊆
              context.surface.inventory.allDeclarations := fun declaration hdeclaration =>
            (Inventory.mem_declarationsOf.mp hdeclaration).1
          dsimp only
          split
          · exact (declarationTexts_settles hplain h hdeclared).bind fun _ _ => .pure trivial
          · split <;> exact .pure trivial
      exact htext.bind fun _ _ => ih.bind fun _ _ => .pure trivial

theorem checkNames_settles : Settles plain (checkNames context) fun _ => True := by
  unfold checkNames
  split
  · exact .ok trivial
  · rename_i hnames
    refine Settles.of_plain (.forM fun entity _ => .forM fun declaration hdeclaration => ?_)
      fun hp => absurd (List.all_eq_true.mpr (hplain hp).names) hnames
    have hdeclared := Surface.mem_allDeclarations_of_entity (List.mem_filter.mp hdeclaration).1
    refine (declarationChanges_settles False.elim h hdeclared).bind fun _ _ => ?_
    exact checkPieces_settles _ _

end Rollup

variable {surface : Surface} {plain : Prop} (hplain : plain → surface.Plain)
include hplain

theorem Rollup.importTexts_settles {entities : List Entity}
    (hentities : entities ⊆ surface.entities) :
    Settles plain (importTexts entities) fun _ => True := by
  induction entities with
  | nil => exact .ok trivial
  | cons entity rest ih =>
      have hrest := ih fun other hother => hentities (by simp [hother])
      unfold importTexts
      split
      · rename_i source hsubject
        refine (Emit.importStatement_settles entity.name fun hp => ?_).bind fun _ _ =>
          hrest.bind fun _ _ => .pure trivial
        obtain ⟨text, htext⟩ := (hplain hp).localNames entity (hentities (by simp))
        rw [Entity.localName, hsubject] at htext
        exact ⟨_, htext⟩
      · exact hrest.bind fun _ _ => .pure trivial

private theorem Rollup.documentationText_settles :
    Settles plain (documentationText surface.graph.documentation) fun _ => True := by
  unfold documentationText
  split
  · exact .ok trivial
  · split
    · exact .ok trivial
    · rename_i hpresent _ hother
      refine .error rfl fun hp => ?_
      rcases (hplain hp).documentation with hnull | ⟨text, htext⟩
      · exact absurd (by rw [hnull]; rfl) hpresent
      · exact absurd htext (hother text)

theorem Rollup.text_settles (h : surface.Indexed) (plan : TrimPlan) (omitComments : Bool) :
    Settles plain (text ⟨surface, plan, omitComments⟩) fun _ => True := by
  refine (importTexts_settles hplain (List.Subset.refl _)).bind fun _ _ => ?_
  refine (entityTexts_settles hplain h _).bind fun _ _ => ?_
  refine (documentationText_settles hplain).bind fun _ _ => ?_
  exact (checkNames_settles hplain h).bind fun _ _ => .pure trivial

omit hplain in
theorem writeNewlines_settles {newline : Newline}
    (h : plain → newline.ending?.isSome = true) (text : Text) :
    Settles plain (writeNewlines newline text) fun _ => True := by
  unfold writeNewlines
  split
  · exact .ok trivial
  · rename_i hnone
    exact .error rfl fun hp => absurd (h hp) (by simp [hnone])

theorem Surface.Indexed.rollup_settles (h : surface.Indexed) (plan : TrimPlan)
    (omitComments : Bool) {newline : Newline}
    (hnewline : plain → newline.ending?.isSome = true) :
    Settles plain (surface.rollup plan omitComments newline) fun _ => True :=
  (Rollup.text_settles hplain h plan omitComments).bind fun _ _ =>
    writeNewlines_settles hnewline _

end ApiSurface
