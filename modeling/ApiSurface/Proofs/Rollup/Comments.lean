import ApiSurface.Proofs.Overlay.Annotated
import ApiSurface.Proofs.Rollup.Document
import ApiSurface.Proofs.Rollup.Origins

/-!
# Comments on what was trimmed

A rollup may hold a comment for everything that was trimmed.  Writing it with
comments and writing it without them are two runs over the same spans: each step of
one has a step of the other that differs by notes only, and both runs end with the
same fault, or with texts that agree but for the comments.
-/

namespace ApiSurface

/-! ## Computations in step -/

inductive InStep {α β : Type} (related : α → β → Prop) : Except Fault α → Except Fault β → Prop
  | ok {value : α} {other : β} (h : related value other) : InStep related (.ok value) (.ok other)
  | error (fault : Fault) : InStep related (.error fault) (.error fault)

namespace InStep

variable {α β γ δ : Type} {related : α → β → Prop} {final : γ → δ → Prop}
  {result : Except Fault α} {other : Except Fault β}

theorem pure {value : α} {value' : β} (h : related value value') :
    InStep related (Pure.pure value) (Pure.pure value') := .ok h

theorem bind {next : α → Except Fault γ} {next' : β → Except Fault δ}
    (h : InStep related result other)
    (hnext : ∀ value value', related value value' → InStep final (next value) (next' value')) :
    InStep final (result >>= next) (other >>= next') := by
  cases h with
  | ok hvalues => exact hnext _ _ hvalues
  | error fault => exact .error fault

theorem bind_same {next : α → Except Fault γ} {next' : α → Except Fault δ}
    (hnext : ∀ value, result = .ok value → InStep final (next value) (next' value)) :
    InStep final (result >>= next) (result >>= next') := by
  cases result with
  | ok value => exact hnext value rfl
  | error fault => exact .error fault

private theorem ok_iff (h : InStep related result other) :
    (∃ value, result = .ok value) ↔ ∃ value, other = .ok value := by
  cases h with
  | ok _ => simp
  | error fault => simp

private theorem error_iff (h : InStep related result other) (fault : Fault) :
    result = .error fault ↔ other = .error fault := by
  cases h with
  | ok _ => simp
  | error fault => simp

theorem values (h : InStep related result other) {value : α} {value' : β}
    (hvalue : result = .ok value) (hvalue' : other = .ok value') : related value value' := by
  subst hvalue hvalue'
  cases h with
  | ok hvalues => exact hvalues

theorem forM {check check' : α → Except Fault Unit} {values : List α}
    (h : ∀ value ∈ values, InStep Eq (check value) (check' value)) :
    InStep Eq (values.forM check) (values.forM check') := by
  induction values with
  | nil => exact .pure rfl
  | cons value rest ih =>
      exact (h value (by simp)).bind fun _ _ _ => ih fun other hother => h other (by simp [hother])

end InStep

namespace Emit

variable {allowed : Text → Prop} {changes others : Changes}

/-! ## Changes that both runs make -/

theorem annotated_self (h : ∀ change ∈ changes, change.2.Annotated allowed change.2) :
    changes.Annotated allowed changes :=
  List.forall₂_same.mpr fun change hchange => ⟨rfl, h change hchange⟩

private theorem annotated_writeModifiers (modifiers : Text) (trail : Trail) (span : Span) :
    (writeModifiers modifiers trail span).Annotated allowed
      (writeModifiers modifiers trail span) := by
  apply annotated_self
  unfold writeModifiers
  split
  · split <;> simp [Change.annotated_prepend]
  · simp [Change.annotated_prepend]

theorem annotated_stub (modifiers : Text) (path : Path) (span : Span) :
    (stub modifiers path span).Annotated allowed (stub modifiers path span) := by
  have hchild : ∀ path afterName child, (stubChild modifiers path afterName child).Annotated
      allowed (stubChild modifiers path afterName child) := by
    intro path afterName child
    refine Changes.Annotated.append ?_ ?_ <;> apply annotated_self
    · split
      · simp [Change.annotated_skip]
      · split <;> simp [Change.annotated_prepend]
    · split <;> simp [Change.annotated_omitSeparator, Change.annotated_setTail]
  unfold stub
  generalize 0 = index
  generalize false = afterName
  induction span.children generalizing index afterName with
  | nil => exact Changes.annotated_nil
  | cons child rest ih => exact (hchild _ _ _).append (ih _ _)

private theorem renameIdentifier_inStep (surface : Surface) (path : Path) (node : Node) :
    InStep (Changes.Annotated allowed) (renameIdentifier surface path node)
      (renameIdentifier surface path node) := by
  refine .bind_same fun found _ => ?_
  split
  · exact .pure Changes.annotated_nil
  · exact .bind_same fun name _ =>
      .pure (Changes.annotated_single (Change.annotated_giveLead name))

theorem gather_inStep (allowed : Text → Prop)
    {each each' : Nat → Option Span → Option Span → Span → Except Fault Changes} {spans : List Span}
    (h : ∀ child ∈ spans, ∀ index previous next, InStep (Changes.Annotated allowed)
      (each index previous next child) (each' index previous next child))
    (start : Nat) (previous : Option Span) :
    InStep (Changes.Annotated allowed) (gather each start previous spans)
      (gather each' start previous spans) := by
  induction spans generalizing start previous with
  | nil => exact .ok Changes.annotated_nil
  | cons child rest ih =>
      refine (h child (by simp) ..).bind fun _ _ hchanges => ?_
      refine (ih (fun other hother => h other (by simp [hother])) ..).bind fun _ _ hothers => ?_
      exact .pure (hchanges.append hothers)

private theorem checkPieces_inStep (span : Span) (h : changes.Annotated allowed others) :
    InStep Eq (checkPieces span changes) (checkPieces span others) := by
  unfold checkPieces
  rw [Span.joinFault?_annotated h.edits]
  split
  · exact .error _
  · exact .ok rfl

/-! ## Arguments of import types -/

section Arguments

variable (htight : ∀ note, allowed note → Text.Tight note)
  (h : changes.Annotated allowed others)
include htight h

theorem trimmedTexts_inStep (path : Path) (index : Nat) (spans : List Span) :
    InStep (List.Forall₂ (Text.Annotated allowed)) (trimmedTexts changes.edits path index spans)
      (trimmedTexts others.edits path index spans) := by
  induction spans generalizing index with
  | nil => exact .ok .nil
  | cons span rest ih =>
      have hwithin := h.edits.within (path ++ [index])
      have htext : InStep (Text.Annotated allowed)
          (trimmedText (changes.edits.within (path ++ [index])) span)
          (trimmedText (others.edits.within (path ++ [index])) span) := by
        unfold trimmedText
        rw [Span.joinFault?_annotated hwithin]
        split
        · exact .error _
        · exact .ok ((span.draw_annotated hwithin none).trim htight)
      have hrest := ih (index + 1)
      unfold trimmedTexts
      split
      · exact hrest.bind fun _ _ hothers => .pure hothers
      · exact htext.bind fun _ _ hhere => hrest.bind fun _ _ hothers => .pure (.cons hhere hothers)

private theorem argumentTexts_inStep (path : Path) (bounds : Nat × Nat) (index : Nat)
    (spans : List Span) :
    InStep (List.Forall₂ (Text.Annotated allowed))
      (argumentTexts changes.edits path bounds index spans)
      (argumentTexts others.edits path bounds index spans) := by
  induction spans generalizing index with
  | nil => exact .ok .nil
  | cons span rest ih =>
      have hlast : ∀ here here', List.Forall₂ (Text.Annotated allowed) here here' →
          InStep (List.Forall₂ (Text.Annotated allowed))
            (do let others ← argumentTexts changes.edits path bounds (index + 1) rest
                pure (here ++ others))
            (do let others ← argumentTexts others.edits path bounds (index + 1) rest
                pure (here' ++ others)) :=
        fun _ _ hhere => (ih (index + 1)).bind fun _ _ hothers =>
          .pure (List.rel_append hhere hothers)
      unfold argumentTexts
      split
      · split
        · exact (trimmedTexts_inStep htight h _ _ _).bind hlast
        · exact (trimmedTexts_inStep htight h _ _ _).bind hlast
      · exact hlast [] [] .nil

theorem argumentsText_inStep (path : Path) (span : Span) (bounds : Option (Nat × Nat)) :
    InStep (Text.Annotated allowed) (argumentsText changes path span bounds)
      (argumentsText others path span bounds) := by
  cases bounds with
  | none => exact .ok (.refl [])
  | some bounds =>
      refine (argumentTexts_inStep htight h path bounds 0 span.children).bind
        fun texts texts' htexts => ?_
      exact .pure (((Text.Annotated.refl ['<']).append (.join _ htexts)).append (.refl ['>']))

end Arguments

theorem replaceWhole_annotated {text other : Text} (h : Text.Annotated allowed text other)
    (path : Path) : (replaceWhole path text).Annotated allowed (replaceWhole path other) :=
  Changes.annotated_cons Change.annotated_skip
    (Changes.annotated_single (Change.annotated_setLead h))

private theorem importTypeText_annotated {arguments arguments' : Text}
    (h : Text.Annotated allowed arguments arguments') (source : Text) (entity : Entity)
    (name : Datum) (node : Node) :
    Text.Annotated allowed (importTypeText source entity name node arguments)
      (importTypeText source entity name node arguments') := by
  unfold importTypeText
  split
  · split
    · exact (Text.Annotated.refl _).append h
    · exact (Text.Annotated.refl _).append h
  · exact (Text.Annotated.refl _).append h

end Emit

namespace Rollup

open Emit

variable {surface : Surface} {plan : TrimPlan} {entity : Entity}

/-! ## The comments -/

/-- The comments on what a plan does not keep: members of declarations, declarations of
entities of which others are kept, and whole entities. -/
inductive Notice (surface : Surface) (plan : TrimPlan) : Text → Prop
  | member {declaration : Declaration}
      (known : declaration ∈ surface.inventory.allDeclarations)
      (unkept : plan.isKept declaration.id = false) :
      Notice surface plan (excludedComment declaration.symbol.name)
  | declaration {entity : Entity} {declaration : Declaration}
      (listed : entity ∈ surface.entities)
      (declares : declaration ∈ surface.declarationsOfEntity entity)
      (unkept : plan.isKept declaration.id = false) :
      Notice surface plan (excludedDeclarationComment entity.name)
  | entity {entity : Entity} (listed : entity ∈ surface.entities)
      (symbol : entity.subject.isSymbol = true)
      (unkept : ∀ declaration ∈ surface.declarationsOfEntity entity,
        plan.isKept declaration.id = false) :
      Notice surface plan (excludedComment entity.name)

theorem tight_of_comment (opening closing : Text) (name : String) :
    Text.Tight (('/' :: opening) ++ name.toList ++ (closing ++ ['/'])) := by
  have htight := Text.tight_of_ends (show Text.isBlank '/' = false by decide)
    (show Text.isBlank '/' = false by decide) (opening ++ name.toList ++ closing)
  simpa using htight

theorem tight_excludedComment (name : Datum) : Text.Tight (excludedComment name) := by
  rw [excludedComment, String.toList_append, String.toList_append]
  exact tight_of_comment "* Excluded from this release type: ".toList " *".toList name.plain

private theorem tight_excludedDeclarationComment (name : Datum) :
    Text.Tight (excludedDeclarationComment name) := by
  rw [excludedDeclarationComment, String.toList_append, String.toList_append]
  exact tight_of_comment "* Excluded declaration from this release type: ".toList " *".toList
    name.plain

theorem Notice.tight {note : Text} (h : Notice surface plan note) : Text.Tight note := by
  cases h with
  | member => exact tight_excludedComment _
  | declaration => exact tight_excludedDeclarationComment _
  | entity => exact tight_excludedComment _

/-! ## Declarations -/

variable (surface plan) in
abbrev Commented : Changes → Changes → Prop := Changes.Annotated (Notice surface plan)

theorem takeOut_annotated {allowed : Text → Prop} {comment : Text} (h : allowed comment)
    (path : Path) (span : Span) (next : Option Span) :
    (takeOut comment path span next).Annotated allowed (takeOut [] path span next) := by
  refine Changes.Annotated.append ?_ ?_
  · refine Changes.annotated_cons Change.annotated_omitChildren ?_
    refine Changes.annotated_cons (Change.annotated_setLead (.note h)) ?_
    exact Changes.annotated_single (Change.annotated_setTail _)
  · apply annotated_self
    split <;> simp [Change.annotated_skip]

private theorem trimMember_commented {member : Declaration}
    (hknown : member ∈ surface.inventory.allDeclarations)
    (hunkept : plan.isKept member.id = false) (trail : Trail) (span : Span) :
    Commented surface plan (trimMember ⟨surface, plan, false⟩ trail span member)
      (trimMember ⟨surface, plan, true⟩ trail span member) := by
  rw [trimMember_eq, trimMember_eq]
  exact takeOut_annotated (.member hknown hunkept) _ _ _

private theorem ownChanges_inStep (declaration : Declaration) (trail : Trail) (span : Span)
    (kind : NodeKind) :
    InStep (Commented surface plan)
      (ownChanges ⟨surface, plan, false⟩ entity declaration trail span kind)
      (ownChanges ⟨surface, plan, true⟩ entity declaration trail span kind) := by
  unfold ownChanges
  split
  · exact .pure (Changes.annotated_single Change.annotated_skip)
  · split
    · exact .pure (annotated_writeModifiers _ _ _)
    · split
      · refine .bind_same fun _ _ => .pure ?_
        refine Changes.annotated_cons (Change.annotated_prepend _ _) ?_
        exact Changes.annotated_single (Change.annotated_setTail _)
      · split
        · exact renameIdentifier_inStep surface trail.path span.node
        · exact .pure Changes.annotated_nil

variable {declaration : Declaration} {child : Span}

theorem known_of_member {node : Node} {member : Declaration}
    (hdeclaration : declaration ∈ surface.inventory.allDeclarations)
    (hmember : Surface.member declaration node = .ok member) :
    member ∈ surface.inventory.allDeclarations := by
  unfold Surface.member at hmember
  split at hmember
  · rename_i found hfound
    cases hmember
    exact Declaration.mem_walkAll_member hdeclaration (List.mem_of_find?_eq_some hfound)
  · cases hmember

section Child

variable (hdeclaration : declaration ∈ surface.inventory.allDeclarations)
  (hrevised : ∀ {inner}, inner ∈ surface.inventory.allDeclarations → ∀ trail,
    InStep (Commented surface plan) (revise ⟨surface, plan, false⟩ entity inner trail child)
      (revise ⟨surface, plan, true⟩ entity inner trail child))
include hdeclaration hrevised

private theorem childChanges_inStep (here : Trail) :
    InStep (Commented surface plan)
      (childChanges ⟨surface, plan, false⟩ entity declaration here child)
      (childChanges ⟨surface, plan, true⟩ entity declaration here child) := by
  unfold childChanges
  split
  · refine .bind_same fun member hmember => ?_
    have hknown := known_of_member hdeclaration hmember
    dsimp only
    split
    · rename_i hunkept
      exact .pure (trimMember_commented hknown (by simpa using hunkept) here child)
    · refine .bind_same fun item _ => ?_
      split
      · exact .pure (annotated_stub _ _ _)
      · exact hrevised hknown here
  · exact hrevised hdeclaration here

private theorem argumentChanges_inStep (here : Trail) :
    InStep (Commented surface plan)
      (argumentChanges ⟨surface, plan, false⟩ entity declaration here child)
      (argumentChanges ⟨surface, plan, true⟩ entity declaration here child) := by
  unfold argumentChanges
  split
  · exact .bind_same fun member hmember =>
      hrevised (known_of_member hdeclaration hmember) here
  · exact hrevised hdeclaration here

end Child

theorem revise_inStep (hdeclaration : declaration ∈ surface.inventory.allDeclarations)
    (trail : Trail) (span : Span) :
    InStep (Commented surface plan) (revise ⟨surface, plan, false⟩ entity declaration trail span)
      (revise ⟨surface, plan, true⟩ entity declaration trail span) := by
  induction span using Span.inductionOnChildren generalizing declaration trail with
  | step span ih =>
      by_cases hcomment : span.kind = .docComment
      · rw [revise_comment hcomment, revise_comment hcomment]
        refine .ok (annotated_self ?_)
        split <;> simp [Change.annotated_skip]
      by_cases himport : span.kind = .importType
      · rw [revise_importType himport, revise_importType himport]
        refine .bind_same fun found _ => ?_
        cases found with
        | none => exact .pure Changes.annotated_nil
        | some imported =>
            refine .bind_same fun name _ => .bind_same fun bounds _ => ?_
            refine InStep.bind (gather_inStep (Notice surface plan)
              (fun child hchild index previous next => ?_) 0 none)
              fun inner inner' hinner => ?_
            · split
              · exact argumentChanges_inStep hdeclaration
                  (fun hknown here => ih child hchild hknown here) _
              · exact .pure Changes.annotated_nil
            · refine (argumentsText_inStep (fun _ => Notice.tight) hinner trail.path span
                bounds).bind fun arguments arguments' harguments => .pure (hinner.append ?_)
              exact replaceWhole_annotated (importTypeText_annotated harguments _ _ _ _) _
      · rw [revise_opened ⟨hcomment, himport⟩, revise_opened ⟨hcomment, himport⟩]
        refine (ownChanges_inStep _ _ _ _).bind fun own own' hown => ?_
        refine InStep.bind (gather_inStep (Notice surface plan) (fun child hchild _ _ _ =>
          childChanges_inStep hdeclaration (fun hknown here => ih child hchild hknown here) _)
          0 none) fun inner inner' hinner => .pure (hown.append hinner)

/-! ## The document -/

theorem declarationChanges_inStep
    (hdeclaration : declaration ∈ surface.inventory.allDeclarations) :
    InStep (fun made made' => made.1 = made'.1 ∧ Commented surface plan made.2 made'.2)
      (declarationChanges ⟨surface, plan, false⟩ entity declaration)
      (declarationChanges ⟨surface, plan, true⟩ entity declaration) := by
  refine .bind_same fun span _ => .bind_same fun item _ => ?_
  split
  · exact .pure ⟨rfl, annotated_stub _ _ _⟩
  · exact (revise_inStep hdeclaration {} span).bind fun _ _ hchanges => .pure ⟨rfl, hchanges⟩

theorem declarationText_inStep (hdeclaration : declaration ∈ surface.inventory.allDeclarations) :
    InStep (Text.Annotated (Notice surface plan))
      (declarationText ⟨surface, plan, false⟩ entity declaration)
      (declarationText ⟨surface, plan, true⟩ entity declaration) := by
  refine (declarationChanges_inStep hdeclaration).bind ?_
  rintro ⟨span, changes⟩ ⟨_, changes'⟩ ⟨rfl, hchanges⟩
  exact .pure (span.draw_annotated hchanges.edits none)

theorem commentLines_noted {note : Text} (h : Notice surface plan note) :
    Text.Noted (Notice surface plan) [note] (Text.line [] ++ Text.line note) [] := by
  refine ⟨[⟨false, Text.line []⟩, ⟨true, note⟩, ⟨false, ['\n']⟩], ?_, rfl, ?_, List.Sublist.refl _⟩
  · simp [Text.Segment.written, Text.line]
  · simpa [Text.Segment.notes] using h

/-- The comments on the declarations that are not kept, where others are. -/
def declarationNotices (plan : TrimPlan) (entity : Entity) (declarations : List Declaration) :
    List Text :=
  (declarations.filter fun declaration => !plan.isKept declaration.id).map fun _ =>
    excludedDeclarationComment entity.name

private theorem declarationTexts_inStep (hentity : entity ∈ surface.entities)
    {declarations : List Declaration}
    (hdeclarations : declarations ⊆ surface.declarationsOfEntity entity) :
    InStep (Text.Noted (Notice surface plan) (declarationNotices plan entity declarations))
      (declarationTexts ⟨surface, plan, false⟩ entity declarations)
      (declarationTexts ⟨surface, plan, true⟩ entity declarations) := by
  induction declarations with
  | nil => exact .ok (Text.Annotated.refl []).noted
  | cons declaration rest ih =>
      have hlisted := hdeclarations (List.mem_cons_self ..)
      have hlast : ∀ required here here', Text.Noted (Notice surface plan) required here here' →
          InStep (Text.Noted (Notice surface plan)
              (required ++ declarationNotices plan entity rest))
            (do let others ← declarationTexts ⟨surface, plan, false⟩ entity rest
                pure (here ++ others))
            (do let others ← declarationTexts ⟨surface, plan, true⟩ entity rest
                pure (here' ++ others)) := fun _ _ _ hhere =>
        (ih fun other hother => hdeclarations (by simp [hother])).bind fun _ _ hothers =>
          .pure (hhere.append hothers)
      cases hkept : plan.isKept declaration.id with
      | true =>
          have hnotices : declarationNotices plan entity (declaration :: rest) =
              [] ++ declarationNotices plan entity rest := by
            simp [declarationNotices, hkept]
          rw [hnotices]
          unfold declarationTexts
          simp only [hkept, if_true, pure_bind]
          refine .bind_same fun found hfound => ?_
          exact (declarationText_inStep (Surface.mem_of_declaration hfound)).bind
            fun _ _ htext => hlast _ _ _ ((Text.Annotated.refl _).append htext.line).noted
      | false =>
          have hnotices : declarationNotices plan entity (declaration :: rest) =
              [excludedDeclarationComment entity.name] ++ declarationNotices plan entity rest := by
            simp [declarationNotices, hkept]
          have hnote : Notice surface plan (excludedDeclarationComment entity.name) :=
            .declaration hentity hlisted hkept
          rw [hnotices]
          unfold declarationTexts
          simp only [hkept]
          exact hlast _ _ _ (commentLines_noted hnote)

/-- The comments on an entity: one for each declaration that is not kept, or a single one
if none of them is kept. -/
def notices (surface : Surface) (plan : TrimPlan) (entity : Entity) : List Text :=
  let declarations := surface.declarationsOfEntity entity
  if declarations.any fun declaration => plan.isKept declaration.id then
    declarationNotices plan entity declarations
  else if entity.subject.isSymbol then [excludedComment entity.name] else []

private theorem entityText_inStep (hentity : entity ∈ surface.entities) :
    InStep (Text.Noted (Notice surface plan) (notices surface plan entity))
      (entityText ⟨surface, plan, false⟩ entity) (entityText ⟨surface, plan, true⟩ entity) := by
  unfold entityText
  split
  · rename_i label source hsubject
    have hnotices : notices surface plan entity = [] := by
      simp [notices, Surface.declarationsOfEntity, hsubject, Subject.isSymbol]
    rw [hnotices]
    exact .pure (Text.Annotated.refl _).noted
  · rename_i label name hsubject
    have hdeclared : surface.declarationsOfEntity entity = surface.declarationsOf label.key := by
      simp [Surface.declarationsOfEntity, hsubject]
    have hsymbol : entity.subject.isSymbol = true := by rw [hsubject]; rfl
    unfold notices
    dsimp only
    rw [← hdeclared]
    split
    · refine (declarationTexts_inStep hentity (List.Subset.refl _)).bind fun _ _ htexts => .pure ?_
      simpa using htexts.append (Text.Annotated.refl (exportStatements entity)).noted
    · rename_i hunkept
      exact .pure (commentLines_noted (.entity hentity hsymbol (by simpa using hunkept)))

theorem entityTexts_inStep {entities : List Entity} (hentities : entities ⊆ surface.entities) :
    InStep (Text.Noted (Notice surface plan) (entities.flatMap (notices surface plan)))
      (entityTexts ⟨surface, plan, false⟩ entities)
      (entityTexts ⟨surface, plan, true⟩ entities) := by
  induction entities with
  | nil => exact .ok (Text.Annotated.refl []).noted
  | cons entity rest ih =>
      refine (entityText_inStep (hentities (List.mem_cons_self ..))).bind fun _ _ htext => ?_
      refine (ih fun other hother => hentities (by simp [hother])).bind fun _ _ hothers => .pure ?_
      rw [List.flatMap_cons]
      exact htext.append hothers

private theorem checkNames_inStep :
    InStep Eq (checkNames ⟨surface, plan, false⟩) (checkNames ⟨surface, plan, true⟩) := by
  unfold checkNames
  dsimp only
  split
  · exact .ok rfl
  · refine .forM fun entity _ => .forM fun declaration hdeclaration => ?_
    have hknown := Surface.mem_allDeclarations_of_entity (List.mem_filter.mp hdeclaration).1
    refine (declarationChanges_inStep hknown).bind ?_
    rintro ⟨span, changes⟩ ⟨_, changes'⟩ ⟨rfl, hchanges⟩
    exact checkPieces_inStep span hchanges

private theorem text_inStep :
    InStep (Text.Noted (Notice surface plan) (surface.entities.flatMap (notices surface plan)))
      (text ⟨surface, plan, false⟩) (text ⟨surface, plan, true⟩) := by
  refine .bind_same fun imports _ => ?_
  refine (entityTexts_inStep (List.Subset.refl _)).bind fun raw bare hentities => ?_
  refine .bind_same fun documentation _ => ?_
  refine checkNames_inStep.bind fun _ _ _ => .pure ?_
  have hopening := (Text.Annotated.refl (documentation ++ imports)).noted.append hentities
  simpa using hopening.append (Text.Annotated.refl (starExports surface.starExports ++
    (Text.line [] ++ Text.line "export \x7b \x7d".toList))).noted

end Rollup

open Rollup Text Segment

/-- Whether a rollup is written does not depend on its comments, nor does the fault that
keeps it from being written.  The comments of a rollup are on what the plan does not keep,
with those on entities in order.  Without them, the characters are those of the rollup that
is written without comments, up to blanks. -/
theorem rollup_comments_only_added (surface : Surface) (plan : TrimPlan) :
    (∀ newline, (∃ document, surface.rollup plan false newline = .ok document) ↔
      ∃ document, surface.rollup plan true newline = .ok document) ∧
    (∀ fault, Rollup.text ⟨surface, plan, false⟩ = .error fault ↔
      Rollup.text ⟨surface, plan, true⟩ = .error fault) ∧
    ∀ raw bare, Rollup.text ⟨surface, plan, false⟩ = .ok raw →
      Rollup.text ⟨surface, plan, true⟩ = .ok bare →
      ∃ segments, written segments = raw ∧ solid (own segments) = solid bare ∧
        (∀ note ∈ notes segments, Notice surface plan note) ∧
        (surface.entities.flatMap (notices surface plan)).Sublist (notes segments) := by
  have htext := @text_inStep surface plan
  refine ⟨fun newline => ?_, htext.error_iff, fun raw bare hraw hbare => htext.values hraw hbare⟩
  have hrollup : InStep (fun _ _ => True) (surface.rollup plan false newline)
      (surface.rollup plan true newline) := by
    refine htext.bind fun raw bare _ => ?_
    unfold writeNewlines
    split
    · exact .ok trivial
    · exact .error _
  exact hrollup.ok_iff

/-- Two overloads, an interface with a property and one without. -/
def trimmedFile : SourceFile where
  path := .text "index.d.ts"
  text := "function f function f interface I u interface J".toList
  root := .mk .sourceFile 0 47 0 .null
    [.mk .functionDeclaration 0 10 1 .null
      [.mk .functionKeyword 0 8 2 .null [], .mk .identifier 9 10 3 .null []],
    .mk .functionDeclaration 11 21 4 .null
      [.mk .functionKeyword 11 19 5 .null [], .mk .identifier 20 21 6 .null []],
    .mk .interfaceDeclaration 22 35 7 .null
      [.mk .interfaceKeyword 22 31 8 .null [], .mk .identifier 32 33 9 .null [],
      .mk .propertySignature 34 35 10 .null [.mk .identifier 34 35 11 .null []]],
    .mk .interfaceDeclaration 36 47 12 .null
      [.mk .interfaceKeyword 36 45 13 .null [], .mk .identifier 46 47 14 .null []]]

/-- The second overload, the property and the last interface are internal. -/
def trimmedPackage : ModuleGraph where
  packageName := .text "trimmed"
  files := [trimmedFile]
  symbols := [("f", trimmedFile.root.children.take 2),
    ("I", (trimmedFile.root.children.drop 2).take 1),
    ("J", trimmedFile.root.children.drop 3)].map fun (name, nodes) =>
    { key := .text name
      localName := .text name
      declarations := nodes.map fun node => ⟨trimmedFile, [trimmedFile.root], node⟩ }
  exports := ["f", "I", "J"].map fun name => (.text name, .text name)
  docFlags := [(1, { releaseTag := .public }), (4, { releaseTag := .internal }),
    (7, { releaseTag := .public }), (10, { releaseTag := .internal }),
    (12, { releaseTag := .internal })]

theorem rollup_comments_only_added_trimmed :
    ∃ surface plan raw bare segments,
    Surface.analyze trimmedPackage {} = .ok surface ∧
    TrimPlan.make surface .public = .ok plan ∧
    Rollup.text ⟨surface, plan, false⟩ = .ok raw ∧
    Rollup.text ⟨surface, plan, true⟩ = .ok bare ∧
    String.ofList raw = "\nexport declare function f\n" ++
      "\n/* Excluded declaration from this release type: f */\n" ++
      "\nexport declare interface I /* Excluded from this release type: u */\n" ++
      "\n/* Excluded from this release type: J */\n" ++ "\nexport \x7b \x7d\n" ∧
    String.ofList bare = "\nexport declare function f\n" ++
      "\nexport declare interface I \n" ++ "\nexport \x7b \x7d\n" ∧
    written segments = raw ∧ solid (own segments) = solid bare ∧
    "/* Excluded declaration from this release type: f */".toList ∈ notes segments ∧
    "/* Excluded from this release type: J */".toList ∈ notes segments ∧
    Notice surface plan "/* Excluded from this release type: J */".toList := by
  have hrun : (do
      let surface ← Surface.analyze trimmedPackage {}
      let plan ← TrimPlan.make surface .public
      let raw ← Rollup.text ⟨surface, plan, false⟩
      let bare ← Rollup.text ⟨surface, plan, true⟩
      pure (String.ofList raw, String.ofList bare,
        surface.entities.flatMap (notices surface plan))) =
        .ok ("\nexport declare function f\n" ++
            "\n/* Excluded declaration from this release type: f */\n" ++
            "\nexport declare interface I /* Excluded from this release type: u */\n" ++
            "\n/* Excluded from this release type: J */\n" ++ "\nexport \x7b \x7d\n",
          "\nexport declare function f\n" ++
            "\nexport declare interface I \n" ++ "\nexport \x7b \x7d\n",
          ["/* Excluded declaration from this release type: f */".toList,
            "/* Excluded from this release type: J */".toList]) := by
    cbv
  simp only [bind_eq_ok, pure_eq_ok, Prod.mk.injEq] at hrun
  obtain ⟨surface, hanalyze, plan, hplan, raw, hraw, bare, hbare, hrawText, hbareText,
    hnotices⟩ := hrun
  obtain ⟨segments, hwritten, hown, hallowed, hlisted⟩ :=
    (rollup_comments_only_added surface plan).2.2 raw bare hraw hbare
  rw [hnotices] at hlisted
  have hlast : "/* Excluded from this release type: J */".toList ∈ notes segments :=
    hlisted.subset (.tail _ (.head _))
  exact ⟨surface, plan, raw, bare, segments, hanalyze, hplan, hraw, hbare, hrawText, hbareText,
    hwritten, hown, hlisted.subset (.head _), hlast, hallowed _ hlast⟩

end ApiSurface
