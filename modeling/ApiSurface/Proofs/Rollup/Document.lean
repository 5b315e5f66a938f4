import ApiSurface.Proofs.Emit.Nested
import ApiSurface.Proofs.Rollup.Shown
import ApiSurface.Proofs.Surface.Analysis
import ApiSurface.Trim

/-!
# A rollup shows its plan

A rollup is put together from the texts of the declarations that its plan keeps.
Inside the text of a kept declaration, a nested declaration is shown exactly if the
plan keeps it and everything around it, and if no variable statement around it goes
with a variable that is not kept.
-/

namespace ApiSurface

theorem writeNewlines_eq_ok {newline : Newline} {raw document : Text}
    (h : writeNewlines newline raw = .ok document) :
    ∃ kind, newline.ending? = some kind ∧
      document = Text.convertNewlines kind raw := by
  unfold writeNewlines at h
  split at h
  · rename_i kind hkind
    exact ⟨kind, hkind, (Except.ok.inj h).symm⟩
  · cases h

namespace Rollup

open Emit

variable {context : Context} {entity : Entity}

/-! ## The parts of the document -/

def leftOutNotice (context : Context) (entity : Entity) : Text :=
  if context.omitComments then []
  else Text.line [] ++ Text.line (excludedDeclarationComment entity.name)

/-- What a declaration adds to the document: its text if it is kept, and otherwise
the same notice whatever it declares. -/
inductive Piece (context : Context) (entity : Entity) (declaration : Declaration) :
    Text → Prop
  | kept {text : Text} (kept : context.plan.isKept declaration.id = true)
      (written : declarationText context entity declaration = .ok text) :
      Piece context entity declaration (Text.line [] ++ Text.line text)
  | left (unkept : context.plan.isKept declaration.id = false) :
      Piece context entity declaration (leftOutNotice context entity)

inductive EntityPart (context : Context) (entity : Entity) : Text → Prop
  | imported (nothing : context.surface.declarationsOfEntity entity = []) :
      EntityPart context entity (exportStatements entity)
  | shown {pieces : List Text}
      (some : ∃ declaration ∈ context.surface.declarationsOfEntity entity,
        context.plan.isKept declaration.id = true)
      (each : List.Forall₂ (Piece context entity)
        (context.surface.declarationsOfEntity entity) pieces) :
      EntityPart context entity (pieces.flatten ++ exportStatements entity)
  | left (unkept : ∀ declaration ∈ context.surface.declarationsOfEntity entity,
        context.plan.isKept declaration.id = false) :
      EntityPart context entity
        (if context.omitComments then []
          else Text.line [] ++ Text.line (excludedComment entity.name))

/-- The document is the documentation of the package, its imports, what the entities
add one after the other, and the exports at the end. -/
def Composed (context : Context) (raw : Text) : Prop :=
  ∃ documentation imports parts,
    documentationText context.surface.graph.documentation = .ok documentation ∧
      importTexts context.surface.entities = .ok imports ∧
      List.Forall₂ (EntityPart context) context.surface.entities parts ∧
      raw = documentation ++ imports ++ parts.flatten ++
        starExports context.surface.starExports ++ Text.line [] ++
        Text.line "export \x7b \x7d".toList

private theorem declarationTexts_pieces (hsound : context.surface.Sound)
    {declarations : List Declaration} {text : Text}
    (hdeclarations : declarations ⊆ context.surface.inventory.allDeclarations)
    (h : declarationTexts context entity declarations = .ok text) :
    ∃ pieces, text = pieces.flatten ∧
      List.Forall₂ (Piece context entity) declarations pieces := by
  induction declarations generalizing text with
  | nil =>
      cases h
      exact ⟨[], rfl, .nil⟩
  | cons declaration rest ih =>
      obtain ⟨hdeclaration, hrest⟩ := List.cons_subset.mp hdeclarations
      have hsplit : ∃ here others, text = here ++ others ∧
          Piece context entity declaration here ∧
          declarationTexts context entity rest = .ok others := by
        cases hkept : context.plan.isKept declaration.id with
        | true =>
            simp only [declarationTexts, hkept, if_true, bind_eq_ok, pure_eq_ok,
              hsound.declaration_eq hdeclaration] at h
            obtain ⟨_, hfound, written, hwritten, _, rfl, others, hothers, rfl⟩ := h
            cases hfound
            exact ⟨_, others, rfl, .kept hkept hwritten, hothers⟩
        | false =>
            simp only [declarationTexts, hkept, Bool.false_eq_true, if_false] at h
            refine ⟨leftOutNotice context entity, ?_⟩
            unfold leftOutNotice
            split at h
            all_goals
              rename_i hcomments
              simp only [bind_eq_ok, pure_eq_ok] at h
              obtain ⟨here, rfl, others, hothers, rfl⟩ := h
              refine ⟨others, by simp [hcomments], ?_, hothers⟩
              have hleft := @Piece.left context entity declaration hkept
              simpa [leftOutNotice, hcomments] using hleft
      obtain ⟨here, others, rfl, hhere, hothers⟩ := hsplit
      obtain ⟨pieces, rfl, hpieces⟩ := ih hrest hothers
      exact ⟨here :: pieces, rfl, .cons hhere hpieces⟩

private theorem entityText_part (hsound : context.surface.Sound) {text : Text}
    (h : entityText context entity = .ok text) :
    EntityPart context entity text := by
  unfold entityText at h
  split at h
  · rename_i label source hsubject
    rw [pure_eq_ok] at h
    subst h
    exact .imported (by simp [Surface.declarationsOfEntity, hsubject])
  · rename_i label symbol hsubject
    have hdeclarations : context.surface.declarationsOfEntity entity =
        context.surface.declarationsOf label.key := by
      simp [Surface.declarationsOfEntity, hsubject]
    simp only at h
    split at h
    · rename_i hsome
      simp only [bind_eq_ok, pure_eq_ok] at h
      obtain ⟨texts, htexts, rfl⟩ := h
      rw [← hdeclarations] at hsome htexts
      obtain ⟨pieces, rfl, hpieces⟩ := declarationTexts_pieces hsound
        (fun _ => Surface.mem_allDeclarations_of_entity) htexts
      exact .shown (List.any_eq_true.mp hsome) hpieces
    · rename_i hnone
      have hunkept : ∀ declaration ∈ context.surface.declarationsOfEntity entity,
          context.plan.isKept declaration.id = false := by
        rw [hdeclarations]
        simpa using hnone
      have hleft := @EntityPart.left context entity hunkept
      split at h
      all_goals
        rename_i hcomments
        rw [pure_eq_ok] at h
        subst h
        simpa [hcomments] using hleft

private theorem entityTexts_parts (hsound : context.surface.Sound) {entities : List Entity}
    {text : Text} (h : entityTexts context entities = .ok text) :
    ∃ parts, text = parts.flatten ∧
      List.Forall₂ (EntityPart context) entities parts := by
  induction entities generalizing text with
  | nil =>
      cases h
      exact ⟨[], rfl, .nil⟩
  | cons entity rest ih =>
      simp only [entityTexts, bind_eq_ok, pure_eq_ok] at h
      obtain ⟨here, hhere, others, hothers, rfl⟩ := h
      obtain ⟨parts, rfl, hparts⟩ := ih hothers
      exact ⟨here :: parts, rfl, .cons (entityText_part hsound hhere) hparts⟩

private theorem text_composed (hsound : context.surface.Sound) {raw : Text}
    (h : text context = .ok raw) : Composed context raw := by
  simp only [text, bind_eq_ok, pure_eq_ok] at h
  obtain ⟨imports, himports, entities, hentities, documentation, hdocumentation, _, _,
    rfl⟩ := h
  obtain ⟨parts, rfl, hparts⟩ := entityTexts_parts hsound hentities
  exact ⟨documentation, imports, parts, hdocumentation, himports, hparts, rfl⟩

theorem EntityPart.written {part : Text} (h : EntityPart context entity part)
    {declaration : Declaration}
    (hdeclaration : declaration ∈ context.surface.declarationsOfEntity entity)
    (hkept : context.plan.isKept declaration.id = true) :
    ∃ text, declarationText context entity declaration = .ok text ∧
      Text.line text <:+: part := by
  cases h with
  | imported nothing => simp [nothing] at hdeclaration
  | left unkept => simp [unkept declaration hdeclaration] at hkept
  | @shown pieces _ each =>
      obtain ⟨piece, hpiece, hwritten⟩ := exists_right_of_forall₂ each hdeclaration
      cases hwritten with
      | left unkept => simp [unkept] at hkept
      | @kept text _ written =>
          refine ⟨text, written, ?_⟩
          calc Text.line text <:+: Text.line [] ++ Text.line text :=
                (List.suffix_append _ _).isInfix
            _ <:+: pieces.flatten := List.infix_of_mem_flatten hpiece
            _ <:+: pieces.flatten ++ exportStatements entity :=
                (List.prefix_append _ _).isInfix

theorem Composed.written {raw : Text} (h : Composed context raw)
    {declaration : Declaration} (hentity : entity ∈ context.surface.entities)
    (hdeclaration : declaration ∈ context.surface.declarationsOfEntity entity)
    (hkept : context.plan.isKept declaration.id = true) :
    ∃ root changes, declarationChanges context entity declaration = .ok (root, changes) ∧
      Text.line (root.render changes.edits) <:+: raw := by
  obtain ⟨documentation, imports, parts, _, _, hparts, rfl⟩ := h
  obtain ⟨part, hpart, hwritten⟩ := exists_right_of_forall₂ hparts hentity
  obtain ⟨text, htext, hinside⟩ := hwritten.written hdeclaration hkept
  simp only [declarationText, bind_eq_ok, pure_eq_ok] at htext
  obtain ⟨⟨root, changes⟩, hchanges, rfl⟩ := htext
  refine ⟨root, changes, hchanges,
    (hinside.trans (List.infix_of_mem_flatten hpart)).trans ?_⟩
  rw [List.append_assoc (documentation ++ imports ++ parts.flatten),
    List.append_assoc (documentation ++ imports ++ parts.flatten)]
  exact List.infix_append _ _ _

theorem rollup_composed {graph : ModuleGraph} {router : Router} {surface : Surface}
    {plan : TrimPlan} {omitComments : Bool} {newline : Newline} {document : Text}
    (hanalyze : Surface.analyze graph router = .ok surface)
    (hrollup : surface.rollup plan omitComments newline = .ok document) :
    ∃ raw kind, newline.ending? = some kind ∧ document = Text.convertNewlines kind raw ∧
      text ⟨surface, plan, omitComments⟩ = .ok raw ∧
      Composed ⟨surface, plan, omitComments⟩ raw := by
  simp only [Surface.rollup, bind_eq_ok] at hrollup
  obtain ⟨raw, hraw, hwritten⟩ := hrollup
  obtain ⟨kind, hkind, hdocument⟩ := writeNewlines_eq_ok hwritten
  exact ⟨raw, kind, hkind, hdocument, hraw,
    text_composed (Surface.analyze_sound hanalyze) hraw⟩

/-! ## Nested declarations -/

/-- The plan decides whether a nested declaration is shown: if it is, its text
stands in the text of the outer declaration, and if it is not, the text somewhere on
the way to it is the same whatever stands there. -/
structure Decided (context : Context) (outer : Declaration) (root : Span) (edits : Edits)
    (path : Path) (chain : List Declaration) (target : Span) : Prop where
  shown_iff : Shown edits root path ↔
    (∀ member ∈ chain, context.plan.isKept member.id = true) ∧
      ∀ address, address <+: path → ¬ GoesWithVariable context outer root address
  stands : Shown edits root path →
    Text.trim (target.render (edits.within path)) <:+: root.render edits
  hidden : ¬ Shown edits root path → ∃ address, address <+: path ∧ Hidden edits root address

variable {outer : Declaration} {root target : Span} {path : Path}
  {chain : List Declaration} {changes : Changes}

private theorem revise_decided (h : revise context entity outer {} root = .ok changes)
    (hway : Way outer root path chain target) (hend : target.kind.isDeclaration = true)
    (hplain : Plain context.surface root path)
    (hwhole : ∀ member ∈ chain.dropLast, context.surface.isStub member = false) :
    Decided context outer root changes.edits path chain target := by
  have hcases : ((∀ member ∈ chain, context.plan.isKept member.id = true) ∧
      VisitsBefore context outer root [] path) ∨
      ∃ address child, Meets context outer root address child ∧ address <+: path :=
    kept_or_meets .here hway hplain hend hwhole
  -- A member that is not kept goes, alone or with a statement around it.
  have hgone : ∀ address child, Meets context outer root address child →
      address <+: path → ¬ Shown changes.edits root path ∧
        ∃ address, address <+: path ∧ Hidden changes.edits root address := by
    intro address child hmeets haddress
    obtain ⟨_, htaken, _, _⟩ := taken_spec hmeets.descendant?
    exact hmeets.not_shown h (htaken.trans haddress)
  constructor
  · constructor
    · intro hshown
      refine ⟨?_, fun address haddress hgoes => (hgoes.not_shown h haddress).1 hshown⟩
      rcases hcases with ⟨hkept, _⟩ | ⟨address, child, hmeets, haddress⟩
      · exact hkept
      · exact absurd hshown (hgone address child hmeets haddress).1
    · rintro ⟨hkept, hstays⟩
      exact shown_of_kept h hway hplain hend hwhole hkept hstays
  · intro hshown
    rcases hcases with ⟨_, hvisits⟩ | ⟨address, child, hmeets, haddress⟩
    · have hdisplayed : Displayed context outer root changes.edits path target :=
        ⟨hway.descendant?, hend, hplain, hvisits, hshown⟩
      have hroot : root.descendant? [] = some root := rfl
      exact hdisplayed.trim_infix h (List.nil_append path).symm hroot
    · exact absurd hshown (hgone address child hmeets haddress).1
  · intro hhidden
    rcases hcases with ⟨hkept, _⟩ | ⟨address, child, hmeets, haddress⟩
    · -- Everything is kept, so that only a statement around it can have gone.
      by_contra hnone
      apply hhidden
      apply shown_of_kept h hway hplain hend hwhole hkept
      intro address haddress hgoes
      exact hnone (hgoes.not_shown h haddress).2
    · exact (hgone address child hmeets haddress).2

theorem declarationChanges_eq_ok
    (h : declarationChanges context entity outer = .ok (root, changes)) :
    Span.ofNode outer.site.file.text outer.node = .ok root ∧
      (context.surface.isStub outer = true →
        changes = stub (modifiers entity outer) [] root) ∧
      (context.surface.isStub outer = false →
        revise context entity outer {} root = .ok changes) := by
  simp only [declarationChanges, bind_eq_ok] at h
  obtain ⟨span, hspan, item, hitem, h⟩ := h
  rw [Surface.isStub_eq hitem]
  cases hstub : item.isPreapproved with
  | true =>
      simp only [hstub, if_true, bind_eq_ok, pure_eq_ok, Prod.mk.injEq] at h
      obtain ⟨_, rfl, rfl, rfl⟩ := h
      exact ⟨hspan, fun _ => rfl, by simp⟩
  | false =>
      simp only [hstub, Bool.false_eq_true, if_false, bind_eq_ok, pure_eq_ok,
        Prod.mk.injEq] at h
      obtain ⟨made, hmade, rfl, rfl⟩ := h
      exact ⟨hspan, by simp, fun _ => hmade⟩

end Rollup

open Emit Rollup

/-- A rollup is composed of the texts of kept declarations.  In each of them that has a
body, every nested declaration has its place, and the plan decides whether it is shown,
unless it stands inside a declaration without a body. -/
theorem rollup_shows_plan {graph : ModuleGraph} {router : Router} {surface : Surface}
    {plan : TrimPlan} {omitComments : Bool} {newline : Newline} {document : Text}
    (hanalyze : Surface.analyze graph router = .ok surface)
    (hrollup : surface.rollup plan omitComments newline = .ok document) :
    ∃ raw kind, newline.ending? = some kind ∧
      document = Text.convertNewlines kind raw ∧
      Composed ⟨surface, plan, omitComments⟩ raw ∧
      ∀ entity ∈ surface.entities, ∀ outer ∈ surface.declarationsOfEntity entity,
        plan.isKept outer.id = true → surface.isStub outer = false →
          ∃ root changes,
            declarationChanges ⟨surface, plan, omitComments⟩ entity outer =
              .ok (root, changes) ∧
            Text.line (root.render changes.edits) <:+: raw ∧
            (∀ inner ∈ outer.walk, ∃ path chain target,
              Way outer root path chain target ∧ chain.getLastD outer = inner ∧
                target.node = inner.node) ∧
            ∀ path chain target, Way outer root path chain target →
              target.kind.isDeclaration = true → Plain surface root path →
              (∀ member ∈ chain.dropLast, surface.isStub member = false) →
              Decided ⟨surface, plan, omitComments⟩ outer root changes.edits path chain
                target := by
  obtain ⟨raw, kind, hkind, rfl, -, hcomposed⟩ := rollup_composed hanalyze hrollup
  refine ⟨raw, kind, hkind, rfl, hcomposed, ?_⟩
  intro entity hentity outer houter hkept hwhole
  obtain ⟨root, changes, hchanges, hinside⟩ := hcomposed.written hentity houter hkept
  obtain ⟨hroot, -, hrevise⟩ := declarationChanges_eq_ok hchanges
  refine ⟨root, changes, hchanges, hinside, ?_, ?_⟩
  · obtain ⟨_, _, _, hsteps⟩ := Surface.analyze_steps hanalyze
    obtain ⟨hspan, hnode⟩ := Span.ofNode_spec hroot
    exact exists_way (Inventory.ofGraph_forest hsteps.declared) outer
      (Surface.mem_allDeclarations_of_entity houter) root hspan hnode
  · intro path chain target hway hend hplain hinner
    exact revise_decided (hrevise hwhole) hway hend hplain hinner

/-- An interface with a property, whose type has two properties of its own. -/
def literalFile : SourceFile where
  path := .text "index.d.ts"
  text := "interface A x{u k}".toList
  root := .mk .sourceFile 0 18 0 .null
    [.mk .interfaceDeclaration 0 18 1 .null
      [.mk .interfaceKeyword 0 9 2 .null [], .mk .identifier 10 11 3 .null [],
      .mk .propertySignature 12 18 4 .null
        [.mk .identifier 12 13 5 .null [],
        .mk .typeLiteral 13 18 6 .null
          [.mk .propertySignature 14 15 7 .null [.mk .identifier 14 15 8 .null []],
          .mk .propertySignature 16 17 9 .null [.mk .identifier 16 17 10 .null []]]]]]

def literalPackage : ModuleGraph where
  packageName := .text "literal"
  files := [literalFile]
  symbols := literalFile.root.children.map fun node =>
    { key := .text "A"
      localName := .text "A"
      declarations := [⟨literalFile, [literalFile.root], node⟩] }
  exports := [(.text "A", .text "A")]
  docFlags := [(1, { releaseTag := .public }), (7, { releaseTag := .internal })]

theorem rollup_shows_plan_literal :
    ∃ surface plan document entity outer root changes,
    Surface.analyze literalPackage {} = .ok surface ∧
    TrimPlan.make surface .public = .ok plan ∧
    surface.rollup plan true ⟨.text "lf", .lf⟩ = .ok document ∧
    document = "\nexport declare interface A x{ k}\n\nexport \x7b \x7d\n".toList ∧
    entity ∈ surface.entities ∧ outer ∈ surface.declarationsOfEntity entity ∧
    declarationChanges ⟨surface, plan, true⟩ entity outer = .ok (root, changes) ∧
    ¬ Shown changes.edits root [2, 1, 0] ∧ Shown changes.edits root [2, 1, 1] := by
  have hrun : (do
      let surface ← Surface.analyze literalPackage {}
      let plan ← TrimPlan.make surface .public
      let document ← surface.rollup plan true ⟨.text "lf", .lf⟩
      let entity ← pick surface.entities 0
      let outer ← pick (surface.declarationsOfEntity entity) 0
      let made ← declarationChanges ⟨surface, plan, true⟩ entity outer
      let property ← pick made.1.children 2
      let literal ← pick property.children 1
      let first ← pick literal.children 0
      let second ← pick literal.children 1
      let owner ← Surface.member outer property.node
      let left ← Surface.member owner first.node
      let kept ← Surface.member owner second.node
      pure (document, [made.1.kind, property.kind, literal.kind, first.kind, second.kind],
        [outer, owner, left, kept].map fun declaration : Declaration => plan.isKept declaration.id,
        [outer, owner].map surface.isStub)) =
        .ok ("\nexport declare interface A x{ k}\n\nexport \x7b \x7d\n".toList,
          [.interfaceDeclaration, .propertySignature, .typeLiteral, .propertySignature,
            .propertySignature],
          [true, true, false, true], [false, false]) := by
    cbv
  simp only [bind_eq_ok, pure_eq_ok, pick_eq_ok, Prod.mk.injEq, List.map_cons, List.map_nil,
    List.cons.injEq, and_true] at hrun
  obtain ⟨surface, hanalyze, plan, hplan, document, hrollup, entity, hentity, outer, houter,
    ⟨root, changes⟩, hchanges, property, hproperty, literal, hliteral, first, hfirst, second,
    hsecond, owner, howner, left, hleft, kept, hkept, hdocument,
    ⟨hrootKind, hpropertyKind, hliteralKind, hfirstKind, hsecondKind⟩,
    ⟨houterKept, hownerKept, hleftKept, hkeptKept⟩, houterWhole, hownerWhole⟩ := hrun
  have hentity := List.mem_of_getElem? hentity
  have houter := List.mem_of_getElem? houter
  obtain ⟨raw, kind, _, _, _, hdecided⟩ := rollup_shows_plan hanalyze hrollup
  obtain ⟨_, _, hchanges', _, _, hdecided⟩ :=
    hdecided entity hentity outer houter houterKept houterWhole
  obtain ⟨rfl, rfl⟩ := Prod.mk.inj (Except.ok.inj (hchanges.symm.trans hchanges'))
  have hplain : ∀ index, Plain surface root [2, 1, index] := by
    intro index
    refine ⟨.of_kind hrootKind rfl (by decide), fun child hchild => ?_⟩
    obtain rfl := Option.some.inj (hproperty.symm.trans hchild)
    refine ⟨.of_kind hpropertyKind rfl (by decide), fun child hchild => ?_⟩
    obtain rfl := Option.some.inj (hliteral.symm.trans hchild)
    exact ⟨.of_kind hliteralKind rfl (by decide), fun _ _ => trivial⟩
  have hway : ∀ {index target member}, literal.children[index]? = some target →
      target.kind.isDeclaration = true → Surface.member owner target.node = .ok member →
      Way outer root [2, 1, index] [owner, member] target := by
    intro index target member hstands hdeclares hfound
    refine .member hproperty (by rw [hpropertyKind]; rfl) howner ?_
    refine .through hliteral (by rw [hliteralKind]; rfl) ?_
    exact .member hstands hdeclares hfound .here
  have hwhole : ∀ {member}, ∀ other ∈ [owner, member].dropLast,
      surface.isStub other = false := by
    intro member other hother
    obtain rfl : other = owner := by simpa using hother
    exact hownerWhole
  have hfirstDeclares : first.kind.isDeclaration = true := by rw [hfirstKind]; rfl
  have hsecondDeclares : second.kind.isDeclaration = true := by rw [hsecondKind]; rfl
  refine ⟨surface, plan, document, entity, outer, root, changes, hanalyze, hplan, hrollup,
    hdocument, hentity, houter, hchanges, ?_, ?_⟩
  · have hway := hway hfirst hfirstDeclares hleft
    have hdecided := hdecided _ _ _ hway hfirstDeclares (hplain 0) hwhole
    intro hshown
    have hall := (hdecided.shown_iff.mp hshown).1 left (by simp)
    simp [hleftKept] at hall
  · have hway := hway hsecond hsecondDeclares hkept
    have hdecided := hdecided _ _ _ hway hsecondDeclares (hplain 1) hwhole
    apply hdecided.shown_iff.mpr
    refine ⟨by simp [hownerKept, hkeptKept], fun address haddress hgoes => ?_⟩
    obtain ⟨statement, hstatement, hkind⟩ := hgoes.statement
    simp only [List.prefix_cons_iff, List.prefix_nil] at haddress
    rcases haddress with rfl | ⟨_, rfl, rfl | ⟨_, rfl, rfl | ⟨_, rfl, rfl⟩⟩⟩
    all_goals
      simp [Span.descendant?, hproperty, hliteral, hsecond] at hstatement
      subst hstatement
      simp_all

/-- A namespace with two variables in one statement and a third in another. -/
def statementFile : SourceFile where
  path := .text "index.d.ts"
  text := "namespace N const a,b const c".toList
  root := .mk .sourceFile 0 29 0 .null
    [.mk .moduleDeclaration 0 29 1 .null
      [.mk .namespaceKeyword 0 9 2 .null [], .mk .identifier 10 11 3 .null [],
      .mk .variableStatement 12 21 4 .null
        [.mk .variableDeclarationList 12 21 5 .null
          [.mk .constKeyword 12 17 6 .null [],
          .mk .variableDeclaration 18 19 7 .null [.mk .identifier 18 19 8 .null []],
          .mk .commaToken 19 20 9 .null [],
          .mk .variableDeclaration 20 21 10 .null [.mk .identifier 20 21 11 .null []]]],
      .mk .variableStatement 22 29 12 .null
        [.mk .variableDeclarationList 22 29 13 .null
          [.mk .constKeyword 22 27 14 .null [],
          .mk .variableDeclaration 28 29 15 .null [.mk .identifier 28 29 16 .null []]]]]]

def statementPackage : ModuleGraph where
  packageName := .text "statement"
  files := [statementFile]
  symbols := statementFile.root.children.map fun node =>
    { key := .text "N"
      localName := .text "N"
      declarations := [⟨statementFile, [statementFile.root], node⟩] }
  exports := [(.text "N", .text "N")]
  docFlags := [(1, { releaseTag := .public }), (7, { releaseTag := .internal })]

/-- A kept variable goes with the internal one that shares its statement. -/
theorem rollup_drops_kept_variable :
    ∃ surface plan document entity outer root changes target member,
    Surface.analyze statementPackage {} = .ok surface ∧
    TrimPlan.make surface .public = .ok plan ∧
    surface.rollup plan true ⟨.text "lf", .lf⟩ = .ok document ∧
    document = "\nexport declare namespace N const c\n\nexport \x7b \x7d\n".toList ∧
    entity ∈ surface.entities ∧ outer ∈ surface.declarationsOfEntity entity ∧
    declarationChanges ⟨surface, plan, true⟩ entity outer = .ok (root, changes) ∧
    Way outer root [2, 0, 3] [member] target ∧ target.kind.isDeclaration = true ∧
    member.symbol.name = .text "b" ∧
    (∀ declaration ∈ [outer, member],
      plan.isKept declaration.id = true ∧ surface.isStub declaration = false) ∧
    ¬ Shown changes.edits root [2, 0, 3] := by
  have hrun : (do
      let surface ← Surface.analyze statementPackage {}
      let plan ← TrimPlan.make surface .public
      let document ← surface.rollup plan true ⟨.text "lf", .lf⟩
      let entity ← pick surface.entities 0
      let outer ← pick (surface.declarationsOfEntity entity) 0
      let made ← declarationChanges ⟨surface, plan, true⟩ entity outer
      let statement ← pick made.1.children 2
      let listed ← pick statement.children 0
      let target ← pick listed.children 3
      let member ← Surface.member outer target.node
      pure (document, [statement.kind, listed.kind, target.kind],
        member.symbol.name,
        [outer, member].map fun declaration : Declaration =>
          (plan.isKept declaration.id, surface.isStub declaration),
        (made.2.edits [2]).omitChildren)) =
        .ok ("\nexport declare namespace N const c\n\nexport \x7b \x7d\n".toList,
          [.variableStatement, .variableDeclarationList, .variableDeclaration],
          .text "b", [(true, false), (true, false)], true) := by
    cbv
  simp only [bind_eq_ok, pure_eq_ok, pick_eq_ok, Prod.mk.injEq, List.map_cons, List.map_nil,
    List.cons.injEq, and_true] at hrun
  obtain ⟨surface, hanalyze, plan, hplan, document, hrollup, entity, hentity, outer, houter,
    ⟨root, changes⟩, hchanges, statement, hstatement, listed, hlisted, target, htarget, member,
    hmember, hdocument, ⟨hstatementKind, hlistedKind, htargetKind⟩, hname,
    ⟨⟨houterKept, houterWhole⟩, hmemberKept, hmemberWhole⟩, homitted⟩ := hrun
  have hdeclares : target.kind.isDeclaration = true := by rw [htargetKind]; rfl
  have hway : Way outer root [2, 0, 3] [member] target := by
    apply Way.through hstatement (by rw [hstatementKind]; rfl)
    apply Way.through hlisted (by rw [hlistedKind]; rfl)
    exact .member htarget hdeclares hmember .here
  refine ⟨surface, plan, document, entity, outer, root, changes, target, member, hanalyze, hplan,
    hrollup, hdocument, List.mem_of_getElem? hentity, List.mem_of_getElem? houter, hchanges,
    hway, hdeclares, hname, by simp [*], fun hshown => ?_⟩
  have hstands : root.descendant? [2] = some statement := by
    simpa [Span.descendant?] using hstatement
  have hkind := hshown [2] statement (by simp) hstands homitted
  simp [hstatementKind] at hkind

end ApiSurface
