import ApiSurface.Emit.ImportType
import ApiSurface.Emit.Statement
import ApiSurface.Emit.Stub
import ApiSurface.Emit.Trail
import ApiSurface.Text.Newline
import ApiSurface.Trim

/-!
# Rollups

A rollup is one declaration file for a whole package, trimmed to a tier.  Every kept
declaration is revised: names become those of the entities, modifiers are put into a
common form, members that are not kept are taken out, and preapproved declarations
become stubs.
-/

namespace ApiSurface.Rollup

open Emit

structure Context where
  surface : Surface
  plan : TrimPlan
  omitComments : Bool

/-! ## Comments -/

/-- Letters agree without regard to case; for `k` that includes the Kelvin sign, for
`i` the dotted capital and the dotless small letter. -/
private def sameLetter (character letter : Char) : Bool :=
  character.toLower = letter || (letter = 'k' && character.toNat = 0x212A) ||
    (letter = 'i' && (character.toNat = 0x130 || character.toNat = 0x131))

private def startsTag (isDelimiter : Char → Bool) : List Char → Text → Bool
  | [], [] => false
  | [], character :: _ => isDelimiter character
  | _ :: _, [] => false
  | letter :: letters, character :: rest =>
    sameLetter character letter && startsTag isDelimiter letters rest

private def isTagDelimiter (character : Char) : Bool :=
  Text.isBlank character || character = '*'

def documentsPackage : Text → Bool
  | [] => false
  | character :: rest =>
      (isTagDelimiter character &&
        startsTag isTagDelimiter "@packagedocumentation".toList rest) ||
        documentsPackage rest

def excludedComment (name : Datum) : Text :=
  s!"/* Excluded from this release type: {name.plain} */".toList

def excludedDeclarationComment (name : Datum) : Text :=
  s!"/* Excluded declaration from this release type: {name.plain} */".toList

/-! ## Revising spans -/

def modifiers (entity : Entity) (declaration : Declaration) : Text :=
  (if entity.exportsInline then "export ".toList else []) ++
    if declaration.parent.isNone then "declare ".toList else []

def statementComment (list : Site) : Text :=
  match list.parent? with
  | some statement =>
      if statement.kind = .variableStatement then
        match statement.findChild? .docComment with
        | some comment =>
            let text := comment.text list.file.text
            if Text.endsWithLineBreak text then text else Text.line text
        | none => []
      else []
  | none => []

/-- A variable is written as a statement of its own, with the keyword of its list. -/
def writeVariable (entity : Entity) (declaration : Declaration) (path : Path)
    (span : Span) : Except Fault Changes := do
  let (list, keyword) ← variableList declaration.site
  let lead := statementComment list ++
    (if entity.exportsInline then "export ".toList else []) ++
    "declare ".toList ++ keyword
  pure [(path, Change.prepend lead span), (path, Change.setTail [';'])]

/-- Takes out a span; its last line break stays, and a comma after it goes with it. -/
def takeOut (comment : Text) (path : Path) (span : Span) (next : Option Span) :
    Changes :=
  let lineBreak := (span.children.getLast?.map Span.separator).getD []
  let comma := next.filter fun sibling => sibling.kind = .commaToken
  let rest := (comma.map Span.separator).getD []
  [(path, Change.omitChildren), (path, Change.setLead comment),
    (path, Change.setTail (lineBreak ++ rest))] ++
    if comma.isSome then [(sibling path Nat.succ, Change.skip)] else []

def trimMember (context : Context) (trail : Trail) (span : Span)
    (member : Declaration) : Changes :=
  let comment :=
    if context.omitComments then [] else excludedComment member.symbol.name
  match if span.kind = .variableDeclaration then trail.find? .variableStatement
    else none with
  | some statement => takeOut comment statement.path statement.span statement.next
  | none => takeOut comment trail.path span trail.next

mutual

def revise (context : Context) (entity : Entity) (declaration : Declaration)
    (trail : Trail) : Span → Except Fault Changes
  | .mk node lead tail separator children => do
      let span : Span := .mk node lead tail separator children
      let source := declaration.site.file.text
      match node.kind with
      | .docComment =>
          pure
            (if documentsPackage (node.text source) then [(trail.path, Change.skip)]
              else [])
      | .importType =>
          match ← context.surface.entityForNode node with
          | none => pure []
          | some imported =>
              let name ← Surface.writtenName imported
              let bounds ← argumentBounds source span
              let changes ←
                reviseArguments context entity declaration trail span bounds 0 none
                  children
              let arguments ← argumentsText changes trail.path span bounds
              pure
                (changes ++
                  replaceWhole trail.path
                    (importTypeText source imported name node arguments))
      | kind =>
          let own ←
            if kind = .exportKeyword || kind = .defaultKeyword ||
              kind = .declareKeyword then
              pure [(trail.path, Change.skip)]
            else if kind.isDeclarationKeyword then
              pure (writeModifiers (modifiers entity declaration) trail span)
            else if kind = .variableDeclaration && trail.above.isEmpty then
              writeVariable entity declaration trail.path span
            else if kind = .identifier then
              renameIdentifier context.surface trail.path node
            else pure []
          let inner ←
            reviseChildren context entity declaration trail span 0 none children
          pure (own ++ inner)

def reviseChildren (context : Context) (entity : Entity) (declaration : Declaration)
    (trail : Trail) (parent : Span) :
    Nat → Option Span → List Span → Except Fault Changes
  | _, _, [] => .ok []
  | index, previous, child :: rest => do
      let here := trail.child parent index previous rest.head?
      let changes ←
        if child.kind.isDeclaration then do
          let member ← Surface.member declaration child.node
          if !context.plan.isKept member.id then
            pure (trimMember context here child member)
          else if (← context.surface.item member.id).isPreapproved then
            pure (stub [] here.path child)
          else revise context entity member here child
        else revise context entity declaration here child
      let others ←
        reviseChildren context entity declaration trail parent (index + 1)
          (some child) rest
      pure (changes ++ others)

def reviseArguments (context : Context) (entity : Entity)
    (declaration : Declaration) (trail : Trail) (parent : Span)
    (bounds : Option (Nat × Nat)) :
    Nat → Option Span → List Span → Except Fault Changes
  | _, _, [] => .ok []
  | index, previous, child :: rest => do
      let here := trail.child parent index previous rest.head?
      let changes ←
        if (bounds.map fun bounds =>
          decide (bounds.1 < index && index < bounds.2)).getD false then do
          if child.kind.isDeclaration then
            let member ← Surface.member declaration child.node
            revise context entity member here child
          else revise context entity declaration here child
        else pure []
      let others ←
        reviseArguments context entity declaration trail parent bounds (index + 1)
          (some child) rest
      pure (changes ++ others)

end

/-! ## The document -/

def declarationChanges (context : Context) (entity : Entity)
    (declaration : Declaration) : Except Fault (Span × Changes) := do
  let span ← Span.ofNode declaration.site.file.text declaration.node
  let changes ←
    if (← context.surface.item declaration.id).isPreapproved then
      pure (stub (modifiers entity declaration) [] span)
    else revise context entity declaration {} span
  pure (span, changes)

def declarationText (context : Context) (entity : Entity)
    (declaration : Declaration) : Except Fault Text := do
  let (span, changes) ← declarationChanges context entity declaration
  pure (span.render changes.edits)

def declarationTexts (context : Context) (entity : Entity) :
    List Declaration → Except Fault Text
  | [] => .ok []
  | declaration :: rest => do
      let here ←
        if context.plan.isKept declaration.id then do
          let found ← context.surface.declaration (.int declaration.id)
          let text ← declarationText context entity found
          pure (Text.line [] ++ Text.line text)
        else if context.omitComments then pure []
        else
          pure (Text.line [] ++ Text.line (excludedDeclarationComment entity.name))
      let others ← declarationTexts context entity rest
      pure (here ++ others)

def exportStatements (entity : Entity) : Text :=
  if entity.exportsInline then []
  else entity.exportNames.flatMap fun name => exportStatement entity name.datum

def entityText (context : Context) (entity : Entity) : Except Fault Text := do
  match entity.subject with
  | .imported _ _ => pure (exportStatements entity)
  | .symbol label _ =>
      let declarations := context.surface.declarationsOf label.key
      if declarations.any fun declaration => context.plan.isKept declaration.id then
        let texts ← declarationTexts context entity declarations
        pure (texts ++ exportStatements entity)
      else if context.omitComments then pure []
      else pure (Text.line [] ++ Text.line (excludedComment entity.name))

def entityTexts (context : Context) : List Entity → Except Fault Text
  | [] => .ok []
  | entity :: rest => do
      let text ← entityText context entity
      let others ← entityTexts context rest
      pure (text ++ others)

def importTexts : List Entity → Except Fault Text
  | [] => .ok []
  | entity :: rest => do
      let here ←
        match entity.subject with
        | .imported _ source => importStatement source entity.name
        | .symbol _ _ => pure []
      let others ← importTexts rest
      pure (here ++ others)

def checkNames (context : Context) : Except Fault Unit :=
  if context.surface.entities.all Entity.hasTextName then .ok ()
  else
    context.surface.entities.forM fun entity =>
      ((context.surface.declarationsOfEntity entity).filter fun declaration =>
        context.plan.isKept declaration.id).forM fun declaration => do
          let (span, changes) ← declarationChanges context entity declaration
          checkPieces span changes

def documentationText (documentation : Datum) : Except Fault Text :=
  if !documentation.present then .ok []
  else
    match documentation with
    | .text text => .ok (Text.line text.toList ++ Text.line [])
    | other => .error (.notJoinable other)

/-- The rollup with line feeds, as far as the sources use them. -/
def text (context : Context) : Except Fault Text := do
  let surface := context.surface
  let imports ← importTexts surface.entities
  let entities ← entityTexts context surface.entities
  let documentation ← documentationText surface.graph.documentation
  checkNames context
  pure
    (documentation ++ imports ++ entities ++ starExports surface.starExports ++
      Text.line [] ++
    Text.line "export \x7b \x7d".toList)

end ApiSurface.Rollup

namespace ApiSurface

structure Newline where
  name : Datum
  native : LineEnd

def Newline.ending? (newline : Newline) : Option LineEnd :=
  match newline.name with
  | .text name => (NewlineKind.ofName? name).map (NewlineKind.ending newline.native)
  | _ => none

def writeNewlines (newline : Newline) (text : Text) : Except Fault Text :=
  match newline.ending? with
  | some ending => .ok (Text.convertNewlines ending text)
  | none => .error (.problem (.invalidNewline newline.name))

def Surface.rollup (surface : Surface) (plan : TrimPlan) (omitComments : Bool)
    (newline : Newline) : Except Fault Text := do
  writeNewlines newline (← Rollup.text ⟨surface, plan, omitComments⟩)

end ApiSurface
