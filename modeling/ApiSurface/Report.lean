import ApiSurface.Emit.ImportType
import ApiSurface.Emit.Statement
import ApiSurface.Emit.Stub
import ApiSurface.Emit.Trail
import ApiSurface.Rollup

/-!
# Reports

A report is a Markdown file with a normalized view of every exported declaration.
Members are sorted, comments are left out, and above each declaration stand its
messages and its tags, so that a change of the surface shows up when the report is
reviewed.
-/

namespace ApiSurface.Report

open Emit

/-! ## Comment lines -/

def commentLines (content : Text) : Text :=
  (Text.lines (Text.normalizeNewlines content)).flatMap fun row =>
    Text.line ("// ".toList ++ row)

def warningLines (messages : List Message) : Text :=
  messages.flatMap fun message =>
    commentLines ("Warning: " ++ message.withoutLocation).toList

def footer (surface : Surface) (id : Nat) : Except Fault (List String) := do
  if (← surface.signature (.int id)).isAncillary then pure []
  else pure (← surface.item id).footer

def synopsis (surface : Surface) (id : Nat) (messages : List Message) :
    Except Fault Text := do
  let parts ← footer surface id
  let tags :=
    if parts.isEmpty then []
    else (if messages.isEmpty then [] else commentLines []) ++
      commentLines (" ".intercalate parts).toList
  pure (Text.normalizeNewlines (warningLines messages ++ tags))

def indentLines (indent text : Text) : Text :=
  if text.isEmpty || indent.isEmpty then text
  else Text.expandNewlines ('\n' :: indent) text

/-! ## Revising spans -/

def listsMembers (trail : Trail) (kind : NodeKind) : Bool :=
  match trail.parent? with
  | some parent =>
    kind = .syntaxList && (parent.kind.isDeclaration || parent.kind = .moduleBlock)
  | none => false

def writeVariable (entity : Entity) (declaration : Declaration) (path : Path)
    (span : Span) : Except Fault Changes := do
  let (_, keyword) ← variableList declaration.site
  let lead := (if entity.exportsInline then "export ".toList else []) ++ keyword
  pure [(path, Change.prepend lead span), (path, Change.setTail [';'])]

def introduceMember (surface : Surface) (source : Text)
    (sorted insideTypeLiteral : Bool) (parent path : Path) (span : Span)
    (member : Declaration) : Except Fault Changes := do
  let order : Changes ←
    if sorted then do
      let key ← sortKeyOf member.symbol.name
      pure [(parent, Change.sortChildren), (path, Change.setSortKey key)]
    else pure []
  if insideTypeLiteral then pure order
  else
    let messages ← surface.reviewMessages (.int member.id)
    let lines ← synopsis surface member.id messages
    let indent := Span.indentAt source span.node.start
    pure (order ++ [(path, Change.prepend (indentLines indent lines) span)])

mutual

def revise (surface : Surface) (entity : Entity) (declaration : Declaration)
    (insideTypeLiteral : Bool) (trail : Trail) : Span → Except Fault Changes
  | .mk node lead tail separator children => do
      let span : Span := .mk node lead tail separator children
      let source := declaration.site.file.text
      if declaration.isPrivate then pure [(trail.path, Change.skip)]
      else
        match node.kind with
        | .docComment => pure [(trail.path, Change.skip)]
        | .importType =>
            match ← surface.entityForNode node with
            | none => pure []
            | some imported =>
                let name ← Surface.writtenName imported
                let bounds ← argumentBounds source span
                let changes ←
                  reviseArguments surface entity declaration insideTypeLiteral trail
                    span bounds 0 none children
                let arguments ← argumentsText changes trail.path span bounds
                pure
                  (changes ++
                    replaceWhole trail.path
                      (importTypeText source imported name node arguments))
        | kind =>
            let own ←
              if kind = .exportKeyword || kind = .defaultKeyword ||
                kind = .declareKeyword then
                pure [(trail.path, Change.skip)]
              else if kind.isDeclarationKeyword then
                pure
                  (writeModifiers
                    (if entity.exportsInline then "export ".toList else []) trail
                      span)
              else if kind = .variableDeclaration && trail.above.isEmpty then
                writeVariable entity declaration trail.path span
              else if kind = .identifier then
                renameIdentifier surface trail.path node
              else pure []
            let inner ←
              reviseChildren surface entity declaration
                (insideTypeLiteral || kind = .typeLiteral)
                (listsMembers trail kind) trail span 0 none children
            pure (own ++ inner)

def reviseChildren (surface : Surface) (entity : Entity) (declaration : Declaration)
    (insideTypeLiteral sorted : Bool) (trail : Trail) (parent : Span) :
    Nat → Option Span → List Span → Except Fault Changes
  | _, _, [] => .ok []
  | index, previous, child :: rest => do
      let here := trail.child parent index previous rest.head?
      let changes ←
        if child.kind.isDeclaration then do
          let member ← Surface.member declaration child.node
          let source := declaration.site.file.text
          let intro ←
            introduceMember surface source sorted insideTypeLiteral trail.path
              here.path child member
          if (← surface.item member.id).isPreapproved then
            pure (intro ++ stub [] here.path child)
          else
            let inner ← revise surface entity member insideTypeLiteral here child
            pure (intro ++ inner)
        else revise surface entity declaration insideTypeLiteral here child
      let others ←
        reviseChildren surface entity declaration insideTypeLiteral sorted trail
          parent (index + 1) (some child) rest
      pure (changes ++ others)

def reviseArguments (surface : Surface) (entity : Entity)
    (declaration : Declaration) (insideTypeLiteral : Bool) (trail : Trail)
    (parent : Span) (bounds : Option (Nat × Nat)) :
    Nat → Option Span → List Span → Except Fault Changes
  | _, _, [] => .ok []
  | index, previous, child :: rest => do
      let here := trail.child parent index previous rest.head?
      let changes ←
        if (bounds.map fun bounds =>
          decide (bounds.1 < index && index < bounds.2)).getD false then do
          if child.kind.isDeclaration then
            let member ← Surface.member declaration child.node
            revise surface entity member insideTypeLiteral here child
          else revise surface entity declaration insideTypeLiteral here child
        else pure []
      let others ←
        reviseArguments surface entity declaration insideTypeLiteral trail parent
          bounds (index + 1) (some child) rest
      pure (changes ++ others)

end

/-! ## The document -/

/-- Messages that name one of these exports are shown at its export statement. -/
def namesExport (exports : List Label) (message : Message) : Except Fault Bool := do
  if message.exportName.present then
    pure (Label.among exports (← message.exportName.key))
  else pure false

def divideMessages (exports : List Label) :
    List Message → Except Fault (List Message × List Message)
  | [] => .ok ([], [])
  | message :: rest => do
      let named ← namesExport exports message
      let (here, later) ← divideMessages exports rest
      pure (if named then (here, message :: later) else (message :: here, later))

def declarationChanges (surface : Surface) (entity : Entity)
    (declaration : Declaration) : Except Fault (Span × Changes) := do
  let span ← Span.ofNode declaration.site.file.text declaration.node
  let changes ←
    if (← surface.item declaration.id).isPreapproved then pure (stub [] [] span)
    else revise surface entity declaration false {} span
  pure (span, changes)

def declarationText (surface : Surface) (entity : Entity) (exports : List Label)
    (declaration : Declaration) : Except Fault (Text × List Message) := do
  let (here, later) ←
    divideMessages exports (← surface.reviewMessages (.int declaration.id))
  let above ← synopsis surface declaration.id here
  let found ← surface.declaration (.int declaration.id)
  let (span, changes) ← declarationChanges surface entity found
  pure (above ++ span.render changes.edits ++ ['\n', '\n'], later)

def declarationTexts (surface : Surface) (entity : Entity) (exports : List Label) :
    List Declaration → Except Fault (Text × List Message)
  | [] => .ok ([], [])
  | declaration :: rest => do
      let (text, messages) ← declarationText surface entity exports declaration
      let (others, later) ← declarationTexts surface entity exports rest
      pure (text ++ others, messages ++ later)

def separateExports (entity : Entity) : List Label :=
  if entity.exportsInline then [] else entity.exportNames

def exportText (entity : Entity) (messages : List Message) (exportName : Label) :
    Text :=
  warningLines (messages.filter fun message =>
    message.exportName.key? = some exportName.key) ++
    exportStatement entity exportName.datum ++ Text.line []

def entityText (surface : Surface) (entity : Entity) : Except Fault Text := do
  let exports := separateExports entity
  let (text, messages) ←
    declarationTexts surface entity exports (surface.declarationsOfEntity entity)
  pure (text ++ exports.flatMap (exportText entity messages))

def entityTexts (surface : Surface) : List Entity → Except Fault Text
  | [] => .ok []
  | entity :: rest => do
      let text ← entityText surface entity
      let others ← entityTexts surface rest
      pure (text ++ others)

/-- Every piece of some entities has to be a text.  Only a name given to an entity
can be anything else. -/
def checkNames (surface : Surface) (entities : List Entity) : Except Fault Unit :=
  if surface.entities.all Entity.hasTextName then .ok ()
  else
    entities.forM fun entity =>
      (surface.declarationsOfEntity entity).forM fun declaration => do
        let (span, changes) ← declarationChanges surface entity declaration
        checkPieces span changes

def placedLines : List Message → Printing Text
  | [] => pure []
  | message :: rest => do
      let row ← message.withLocation
      let others ← placedLines rest
      pure (commentLines row.toList ++ others)

def unassociatedText (messages : List Message) : Printing Text := do
  if messages.isEmpty then pure []
  else
    let rows ← placedLines messages
    pure
      (Text.line [] ++
        commentLines "Warnings were encountered during analysis:".toList ++
          commentLines [] ++ rows)

def heading (packageName : Datum) : Text :=
  Text.line s!"## API Report File for \"{packageName.plain}\"".toList ++
    Text.line [] ++
    Text.line
      "> Do not edit this file. It is a report generated by apirollup.".toList ++
        Text.line []

def rawText (surface : Surface) : Printing Text := do
  let imports ← liftM (Rollup.importTexts surface.entities)
  let exported := surface.entities.filter Entity.exported
  let entities ← liftM (entityTexts surface exported)
  let unassociated ← unassociatedText surface.router.unassociated
  liftM (checkNames surface exported)
  let noDocumentation :=
    if surface.graph.documentation.isNull then
      Text.line [] ++
        commentLines "(No @packageDocumentation comment for this package)".toList
    else []
  pure (heading surface.graph.packageName ++ "```ts\n\n".toList ++ imports ++
    (if surface.entities.any fun entity =>
      !entity.subject.isSymbol then Text.line [] else []) ++
    entities ++ starExports surface.starExports ++ unassociated ++
      noDocumentation ++ "\n```\n".toList)

end ApiSurface.Report

namespace ApiSurface

def Surface.report (surface : Surface) (newline : Newline) : Printing Text := do
  let raw ← Report.rawText surface
  liftM (writeNewlines newline (Text.trimLineEnds (Text.normalizeNewlines raw)))

end ApiSurface
