import ApiSurface.Surface.Basic

/-!
# Validation

Checks of the exported symbols that the package declares itself: that they have
release tags, that internal names start with an underscore, that the declarations of
one symbol agree, and that signatures refer only to exported symbols that are at
least as visible.
-/

namespace ApiSurface

namespace Surface

def ownItem (surface : Surface) (declaration : Declaration) :
    Except Fault ApiItem :=
  match surface.items.lookup declaration.id with
  | some item => .ok item
  | none => .error (.missingKey (.int declaration.id))

def firstDeclaration : List Declaration → Except Fault Declaration
  | [] => .error .emptyList
  | first :: _ => .ok first

private def missingReleaseTag (declaration : Declaration) (name : Datum) : Issue :=
  declaration.issue "ae-missing-release-tag"
    (s!"\"{name.plain}\" is exported by the package, but it is missing a release tag" ++
      " (@alpha, @beta, @public, or @internal)")

def checkReleaseTag (surface : Surface) (name : Datum)
    (declarations : List Declaration) : Inspecting Unit := do
  let items ←
    declarations.mapM fun declaration => liftM (surface.ownItem declaration)
  if items.all fun item => item.declaredTag = .untagged then
    let first ← firstDeclaration declarations
    record (missingReleaseTag first name)

private def missingUnderscore (declaration : Declaration) (exportName : String) :
    Issue :=
  { declaration.issue "ae-internal-missing-underscore"
      (s!"The name \"{exportName}\" should be prefixed with an underscore because the" ++
        " declaration is marked as @internal") with
    exportName := .text exportName }

def recordAll : List Issue → Inspecting Unit
  | [] => pure ()
  | issue :: rest => do
      record issue
      recordAll rest

def checkUnderscores (first : Declaration) : List Label → Inspecting Unit
  | [] => pure ()
  | name :: rest => do
      let text ← liftM (name.datum.asText "startswith")
      if text.toList.head? ≠ some '_' && text ≠ "default" then
        record (missingUnderscore first text)
      checkUnderscores first rest

def checkUnderscore (surface : Surface) (entity : Entity) (key : Key)
    (declarations : List Declaration) : Inspecting Unit := do
  if (← surface.maxReleaseTag key) = .internal then
    let first ← firstDeclaration declarations
    checkUnderscores first entity.exportNames

private def differentTag (declaration : Declaration) : Issue :=
  declaration.issue "ae-different-release-tags"
    "This symbol has another declaration with a different release tag"

def checkSameTag (surface : Surface) (expected : ReleaseTag) :
    List Declaration → Inspecting Unit
  | [] => pure ()
  | declaration :: rest => do
      if (← surface.ownItem declaration).effectiveTag ≠ expected then
        record (differentTag declaration)
      checkSameTag surface expected rest

def checkConsistency (surface : Surface) : List Declaration → Inspecting Unit
  | first :: second :: rest => do
      let expected := (← surface.ownItem first).effectiveTag
      checkSameTag surface expected (second :: rest)
  | _ => pure ()

private def incompatibleTags (declaration : Declaration) (tag : ReleaseTag)
    (referenced : Datum) (lower : ReleaseTag) : Issue :=
  declaration.issue "ae-incompatible-release-tags"
    (s!"The symbol \"{declaration.symbol.name.plain}\" is marked as {tag.shown}," ++
      s!" but its signature references \"{referenced.plain}\"" ++
      s!" which is marked as {lower.shown}")

def forgottenExport (declaration : Declaration) (name : Datum)
    (entryPoint : String) : Issue :=
  declaration.issue "ae-forgotten-export"
    s!"The symbol \"{name.plain}\" needs to be exported by the entry point {entryPoint}"

/-- Checks one reference of a declaration.  A symbol that is not exported is
reported once; `warned` are those reported before. -/
def checkReference (surface : Surface) (declaration : Declaration)
    (tag : ReleaseTag) (warned : List EntityId) (id : EntityId) :
    Inspecting (List EntityId) := do
  match id with
  | .imported _ => pure warned
  | .symbol key =>
      match surface.inventory.symbol? key with
      | none => pure warned
      | some symbol =>
          if symbol.external then pure warned
          else
            let entity := surface.entity? id
            if (entity.map Entity.exported).getD false then
              let referencedTag ← surface.maxReleaseTag key
              if referencedTag.rank < tag.rank then
                record (incompatibleTags declaration tag symbol.name referencedTag)
              pure warned
            else if warned.contains id then pure warned
            else
              let given := ((entity.map Entity.name).getD .null).orElse symbol.name
              let entryPoint ← liftM surface.graph.entryPointFileName
              record (forgottenExport declaration given entryPoint)
              pure (id :: warned)

def checkReferences (surface : Surface) (declaration : Declaration)
    (tag : ReleaseTag) : List EntityId → List EntityId → Inspecting (List EntityId)
  | warned, [] => pure warned
  | warned, id :: rest => do
      let warned ← checkReference surface declaration tag warned id
      checkReferences surface declaration tag warned rest

def checkDeclarations (surface : Surface) :
    List EntityId → List Declaration → Inspecting (List EntityId)
  | warned, [] => pure warned
  | warned, declaration :: rest => do
      let tag := (← surface.item declaration.id).effectiveTag
      let warned ←
        checkReferences surface declaration tag warned
          (surface.references.of declaration.id)
      checkDeclarations surface warned rest

def checkEntity (surface : Surface) (warned : List EntityId) (entity : Entity) :
    Inspecting (List EntityId) := do
  match entity.subject with
  | .imported _ _ => pure warned
  | .symbol label name =>
      let external :=
        ((surface.inventory.symbol? label.key).map Symbol.external).getD false
      if !entity.exported || external then pure warned
      else
        let declarations := surface.declarationsOf label.key
        checkReleaseTag surface name declarations
        checkUnderscore surface entity label.key declarations
        checkConsistency surface declarations
        checkDeclarations surface warned (Declaration.walkAll declarations)

def checkEntities (surface : Surface) :
    List EntityId → List Entity → Inspecting Unit
  | _, [] => pure ()
  | warned, entity :: rest => do
      let warned ← checkEntity surface warned entity
      checkEntities surface warned rest

end Surface

end ApiSurface
