import ApiSurface.Surface.Basic

/-!
# The entity table

The entities of a surface as data, to be looked at when names come out other than
expected.
-/

namespace ApiSurface.Surface

def declarationRow (surface : Surface) (declaration : Declaration) :
    Except Fault Datum := do
  let tag := (← surface.item declaration.id).effectiveTag
  pure (.record
    [("kind", .text declaration.kind.name),
      ("release_tag", .text tag.shown),
      ("text", .text (String.ofList declaration.site.text))])

def entityDetail (surface : Surface) : Subject → Except Fault (String × Datum)
  | .symbol label _ => do
      let outermost :=
        (Declaration.walkAll (surface.declarationsOf label.key)).filter
          (·.parent.isNone)
      pure ("declarations", .list (← outermost.mapM surface.declarationRow))
  | .imported _ source =>
      .ok ("import", .record
        [("kind", .text source.kind.name),
          ("module_path", source.modulePath),
          ("export_name", source.exportName)])

def entityRow (surface : Surface) (entity : Entity) : Except Fault Datum := do
  let localName ← entity.localName
  let detail ← surface.entityDetail entity.subject
  pure (.record
    [("name_for_emit", entity.name),
      ("local_name", localName),
      ("export_names", .list (entity.exportNames.map Label.datum)),
      ("inline_export", .bool entity.exportsInline),
      detail])

def entityTable (surface : Surface) : Except Fault Datum := do
  let rows ← surface.entities.mapM surface.entityRow
  pure (.record
    [("package", surface.graph.packageName),
      ("entities", .list rows),
      ("star_exports", .list (surface.starExports.map Label.datum))])

end ApiSurface.Surface
