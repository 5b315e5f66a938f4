import ApiSurface.Surface.Validation

/-!
# Analysis

From a module graph to the surface of its package.  Names are given only when all
reachable entities are known, and entities are sorted by name only when everything
has been checked.
-/

namespace ApiSurface

def resolveExport (inventory : Inventory) (entry : Datum × Datum) :
    Except Fault (Option Label × EntityId) := do
  let target ← inventory.exportTarget entry
  if entry.1.present then pure (some (← Label.ofDatum entry.1), target)
  else pure (none, target)

def collectEntities (inventory : Inventory)
    (exported : List (Option Label × EntityId)) (ids : List EntityId) :
    List Entity :=
  ids.filterMap fun id => (inventory.subject? id).map fun subject =>
    let names := (exported.filter fun entry => entry.2 = id).filterMap Prod.fst
    names.foldl Entity.addExportName { subject := subject }

private def Inventory.declarationAround? (inventory : Inventory) (site : Site) :
    Option Declaration :=
  (site.node :: site.ancestors).findSome? inventory.declarationAt?

def Inventory.remarkIssue (inventory : Inventory) (remark : Remark) : Issue :=
  { id := remark.id
    text := remark.text
    location := remark.site.map Site.location
    declaration :=
      match remark.site.bind inventory.declarationAround? with
      | some declaration => .int declaration.id
      | none => .null
    exportName := remark.exportName }

def sortEntities (entities : List Entity) : Except Fault (List Entity) :=
  sortByKey Entity.sortKey entities

def resolveEntities (graph : ModuleGraph) (inventory : Inventory)
    (references : References) : Except Fault (List Entity) := do
  let exported ← graph.exports.mapM (resolveExport inventory)
  let ids :=
    discover (references.outgoing inventory) inventory.entityIds
      (exported.map Prod.snd).eraseDups
  Naming.nameAll (graph.globalNames.map Label.key)
    (collectEntities inventory exported ids)

def inspect (graph : ModuleGraph) (inventory : Inventory) (references : References)
    (entities : List Entity) : Inspecting (Signatures × ApiItems) := do
  let signatures ← inventory.groupAccessors graph
  let items ← apiItems graph signatures [] inventory.allDeclarations
  Surface.recordAll (graph.remarks.map inventory.remarkIssue)
  let draft : Surface :=
    { graph := graph, inventory :=
      inventory, references := references, entities := entities, starExports := []
      signatures := signatures, items := items, router := {} }
  Surface.checkEntities draft [] entities
  pure (signatures, items)

def Surface.analyze (graph : ModuleGraph) (router : Router) :
    Except Fault Surface := do
  let inventory ← Inventory.ofGraph graph
  let references ← inventory.references graph
  let entities ← resolveEntities graph inventory references
  let starExports ← Label.sorted (← Label.setOf graph.starExports)
  let ((signatures, items), router) ←
    (inspect graph inventory references entities).run router
  let sorted ← sortEntities entities
  pure
    { graph := graph
      inventory := inventory
      references := references
      entities := sorted
      starExports := starExports
      signatures := signatures
      items := items
      router := router }

def Surface.blank (graph : ModuleGraph) (rules : Datum) : Surface :=
  { graph := graph
    inventory := { symbols := [], declarations := [], imports := [] }
    references := []
    entities := []
    starExports := []
    signatures := []
    items := []
    router := { rules := rules } }

/-- A package under study.  It is analyzed once; messages can be recorded before
that. -/
structure Study where
  surface : Surface
  analyzed : Bool := false

namespace Study

def start (graph : ModuleGraph) (rules : Datum) : Study :=
  { surface := .blank graph rules }

def analyze (study : Study) : Except Fault Study := do
  if study.analyzed then throw (.defect .analyzedTwice)
  let surface ← Surface.analyze study.surface.graph study.surface.router
  pure { surface, analyzed := true }

end Study

end ApiSurface
