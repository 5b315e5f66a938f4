import ApiSurface.Datum.Label
import ApiSurface.Package.Import
import ApiSurface.Surface.Metadata
import ApiSurface.Tree.Node

/-!
# Module graphs

What the front end found out about one package: the parsed files, the symbols that
the package declares, the imports that feed them, which nodes are bound to which of
them, what the entry point exports, and what the documentation says about each
declaration.
-/

namespace ApiSurface

structure SymbolEntry where
  key : Datum
  localName : Datum
  declarations : List Site
  external : Bool := false

structure ImportEntry where
  key : Datum
  source : Import

structure Remark where
  id : Datum
  text : Datum
  site : Option Site := none
  exportName : Datum := .null

/-- Keys and names are kept as they were given; what they denote is looked at by the
analysis. -/
structure ModuleGraph where
  packageName : Datum
  files : List SourceFile
  symbols : List SymbolEntry := []
  imports : List ImportEntry := []
  bindings : List (Nat × Datum) := []
  exports : List (Datum × Datum) := []
  starExports : List Datum := []
  globalNames : List Label := []
  docFlags : List (Nat × DocFlags) := []
  remarks : List Remark := []
  documentation : Datum := .null
  entryPoint : Datum := .null

namespace ModuleGraph

def resolve? (graph : ModuleGraph) (node : Node) : Option Datum :=
  (graph.bindings.lookup node.id).filter fun key => !key.isNull

def flagsFor (graph : ModuleGraph) (node : Node) : DocFlags :=
  (graph.docFlags.lookup node.id).getD {}

private def baseName (path : String) : String :=
  let components :=
    (Text.splitOn '/' path.toList).filter fun part => !part.isEmpty && part ≠ ['.']
  String.ofList (components.getLast?.getD [])

private def entryPointPath (graph : ModuleGraph) : Datum :=
  graph.entryPoint.orElse
    ((graph.files.head?.map SourceFile.path).getD (.text "index.d.ts"))

def entryPointFileName (graph : ModuleGraph) : Except Fault String :=
  match graph.entryPointPath with
  | .text path => .ok (baseName path)
  | other => .error (.notAPath other)

def unscopedName (packageName : Datum) : Except Fault String := do
  let name ← packageName.asText "split"
  pure (String.ofList (Text.afterLast '/' name.toList))

def site? (graph : ModuleGraph) (key : Key) : Option Site :=
  graph.files.findSome? fun file => do
    let node ← file.root.walk.find? fun node =>
      !node.label.isNull && node.label.key? = some key
    file.site? node.id

end ModuleGraph

end ApiSurface
