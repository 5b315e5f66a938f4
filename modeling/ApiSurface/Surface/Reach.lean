import ApiSurface.Surface.Declaration
import ApiSurface.Surface.Entity

/-!
# References and reachable entities

A declaration refers to what its own nodes are bound to, leaving out the nodes of
its members and its own symbol.  A member stands for the outermost symbol around
it.  The entities of a package are what the entry point exports and everything that
can be reached from there along references.
-/

namespace ApiSurface

def Symbol.subject (symbol : Symbol) : Subject := .symbol symbol.label symbol.name

def LabelledImport.subject (entry : LabelledImport) : Subject :=
  .imported entry.label entry.source

namespace Inventory

def import? (inventory : Inventory) (key : Key) : Option LabelledImport :=
  inventory.imports.find? fun entry => entry.key = key

def lookup (inventory : Inventory) (key : Datum) : Except Fault Subject := do
  let name ← key.key
  match inventory.symbol? name, inventory.import? name with
  | some symbol, _ => pure symbol.subject
  | none, some entry => pure entry.subject
  | none, none => throw (.defect (.unknownEntity key))

def subject? (inventory : Inventory) : EntityId → Option Subject
  | .symbol key => (inventory.symbol? key).map Symbol.subject
  | .imported key => (inventory.import? key).map LabelledImport.subject

def entityIds (inventory : Inventory) : List EntityId :=
  inventory.symbols.map (fun symbol => .symbol symbol.key) ++
    inventory.imports.map fun entry => .imported entry.key

def rootOf (inventory : Inventory) (key : Key) : Key :=
  ((inventory.symbol? key).map fun symbol => symbol.root.key).getD key

/-- What a bound node stands for: an import, or the outermost symbol around the one
it is bound to. -/
def target (inventory : Inventory) (key : Datum) : Except Fault EntityId := do
  match (← inventory.lookup key).id with
  | .symbol key => pure (.symbol (inventory.rootOf key))
  | .imported key => pure (.imported key)

def collectTargets (graph : ModuleGraph) (inventory : Inventory) (own : Key) :
    List EntityId → List Node → Except Fault (List EntityId)
  | found, [] => .ok found
  | found, node :: rest =>
      match graph.resolve? node with
      | none => collectTargets graph inventory own found rest
      | some key => do
          let target ← inventory.target key
          if target = .symbol own || found.contains target then
            collectTargets graph inventory own found rest
          else collectTargets graph inventory own (found ++ [target]) rest

def referencesOf (graph : ModuleGraph) (inventory : Inventory)
    (declaration : Declaration) : Except Fault (List EntityId) :=
  collectTargets graph inventory declaration.symbol.root.key
    [] declaration.node.ownNodes

end Inventory

abbrev References := List (Nat × List EntityId)

def Inventory.references (inventory : Inventory) (graph : ModuleGraph) :
    Except Fault References :=
  inventory.allDeclarations.mapM fun declaration => do
    pure (declaration.id, ← inventory.referencesOf graph declaration)

namespace References

def of (references : References) (id : Nat) : List EntityId :=
  (references.lookup id).getD []

def outgoing (references : References) (inventory : Inventory) :
    EntityId → List EntityId
  | .symbol key =>
      (inventory.declarationsOf key).flatMap fun declaration =>
        declaration.walk.flatMap fun member => references.of member.id
  | .imported _ => []

end References

/-! ## Exports -/

def Inventory.exportTarget (inventory : Inventory) (entry : Datum × Datum) :
    Except Fault EntityId := do
  match (← inventory.lookup entry.2).id with
  | .symbol key =>
      match (inventory.symbol? key).bind Symbol.parent with
      | some _ => throw (.defect (.nestedExport entry.1))
      | none => pure (.symbol key)
  | .imported key => pure (.imported key)

/-! ## Discovery -/

/-- Visits entities depth first, each once; `unseen` are those not visited yet,
`pending` those waiting. -/
def visit (outgoing : EntityId → List EntityId) (unseen : List EntityId) :
    List EntityId → List EntityId
  | [] => []
  | id :: rest =>
      if _ : id ∈ unseen then
        id :: visit outgoing (unseen.erase id) (outgoing id ++ rest)
      else visit outgoing unseen rest
termination_by pending => (unseen.length, pending.length)
decreasing_by
  · have := List.length_pos_of_mem ‹id ∈ unseen›
    simp_wf
    left
    rw [List.length_erase_of_mem ‹id ∈ unseen›]
    omega
  · simp_wf
    right
    omega

/-- Exported entities first, in the order of the exports, then the others in the
order of the visit. -/
def discover (outgoing : EntityId → List EntityId) (all exported : List EntityId) :
    List EntityId :=
  (exported ++ visit outgoing all exported).eraseDups

end ApiSurface
