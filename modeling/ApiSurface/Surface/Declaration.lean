import ApiSurface.Package.Graph

/-!
# Declarations

A symbol of the package is declared at one or more nodes.  Declarations nested in
the nodes of a declaration are its members; a member belongs to a symbol of its own,
found by the key of the outer symbol, the member's name and whether it is static.
Declarations are numbered from one in the order in which they are met, parents
before members.
-/

namespace ApiSurface

structure Symbol where
  label : Label
  name : Datum
  parent : Option Label := none
  root : Label
  external : Bool := false

def Symbol.key (symbol : Symbol) : Key := symbol.label.key

inductive Declaration where
  | mk (id : Nat) (site : Site) (symbol : Symbol) (parent : Option Nat)
    (members : List Declaration)

namespace Declaration

def id : Declaration → Nat
  | .mk id _ _ _ _ => id

def site : Declaration → Site
  | .mk _ site _ _ _ => site

def symbol : Declaration → Symbol
  | .mk _ _ symbol _ _ => symbol

def parent : Declaration → Option Nat
  | .mk _ _ _ parent _ => parent

def members : Declaration → List Declaration
  | .mk _ _ _ _ members => members

def node (declaration : Declaration) : Node := declaration.site.node

def kind (declaration : Declaration) : NodeKind := declaration.node.kind

def isPrivate (declaration : Declaration) : Bool :=
  declaration.node.modifiers.contains .privateKeyword

def isStatic (declaration : Declaration) : Bool :=
  declaration.node.modifiers.contains .staticKeyword

mutual

def walk : Declaration → List Declaration
  | .mk id site symbol parent members =>
    .mk id site symbol parent members :: walkAll members

def walkAll : List Declaration → List Declaration
  | [] => []
  | declaration :: rest => walk declaration ++ walkAll rest

end

end Declaration

/-! ## The symbol table -/

structure SymbolTable where
  symbols : List Symbol := []
  declared : List Nat := []
  count : Nat := 0

abbrev Declaring := StateT SymbolTable (Except Fault)

namespace SymbolTable

def find? (table : SymbolTable) (key : Key) : Option Symbol :=
  table.symbols.find? fun symbol => symbol.key = key

def memberLabel (owner : Symbol) (name : String) (static : Bool) : Label :=
  Label.ofText
    (owner.label.plain ++ "#" ++ name ++ if static then ":static" else "")

def memberSymbol (owner : Symbol) (name : String) (static : Bool) :
    Declaring Symbol := do
  let label := memberLabel owner name static
  let table ← get
  match table.find? label.key with
  | some symbol => pure symbol
  | none =>
      let symbol : Symbol :=
        { label := label
          name := .text name
          parent := some owner.label
          root := owner.root
          external := owner.external }
      set { table with symbols := table.symbols ++ [symbol] }
      pure symbol

def enter (symbol : Symbol) (node : Node) : Declaring Nat := do
  if !node.kind.isDeclaration then throw (.defect (.notADeclaration node.kind))
  let table ← get
  if table.declared.contains node.id then
    throw (.defect (.declaredTwice node.shown symbol.name))
  set { table with declared := node.id :: table.declared, count := table.count + 1 }
  pure (table.count + 1)

mutual

def declare (file : SourceFile) (ancestors : List Node) (symbol : Symbol)
    (parent : Option Nat) : Node → Declaring Declaration
  | .mk kind start stop id label children => do
      let node : Node := .mk kind start stop id label children
      let number ← enter symbol node
      let members ← declareMembers file (node :: ancestors) symbol number children
      pure (.mk number ⟨file, ancestors, node⟩ symbol parent members)

/-- Declares the members among some nodes and everything below them that is not
inside a member. -/
def declareMembers (file : SourceFile) (ancestors : List Node) (owner : Symbol)
    (number : Nat) : List Node → Declaring (List Declaration)
  | [] => pure []
  | .mk kind start stop id label children :: rest => do
      let node : Node := .mk kind start stop id label children
      let here ←
        if kind.isDeclaration then do
          let name ← node.declaredName file.text
          let symbol ←
            memberSymbol owner name (node.modifiers.contains .staticKeyword)
          let member ← declare file ancestors symbol (some number) node
          pure [member]
        else declareMembers file (node :: ancestors) owner number children
      let others ← declareMembers file ancestors owner number rest
      pure (here ++ others)

end

def declareSites (symbol : Symbol) : List Site → Declaring (List Declaration)
  | [] => pure []
  | site :: rest => do
      let declaration ← declare site.file site.ancestors symbol none site.node
      let others ← declareSites symbol rest
      pure (declaration :: others)

def declareSymbol (entry : SymbolEntry) : Declaring (List Declaration) := do
  let table ← get
  let label ← Label.ofDatum entry.key
  if (table.find? label.key).isSome then
    throw (.problem (.duplicateSymbol entry.key))
  let symbol : Symbol :=
    { label, name := entry.localName, root := label, external := entry.external }
  set { table with symbols := table.symbols ++ [symbol] }
  declareSites symbol entry.declarations

def declareSymbols : List SymbolEntry → Declaring (List Declaration)
  | [] => pure []
  | entry :: rest => do
      let declarations ← declareSymbol entry
      let others ← declareSymbols rest
      pure (declarations ++ others)

end SymbolTable

structure LabelledImport where
  label : Label
  source : Import

def LabelledImport.key (entry : LabelledImport) : Key := entry.label.key

/-- The imports with their labels; none has that of a symbol or of an earlier
import. -/
def labelImports (table : SymbolTable) :
    List Label → List ImportEntry → Except Fault (List LabelledImport)
  | _, [] => .ok []
  | earlier, entry :: rest => do
      let label ← Label.ofDatum entry.key
      if Label.among earlier label.key || (table.find? label.key).isSome then
        throw (.problem (.duplicateEntity entry.key))
      let others ← labelImports table (label :: earlier) rest
      pure ({ label := label, source := entry.source } :: others)

structure Inventory where
  symbols : List Symbol
  declarations : List Declaration
  imports : List LabelledImport

namespace Inventory

def ofGraph (graph : ModuleGraph) : Except Fault Inventory := do
  let (declarations, table) ← (SymbolTable.declareSymbols graph.symbols).run {}
  let imports ← labelImports table [] graph.imports
  pure { symbols := table.symbols, declarations, imports }

def allDeclarations (inventory : Inventory) : List Declaration :=
  Declaration.walkAll inventory.declarations

def symbol? (inventory : Inventory) (key : Key) : Option Symbol :=
  inventory.symbols.find? fun symbol => symbol.key = key

def declarationsOf (inventory : Inventory) (key : Key) : List Declaration :=
  inventory.allDeclarations.filter fun declaration => declaration.symbol.key = key

def declaration? (inventory : Inventory) (id : Nat) : Option Declaration :=
  inventory.allDeclarations.find? fun declaration => declaration.id = id

def declarationAt? (inventory : Inventory) (node : Node) : Option Declaration :=
  inventory.allDeclarations.find? fun declaration => declaration.node.id = node.id

end Inventory

end ApiSurface
