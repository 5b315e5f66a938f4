import ApiSurface.Package.Graph
import ApiSurface.Tree.Description

/-!
# Loading a dump

A dump is a map.  Its files are trees whose texts are trivia and whose maps are
nodes; the other parts of the dump address nodes by their labels.  The parts are
read in a fixed order, and the first fault ends the reading.
-/

namespace ApiSurface

/-! ## Trees -/

def nodeKindOf (datum : Datum) : Except Fault NodeKind :=
  match NodeKind.ofDatum? datum with
  | some kind => .ok kind
  | none => .error (.problem (.unsupportedKind datum))

private def Part.ofKey : Datum → Except Fault Part
  | .text value => .ok (.trivia value.toList)
  | other => .error (.problem (.invalidTreeEntry other))

mutual

def Part.ofDatum : Datum → Except Fault Part
  | .text value => .ok (.trivia value.toList)
  | .map entries => do
      let kind ← nodeKindOf ((Datum.named? "kind" entries).getD .null)
      let label := (Datum.named? "ref" entries).getD .null
      match Datum.named? "text" entries with
      | some text => pure (.node kind (some text.characters) [] label)
      | none => pure (.node kind none (← Part.ofChildren entries) label)
  | other => .error (.problem (.invalidTreeEntry other))

def Part.ofChildren : List (Datum × Datum) → Except Fault (List Part)
  | [] => .ok []
  | (.text "children", value) :: _ => Part.ofItems value
  | _ :: rest => Part.ofChildren rest

def Part.ofItems : Datum → Except Fault (List Part)
  | .list items => Part.ofList items
  | .text value => .ok (value.toList.map fun character => .trivia [character])
  | .map entries => entries.mapM fun entry => Part.ofKey entry.1
  | other => if other.present then .error (.notIterable other) else .ok []

def Part.ofList : List Datum → Except Fault (List Part)
  | [] => .ok []
  | datum :: rest => do
      let part ← Part.ofDatum datum
      let others ← Part.ofList rest
      pure (part :: others)

end

def loadFile (sources : Sources) (datum : Datum) : Except Fault Sources := do
  let path ← datum.require "path" "files"
  let parts ← Part.ofItems (datum.field "tree")
  let (sources, outcome) := sources.build path parts
  let _ ← outcome
  pure sources

/-! ## Documentation flags -/

def flagNames : List String :=
  ["release_tag", "documented", "is_sealed", "is_virtual", "is_override",
    "is_event_property", "has_deprecated_block", "is_preapproved",
    "needs_documentation"]

def unknownFlags (names : List Label) : Except Fault (List String) := do
  let unknown ←
    Label.sorted (names.filter fun name =>
      !flagNames.any fun known => name.key = .text known)
  unknown.mapM fun name =>
    match name.datum with
    | .text text => .ok text
    | other => .error (.notJoinable other)

private def loadFlags (datum : Datum) : Except Fault DocFlags := do
  let unknown ← unknownFlags (← Label.setOf (← datum.items))
  if !unknown.isEmpty then throw (.problem (.unknownFlags unknown))
  let entries ← datum.toEntries
  let flag (name : String) : Datum := (Datum.named? name entries).getD (.bool false)
  let releaseTag ← ReleaseTag.ofDatum (flag "release_tag")
  pure
    { releaseTag := releaseTag
      documented := flag "documented"
      isSealed := flag "is_sealed"
      isVirtual := flag "is_virtual"
      isOverride := flag "is_override"
      isEventProperty := flag "is_event_property"
      hasDeprecatedBlock := flag "has_deprecated_block"
      isPreapproved := flag "is_preapproved"
      needsDocumentation :=
        (Datum.named? "needs_documentation" entries).getD .null }

abbrev FlagTable := List (Nat × DocFlags)

private def loadFlagsAt (sources : Sources) (table : FlagTable)
    (entry : Datum × Datum) : Except Fault FlagTable := do
  let flags ← loadFlags entry.2
  let site ← sources.site entry.1
  pure (Entries.insert site.node.id flags table)

/-! ## Symbols, imports and remarks -/

def loadDeclaration (sources : Sources) (table : FlagTable) (datum : Datum) :
    Except Fault (Site × FlagTable) := do
  match datum with
  | .text name =>
      let site ← sources.site (.text name)
      pure (site, table)
  | other =>
      let entries ← other.toEntries
      let site ← sources.site (← (Datum.map entries).require "ref" "symbols")
      let flags := entries.filter fun entry => entry.1.key? ≠ some (.text "ref")
      if flags.isEmpty then pure (site, table)
      else pure (site, Entries.insert site.node.id (← loadFlags (.map flags)) table)

def loadDeclarations (sources : Sources) :
    FlagTable → List Datum → Except Fault (List Site × FlagTable)
  | table, [] => .ok ([], table)
  | table, datum :: rest => do
      let (site, table) ← loadDeclaration sources table datum
      let (sites, table) ← loadDeclarations sources table rest
      pure (site :: sites, table)

def loadSymbol (sources : Sources) (table : FlagTable) (datum : Datum) :
    Except Fault (SymbolEntry × FlagTable) := do
  let (declarations, table) ←
    loadDeclarations sources table (← (← datum.get "declarations").listOrEmpty)
  let table ←
    (← (← datum.get "members").mapOrEmpty).foldlM (loadFlagsAt sources) table
  let key ← datum.require "key" "symbols"
  let entry : SymbolEntry :=
    { key := key
      localName := (datum.field "local_name").orElse key
      declarations := declarations
      external := (datum.field "is_external").present }
  pure (entry, table)

def loadSymbols (sources : Sources) :
    FlagTable → List Datum → Except Fault (List SymbolEntry × FlagTable)
  | table, [] => .ok ([], table)
  | table, datum :: rest => do
      let (entry, table) ← loadSymbol sources table datum
      let (entries, table) ← loadSymbols sources table rest
      pure (entry :: entries, table)

private def loadImport (datum : Datum) : Except Fault ImportEntry := do
  let kindName ← datum.require "kind" "imports"
  let kind ←
    match ImportKind.ofDatum? kindName with
    | some kind => pure kind
    | none => throw (.problem (.unsupportedImport kindName))
  let key ← datum.require "key" "imports"
  let modulePath ← datum.require "module_path" "imports"
  pure
    { key := key
      source :=
        { kind := kind
          modulePath := modulePath
          exportName := (datum.field "export_name").orElse (.text "")
          typeOnly := (datum.field "type_only").present } }

private def loadBinding (sources : Sources) (bindings : List (Nat × Datum))
    (entry : Datum × Datum) : Except Fault (List (Nat × Datum)) := do
  let site ← sources.site entry.1
  pure (Entries.insert site.node.id entry.2 bindings)

private def loadExport (datum : Datum) : Except Fault (Datum × Datum) := do
  let name ← datum.require "name" "exports"
  pure (name, ← datum.require "key" "exports")

private def loadRemark (sources : Sources) (datum : Datum) :
    Except Fault Remark := do
  let ref ← datum.get "ref"
  let id ← datum.require "id" "messages"
  let text ← datum.require "text" "messages"
  let site ← if ref.present then (sources.site ref).map some else pure none
  pure { id, text, site, exportName := datum.field "export_name" }

/-! ## The whole dump -/

def ModuleGraph.ofDump (dump : Datum) : Except Fault ModuleGraph := do
  let package := (← dump.get "package").orElse (.map [])
  let packageName ← package.get "name"
  if !packageName.present then throw (.problem .unnamedPackage)
  let sources ← (← (dump.field "files").listOrEmpty).foldlM loadFile {}
  let globalNames ← Label.setOf (← (dump.field "global_names").listOrEmpty)
  let (symbols, docFlags) ←
    loadSymbols sources [] (← (dump.field "symbols").listOrEmpty)
  let imports ← (← (dump.field "imports").listOrEmpty).mapM loadImport
  let bindings ←
    (← (dump.field "bindings").mapOrEmpty).foldlM (loadBinding sources) []
  let docFlags ←
    (← (dump.field "doc_flags").mapOrEmpty).foldlM (loadFlagsAt sources) docFlags
  let exports ← (← (dump.field "exports").listOrEmpty).mapM loadExport
  let starExports ← (dump.field "star_exports").listOrEmpty
  let remarks ← (← (dump.field "messages").listOrEmpty).mapM (loadRemark sources)
  pure
    { packageName := packageName
      files := sources.files
      symbols := symbols
      imports := imports
      bindings := bindings
      exports := exports
      starExports := starExports
      globalNames := globalNames
      docFlags := docFlags
      remarks := remarks
      documentation := package.field "documentation"
      entryPoint := dump.field "entry_point" }

end ApiSurface
