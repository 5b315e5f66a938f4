import ApiSurface.Datum.Access
import ApiSurface.Text.WordChar

/-!
# Imports

What a package takes from another module.  The export name is the imported name, the
local namespace for star and equals imports, and for import types a possibly dotted
chain of names.  Only the chain of an import type has to be a text; everywhere else
names and paths are written as they were given.
-/

namespace ApiSurface

inductive ImportKind where
  | default
  | named
  | star
  | equals
  | importType
  deriving DecidableEq, Repr

namespace ImportKind

def name : ImportKind → String
  | .default => "default"
  | .named => "named"
  | .star => "star"
  | .equals => "equals"
  | .importType => "import_type"

def all : List ImportKind := [.default, .named, .star, .equals, .importType]

def ofDatum? : Datum → Option ImportKind
  | .text name => all.find? fun kind => kind.name = name
  | _ => none

end ImportKind

structure Import where
  kind : ImportKind
  modulePath : Datum
  exportName : Datum
  typeOnly : Bool := false

namespace Import

def topName (source : Import) : Except Fault String := do
  let chain ← source.exportName.asText "split"
  pure (String.ofList (Text.beforeFirst '.' chain.toList))

/-- What the import denotes, independent of the name it is given. -/
def key (source : Import) : Except Fault String :=
  let path := source.modulePath.plain
  match source.kind with
  | .star => .ok s!"{path}:*"
  | .equals => .ok s!"{path}:="
  | .importType =>
      if source.exportName.present then
        source.topName.map fun name => s!"{path}:{name}"
      else .ok s!"{path}:*"
  | .default | .named => .ok s!"{path}:{source.exportName.plain}"

def moduleName (modulePath : String) : String :=
  let trimmed := (modulePath.toList.reverse.dropWhile (· = '/')).reverse
  match Text.wordsOnly (Text.afterLast '/' trimmed) with
  | [] => "_module"
  | name => String.ofList name

def localName (source : Import) : Except Fault Datum :=
  match source.kind with
  | .importType =>
      if source.exportName.present then source.topName.map Datum.text
      else (source.modulePath.asText "rstrip").map fun path =>
        .text (moduleName path)
  | _ => .ok source.exportName

end Import

end ApiSurface
