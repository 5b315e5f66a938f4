import ApiSurface.Datum.Label
import ApiSurface.Package.Import
import ApiSurface.Text.Lower

/-!
# Entities

An entity is a symbol or an import that the documents mention.  It carries the name
under which it is written and the names under which the entry point exports it.
Names are data: they are written as they were given, but only texts can be put in
order.
-/

namespace ApiSurface

/-- Files `_name` directly after `name`: first without regard to case, then by
spelling, then by the underscore. -/
def sortKey (name : Text) : Text :=
  match name with
  | [] => []
  | '_' :: rest => Text.lower rest ++ ['*'] ++ rest ++ ['!', '_']
  | name => Text.lower name ++ ['*'] ++ name

def sortKeyOf (name : Datum) : Except Fault Text :=
  if !name.present then .ok []
  else
    match name with
    | .text text => .ok (sortKey text.toList)
    | .list _ => .error (.noOperation "list" "lower")
    | .map _ => .error (.missingKey (.int 0))
    | other => .error (.notIndexed other)

def sortByKey {α : Type} (key : α → Except Fault Text) (values : List α) :
    Except Fault (List α) := do
  let keyed ← values.mapM fun value => do pure (← key value, value)
  pure
    ((keyed.mergeSort fun first second =>
      Text.precedes first.1 second.1).map Prod.snd)

def sortNames (names : List Datum) : Except Fault (List Datum) :=
  sortByKey sortKeyOf names

inductive EntityId where
  | symbol (key : Key)
  | imported (key : Key)
  deriving DecidableEq, Repr

inductive Subject where
  | symbol (label : Label) (name : Datum)
  | imported (label : Label) (source : Import)

namespace Subject

def id : Subject → EntityId
  | .symbol label _ => .symbol label.key
  | .imported label _ => .imported label.key

def localName : Subject → Except Fault Datum
  | .symbol _ name => .ok name
  | .imported _ source => source.localName

/-- What the subject denotes: for an import the imported thing, not the label of the
import. -/
def key : Subject → Except Fault Datum
  | .symbol label _ => .ok label.datum
  | .imported _ source => source.key.map Datum.text

def isSymbol : Subject → Bool
  | .symbol _ _ => true
  | .imported _ _ => false

end Subject

structure Entity where
  subject : Subject
  name : Datum := .null
  exportNames : List Label := []

namespace Entity

def localName (entity : Entity) : Except Fault Datum := entity.subject.localName

def addExportName (entity : Entity) (exportName : Label) : Entity :=
  { entity with exportNames := Label.insert entity.exportNames exportName }

def setName (entity : Entity) (name : Datum) : Entity :=
  { entity with name := name }

def singleExportName (entity : Entity) : Datum :=
  match entity.exportNames with
  | [exportName] => exportName.datum
  | _ => .null

def exported (entity : Entity) : Bool := !entity.exportNames.isEmpty

def exportsInline (entity : Entity) : Bool :=
  let single := entity.singleExportName
  entity.subject.isSymbol && !single.isNull && !single.equals (.text "default") &&
    (entity.name.isNull || entity.name.equals single)

def sortKey (entity : Entity) : Except Fault Text := sortKeyOf entity.name

def hasTextName (entity : Entity) : Bool :=
  match entity.name with
  | .text _ => true
  | other => !other.present

def nameText (entity : Entity) : String := entity.name.plain

def shown (entity : Entity) : Except Fault String := do
  let localName ← entity.localName
  let exportNames :=
    ", ".intercalate (entity.exportNames.map fun name => name.datum.shown)
  pure
    ("CollectorEntity(" ++ localName.shown ++ ", name_for_emit=" ++
      entity.name.shown ++ ", exports=[" ++
    exportNames ++ "])")

end Entity

end ApiSurface
