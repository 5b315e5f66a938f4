/-!
# Untyped data

Front-end dumps and settings files are nested data whose shape nothing guarantees.
A `Datum` is such a value; maps keep their keys in the order of first insertion.
-/

namespace ApiSurface

inductive Datum where
  | null
  | bool (value : Bool)
  | int (value : Int)
  | real (value : Float)
  | text (value : String)
  | list (items : List Datum)
  | map (entries : List (Datum × Datum))
  deriving Inhabited

namespace Datum

def present : Datum → Bool
  | .null => false
  | .bool value => value
  | .int value => value != 0
  | .real value => !(value == 0.0)
  | .text value => !value.isEmpty
  | .list items => !items.isEmpty
  | .map entries => !entries.isEmpty

def isNull : Datum → Bool
  | .null => true
  | _ => false

def shape : Datum → String
  | .null => "NoneType"
  | .bool _ => "bool"
  | .int _ => "int"
  | .real _ => "float"
  | .text _ => "str"
  | .list _ => "list"
  | .map _ => "dict"

def orElse (datum fallback : Datum) : Datum :=
  if datum.present then datum else fallback

def record (entries : List (String × Datum)) : Datum :=
  .map (entries.map fun entry => (.text entry.1, entry.2))

def named? (name : String) : List (Datum × Datum) → Option Datum
  | [] => none
  | (.text key, value) :: rest =>
    if key = name then some value else named? name rest
  | _ :: rest => named? name rest

/-- The value under a key of a map; `null` for a missing key and for anything that
is no map. -/
def field (datum : Datum) (key : String) : Datum :=
  match datum with
  | .map entries => (named? key entries).getD .null
  | _ => .null

end Datum

/-! ## Tables with keys in insertion order -/

namespace Entries

variable {α β : Type} [BEq α]

def insert (key : α) (value : β) : List (α × β) → List (α × β)
  | [] => [(key, value)]
  | entry :: rest =>
      if entry.1 == key then (entry.1, value) :: rest
      else entry :: insert key value rest

def merge (entries additions : List (α × β)) : List (α × β) :=
  additions.foldl (fun merged entry => insert entry.1 entry.2 merged) entries

def erase (key : α) (entries : List (α × β)) : List (α × β) :=
  entries.filter fun entry => !(entry.1 == key)

end Entries

end ApiSurface
