import ApiSurface.Datum.Basic
import ApiSurface.Decimal.Binary

/-!
# Keys and equality

A scalar can name something.  Its `Key` is what it names: equal numbers are one key
however they are written, with the truth values standing for one and zero.  Lists
and maps have no key.  `Datum.equals` is the equality of values that goes with keys.
-/

namespace ApiSurface

inductive Key where
  | null
  | whole (value : Int)
  | broken (bits : UInt64)
  | text (value : String)
  deriving DecidableEq, Repr

namespace Datum

open Decimal in
def amount? : Datum → Option Exact
  | .bool value => some (.ofInt (if value then 1 else 0))
  | .int value => some (.ofInt value)
  | .real value => Exact.ofFloat? value
  | _ => none

def key? : Datum → Option Key
  | .null => some .null
  | .bool value => some (.whole (if value then 1 else 0))
  | .int value => some (.whole value)
  | .real value =>
      match (Decimal.Exact.ofFloat? value).bind Decimal.Exact.whole? with
      | some whole => some (.whole whole)
      | none => some (.broken value.toBits)
  | .text value => some (.text value)
  | .list _ | .map _ => none

def keyed? (key : Option Key) (entries : List (Datum × Datum)) : Option Datum :=
  (entries.find? fun entry => key.isSome && entry.1.key? = key).map Prod.snd

mutual

/-- Numbers are compared by value, lists item by item, and maps without regard to
order. -/
def equals : Datum → Datum → Bool
  | .null, .null => true
  | .text first, .text second => first == second
  | .list first, .list second =>
    first.length == second.length && equalItems first second
  | .map first, .map second =>
    first.length == second.length && equalEntries first second
  | first, second =>
      match first.amount?, second.amount? with
      | some left, some right => left.same right
      | _, _ => false

private def equalItems : List Datum → List Datum → Bool
  | first :: rest, second :: others => equals first second && equalItems rest others
  | _, _ => true

private def equalEntries : List (Datum × Datum) → List (Datum × Datum) → Bool
  | [], _ => true
  | (key, value) :: rest, others =>
      (match keyed? key.key? others with
        | some other => equals value other
        | none => false) && equalEntries rest others

end

def isNumber : Datum → Bool
  | .bool _ | .int _ | .real _ => true
  | _ => false

def amountsOrdered (strict : Bool) (first second : Datum) : Bool :=
  match first.amount?, second.amount? with
  | some left, some right => if strict then left.below right else !right.below left
  | _, _ => false

mutual

def ordered? (strict : Bool) : Datum → Datum → Option Bool
  | .text first, .text second =>
    some (if strict then first < second else !(second < first))
  | .list first, .list second => itemsOrdered? strict first second
  | first, second => if first.isNumber &&
    second.isNumber then some (amountsOrdered strict first second) else none

private def itemsOrdered? (strict : Bool) : List Datum → List Datum → Option Bool
  | [], [] => some (!strict)
  | [], _ :: _ => some true
  | _ :: _, [] => some false
  | first :: rest, second :: others =>
      if first.equals second then itemsOrdered? strict rest others
      else ordered? strict first second

end

/-- Inserts an entry under the identity of its key; a key that is there keeps its
form. -/
def insertEntry (key value : Datum) : List (Datum × Datum) → List (Datum × Datum)
  | [] => [(key, value)]
  | entry :: rest =>
      if entry.1.key? = key.key? then (entry.1, value) :: rest
      else entry :: insertEntry key value rest

def mergeEntries (entries additions : List (Datum × Datum)) :
    List (Datum × Datum) :=
  additions.foldl (fun merged entry => insertEntry entry.1 entry.2 merged) entries

end Datum

end ApiSurface
