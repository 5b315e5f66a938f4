import ApiSurface.Datum.Key
import ApiSurface.Fault

/-!
# Taking data apart

Each operation asks for a shape and faults on the others.  Lists, texts and maps can
be walked through: a text by its characters, a map by its keys.
-/

namespace ApiSurface.Datum

def key (datum : Datum) : Except Fault Key :=
  match datum.key? with
  | some key => .ok key
  | none => .error (.noKey datum)

def get (datum : Datum) (key : String) : Except Fault Datum :=
  match datum with
  | .map entries => .ok ((named? key entries).getD .null)
  | other => .error (.noOperation other.shape "get")

def demand (datum : Datum) (key : String) : Except Fault Datum :=
  match datum with
  | .map entries =>
      match named? key entries with
      | some value => .ok value
      | none => .error (.missingKey (.text key))
  | other => .error (.notIndexed other)

def fieldOr (datum : Datum) (key : String) (fallback : Datum) : Datum :=
  match datum with
  | .map entries => (named? key entries).getD fallback
  | _ => fallback

def entries (datum : Datum) : Except Fault (List (Datum × Datum)) :=
  match datum with
  | .map entries => .ok entries
  | other => .error (.noOperation other.shape "items")

def items (datum : Datum) : Except Fault (List Datum) :=
  match datum with
  | .list items => .ok items
  | .text value =>
    .ok (value.toList.map fun character => .text (String.singleton character))
  | .map entries => .ok (entries.map Prod.fst)
  | other => .error (.notIterable other)

def listOrEmpty (datum : Datum) : Except Fault (List Datum) :=
  (datum.orElse (.list [])).items

def mapOrEmpty (datum : Datum) : Except Fault (List (Datum × Datum)) :=
  (datum.orElse (.map [])).entries

def size (datum : Datum) : Except Fault Nat :=
  match datum with
  | .list items => .ok items.length
  | .text content => .ok content.length
  | .map entries => .ok entries.length
  | other =>
    .error (.wrongShape ("object of type '" ++ other.shape ++ "' has no len()"))

def position (datum : Datum) : Except Fault Int :=
  match datum with
  | .int value => .ok value
  | .bool value => .ok (if value then 1 else 0)
  | other =>
    .error (.wrongShape ("indices must be integers or slices, not " ++ other.shape))

def ordered (strict : Bool) (first second : Datum) : Except Fault Bool :=
  match first.ordered? strict second with
  | some answer => .ok answer
  | none => .error (.wrongShape ((if strict then "'<'" else "'<='") ++
      " not supported between instances of '" ++ first.shape ++ "' and '" ++
        second.shape ++ "'"))

def before (first second : Datum) : Except Fault Bool := ordered true first second

def atMost (first second : Datum) : Except Fault Bool := ordered false first second

private def double? : Datum → Option Float
  | .bool value => some (if value then 1.0 else 0.0)
  | .int value => some (Float.ofInt value)
  | .real value => some value
  | _ => none

private def plusDouble (first second : Datum) (left right : Float) :
    Except Fault Datum :=
  let isBeyond (datum : Datum) (double : Float) : Bool :=
    match datum with
    | .int _ => double.isInf
    | _ => false
  if isBeyond first left || isBeyond second right then
    .error (.overflow "int too large to convert to float")
  else .ok (.real (left + right))

def plus (first second : Datum) : Except Fault Datum :=
  match first, second with
  | .text start, .text rest => .ok (.text (start ++ rest))
  | .list start, .list rest => .ok (.list (start ++ rest))
  | _, _ =>
      match first.position, second.position, first.double?, second.double? with
      | .ok left, .ok right, _, _ => .ok (.int (left + right))
      | _, _, some left, some right => plusDouble first second left right
      | _, _, _, _ => .error (.wrongShape
          ("unsupported operand type(s) for +: '" ++ first.shape ++ "' and '" ++
            second.shape ++ "'"))

def pairAt (index : Nat) (datum : Datum) : Except Fault (Datum × Datum) :=
  match datum.items with
  | .error _ =>
      .error
        (.wrongShape
          s!"cannot convert dictionary update sequence element #{index} to a sequence")
  | .ok [key, value] => do
      let _ ← key.key
      pure (key, value)
  | .ok items => .error (.problem (.notPairs index items.length))

def pairsFrom : Nat → List Datum → Except Fault (List (Datum × Datum))
  | _, [] => .ok []
  | index, datum :: rest => do
      let entry ← pairAt index datum
      let others ← pairsFrom (index + 1) rest
      pure (entry :: others)

def toEntries (datum : Datum) : Except Fault (List (Datum × Datum)) :=
  match datum with
  | .map entries => .ok entries
  | other => do
      let pairs ← pairsFrom 0 (← other.items)
      pure (mergeEntries [] pairs)

def require (datum : Datum) (key part : String) : Except Fault Datum :=
  let missing : Except Fault Datum :=
    .error (.problem (.missingEntry part key datum))
  match datum with
  | .map entries =>
      match named? key entries with
      | none | some .null => missing
      | some (.text value) => if value.isEmpty then missing else .ok (.text value)
      | some value => .ok value
  | _ => missing

def knownEntries (known : List String) (entries : List (Datum × Datum)) :
    Except Fault (List (Datum × Datum)) :=
  match entries.find? fun entry =>
    !known.any fun name => entry.1.key? = some (.text name) with
  | some entry =>
    .error (.wrongShape ("got an unexpected keyword argument " ++ entry.1.shown))
  | none => .ok entries

def asText (operation : String) : Datum → Except Fault String
  | .text value => .ok value
  | other => .error (.noOperation other.shape operation)

end ApiSurface.Datum
