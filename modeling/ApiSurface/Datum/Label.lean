import ApiSurface.Datum.Access

/-!
# Labels

Dumps name nodes, symbols and exports by scalars.  A label keeps the scalar as it
was given, for messages and documents, together with its key, which tells labels
apart.
-/

namespace ApiSurface

structure Label where
  datum : Datum
  key : Key

namespace Label

def ofDatum (datum : Datum) : Except Fault Label := do
  pure { datum := datum, key := ← datum.key }

def ofText (text : String) : Label := { datum := .text text, key := .text text }

def plain (label : Label) : String := label.datum.plain

def among (labels : List Label) (key : Key) : Bool :=
  labels.any fun label => label.key = key

/-- Adds a label to a set in the order of insertion; the first form of a label
stays. -/
def insert (labels : List Label) (label : Label) : List Label :=
  if among labels label.key then labels else labels ++ [label]

def setOf (items : List Datum) : Except Fault (List Label) := do
  pure ((← items.mapM ofDatum).foldl insert [])

private def checkOrdered : List Label → Except Fault Unit
  | first :: second :: rest =>
      match first.datum, second.datum with
      | .text _, .text _ => checkOrdered (second :: rest)
      | .bool _, .bool _ | .bool _, .int _ | .bool _, .real _ | .int _, .bool _
        | .int _, .int _ | .int _, .real _
      | .real _, .bool _ | .real _, .int _ | .real _, .real _ =>
        checkOrdered (second :: rest)
      | left, right => .error (.wrongShape
          ("'<' not supported between instances of '" ++ right.shape ++ "' and '" ++
            left.shape ++ "'"))
  | _ => .ok ()

def sorted (labels : List Label) : Except Fault (List Label) := do
  checkOrdered labels
  pure (labels.mergeSort fun first second =>
    second.datum.ordered? true first.datum != some true)

end Label

end ApiSurface
