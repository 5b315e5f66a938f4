import ApiSurface.Tree.Sources

/-!
# Descriptions of trees

Callers describe trees as data.  A part is a text, which is trivia, or a map with a
kind and with a text or parts of its own.
-/

namespace ApiSurface

namespace NodeKind

def ofDatum? : Datum → Option NodeKind
  | .text name => NodeKind.ofName? name
  | _ => none

def ofDatum (datum : Datum) : Except Fault NodeKind :=
  match ofDatum? datum with
  | some kind => .ok kind
  | none => .error (.problem (.notAMember datum "SyntaxKind"))

def ofDescription (datum : Datum) : Except Fault NodeKind :=
  do ofDatum (← datum.demand "kind")

end NodeKind

/-! ## Parts -/

namespace Part

/-- A node with a content: null stands for none, and anything else than a text is
taken as it is. -/
private def described (kind : NodeKind) (content : Datum) (parts : List Part)
    (label : Datum) : Part :=
  match content with
  | .null => .node kind none parts label
  | .text text => .node kind (some text.toList) parts label
  | other => .foreign kind other parts label

private def ofDescribedKey : Datum → Except Fault Part
  | .text value => .ok (.trivia value.toList)
  | other => .error (.notIndexed other)

mutual

def ofDescription : Datum → Except Fault Part
  | .text value => .ok (.trivia value.toList)
  | .map entries => do
      let kind ← NodeKind.ofDescription (.map entries)
      let parts ← ofDescribedEntries entries
      pure (described kind ((Datum.named? "text" entries).getD .null) parts
        ((Datum.named? "ref" entries).getD .null))
  | other => .error (.notIndexed other)

def ofDescribedEntries : List (Datum × Datum) → Except Fault (List Part)
  | [] => .ok []
  | (.text "parts", value) :: _ => ofDescriptions value
  | _ :: rest => ofDescribedEntries rest

def ofDescriptions : Datum → Except Fault (List Part)
  | .list items => ofDescribedItems items
  | .text value => .ok (value.toList.map fun character => .trivia [character])
  | .map entries => entries.mapM fun entry => ofDescribedKey entry.1
  | other => .error (.notIterable other)

def ofDescribedItems : List Datum → Except Fault (List Part)
  | [] => .ok []
  | datum :: rest => do
      let part ← ofDescription datum
      let others ← ofDescribedItems rest
      pure (part :: others)

end

end Part

end ApiSurface
