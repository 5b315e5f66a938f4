import ApiSurface.Overlay.Foreign
import ApiSurface.Overlay.Render
import ApiSurface.Surface.Basic
import ApiSurface.Text.Blank

/-!
# Import types

`import("module").Outer.Inner<Arguments>` is written as the name of the import, the
rest of its qualifier, and its arguments.  The arguments stand between the first
pair of angle brackets.
-/

namespace ApiSurface.Emit

def argumentBounds (source : Text) (span : Span) :
    Except Fault (Option (Nat × Nat)) :=
  let kinds := span.children.map Span.kind
  if kinds.contains .lessThanToken || kinds.contains .greaterThanToken ||
    kinds.contains .syntaxList then
    match kinds.idxOf? .lessThanToken, kinds.idxOf? .greaterThanToken with
    | some less, some greater =>
        if less < greater then .ok (some (less, greater))
        else .error (.defect (.invalidTypeArguments (span.node.text source)))
    | _, _ => .error (.defect (.invalidTypeArguments (span.node.text source)))
  else .ok none

def trimmedText (edits : Edits) (span : Span) : Except Fault Text :=
  match span.joinFault? edits with
  | some fault => .error fault
  | none => .ok (Text.trim (span.render edits))

def trimmedTexts (edits : Edits) (path : Path) :
    Nat → List Span → Except Fault (List Text)
  | _, [] => .ok []
  | index, span :: rest => do
      let here ←
        if span.kind = .commaToken then pure []
        else do pure [← trimmedText (edits.within (path ++ [index])) span]
      let others ← trimmedTexts edits path (index + 1) rest
      pure (here ++ others)

def argumentTexts (edits : Edits) (path : Path) (bounds : Nat × Nat) :
    Nat → List Span → Except Fault (List Text)
  | _, [] => .ok []
  | index, span :: rest => do
      let here ←
        if bounds.1 < index && index < bounds.2 then
          if span.kind = .syntaxList then
            trimmedTexts edits (path ++ [index]) 0 span.children
          else trimmedTexts edits path index [span]
        else pure []
      let others ← argumentTexts edits path bounds (index + 1) rest
      pure (here ++ others)

def argumentsText (changes : Changes) (path : Path) (span : Span) :
    Option (Nat × Nat) → Except Fault Text
  | none => .ok []
  | some bounds => do
      let texts ← argumentTexts changes.edits path bounds 0 span.children
      pure (['<'] ++ Text.join [',', ' '] texts ++ ['>'])

/-- The rest of the qualifier from its first dot on; only the top name of the chain
is imported. -/
def nestedQualifier (source : Text) (node : Node) : Text :=
  match (node.findChild? .qualifiedName).or (node.findChild? .identifier) with
  | some qualifier => (qualifier.text source).dropWhile (· ≠ '.')
  | none => []

def importTypeText (source : Text) (entity : Entity) (name : Datum) (node : Node)
    (arguments : Text) : Text :=
  match entity.subject with
  | .imported _ origin =>
      if origin.kind = .importType && origin.exportName.present then
        name.characters ++ nestedQualifier source node ++ arguments
      else name.characters ++ arguments
  | .symbol _ _ => name.characters ++ arguments

def replaceWhole (path : Path) (text : Text) : Changes :=
  [(path, Change.skip), (path, Change.setLead text)]

end ApiSurface.Emit
