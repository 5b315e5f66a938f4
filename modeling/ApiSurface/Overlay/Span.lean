import ApiSurface.Datum.Access
import ApiSurface.Tree.Node

/-!
# Dividing the text of a node

A span divides the text of one node into the lead before its first child, the spans
of its children, and the tail after its last child.  The gap between two siblings is
trivia; it is the separator of the deepest span that ends where the first sibling
ends.  A leaf has its whole text as lead.  Nothing is lost and nothing is counted
twice: the pieces of a well-placed tree concatenate to the text of its root.
-/

namespace ApiSurface

inductive Span where
  | mk (node : Node) (lead tail separator : Text) (children : List Span)

namespace Span

def node : Span → Node
  | .mk node _ _ _ _ => node

def lead : Span → Text
  | .mk _ lead _ _ _ => lead

def tail : Span → Text
  | .mk _ _ tail _ _ => tail

def separator : Span → Text
  | .mk _ _ _ separator _ => separator

def children : Span → List Span
  | .mk _ _ _ _ children => children

def kind (span : Span) : NodeKind := span.node.kind

end Span

/-! ## Placement -/

mutual

/-- Every child lies inside its parent and starts no earlier than the previous
sibling ends.  Faults inside a child come before the child's own. -/
def Node.checkPlacement : Node → Except Fault Unit
  | .mk kind start stop _ _ children =>
    Node.checkChildren kind start stop none children

def Node.checkChildren (kind : NodeKind) (start stop : Int)
    (previous : Option Node) : List Node → Except Fault Unit
  | [] => .ok ()
  | child :: rest => do
      Node.checkPlacement child
      if child.start < start || stop < child.stop then
        throw
          (.defect
            (.outsideParent child.kind (.int child.start) (.int child.stop) kind
            (.int start) (.int stop)))
      match previous with
      | some sibling =>
          if child.start < sibling.stop then
            throw (.defect (.overlapsSibling child.kind sibling.kind))
      | none => pure ()
      Node.checkChildren kind start stop (some child) rest

end

/-! ## Layout -/

namespace Span

def endsWithLast (node : Node) (children : List Span) : Bool :=
  match children.getLast? with
  | some last => last.node.stop == node.stop
  | none => false

mutual

def attachGap (gap : Text) : Span → Span
  | .mk node lead tail separator children =>
      if endsWithLast node children then
        .mk node lead tail separator (attachGapToLast gap children)
      else .mk node lead tail gap children

def attachGapToLast (gap : Text) : List Span → List Span
  | [] => []
  | [last] => [attachGap gap last]
  | first :: second :: rest => first :: attachGapToLast gap (second :: rest)

end

def leadOf (source : Text) (start stop : Int) : List Node → Text
  | [] => source.slice start stop
  | first :: _ => source.slice start first.start

def tailOf (source : Text) (stop : Int) (children : List Node) : Text :=
  match children.getLast? with
  | some last => source.slice last.stop stop
  | none => []

mutual

def layout (source : Text) : Node → Span
  | .mk kind start stop id label children =>
      .mk (.mk kind start stop id label children)
        (leadOf source start stop children) (tailOf source stop children) []
        (layoutAll source children)

def layoutAll (source : Text) : List Node → List Span
  | [] => []
  | [last] => [layout source last]
  | first :: second :: rest =>
      attachGap (source.slice first.stop second.start) (layout source first) ::
        layoutAll source (second :: rest)

end

def ofNode (source : Text) (node : Node) : Except Fault Span := do
  node.checkPlacement
  pure (layout source node)

/-! ## Reading the pieces back -/

mutual

def text : Span → Text
  | .mk _ lead tail separator children =>
    lead ++ textAll children ++ tail ++ separator

def textAll : List Span → Text
  | [] => []
  | span :: rest => text span ++ textAll rest

end

mutual

def lastInnerSeparator : Span → Text
  | .mk _ _ _ separator children =>
      if separator.isEmpty then lastInnerSeparatorOfLast children else separator

private def lastInnerSeparatorOfLast : List Span → Text
  | [] => []
  | [last] => lastInnerSeparator last
  | _ :: second :: rest => lastInnerSeparatorOfLast (second :: rest)

end

private def dumpPiece (name : String) (piece : Text) : Text :=
  if piece.isEmpty then [] else s!" {name}=[".toList ++ piece ++ [']']

mutual

def dump (indent : Text) : Span → Text
  | .mk node lead tail separator children =>
      Text.line
        (indent ++ node.kind.name.toList ++ [':'] ++ dumpPiece "pre" lead ++
          dumpPiece "suf" tail ++
        dumpPiece "sep" separator) ++ dumpAll (indent ++ [' ', ' ']) children

private def dumpAll (indent : Text) : List Span → Text
  | [] => []
  | span :: rest => dump indent span ++ dumpAll indent rest

end

def indentAt (source : Text) (position : Int) : Text :=
  let before := source.between (source.lineStart (source.offset position)) position
  if before.all fun character => character = ' ' || character = '\t' then before
  else []

end Span

/-! ## Addresses -/

/-- The way from a root span to a descendant, as positions among siblings. -/
abbrev Path := List Nat

namespace Span

def descendant? (root : Span) : Path → Option Span
  | [] => some root
  | index :: rest => do
      let child ← root.children[index]?
      child.descendant? rest

def position? (count : Nat) (number : Int) : Option Nat :=
  let position := if number < 0 then number + count else number
  if 0 ≤ position && position < count then some position.toNat else none

def follow (span : Span) : List Datum → Except Fault (Path × Span)
  | [] => .ok ([], span)
  | datum :: rest => do
      let number ← datum.position
      match position? span.children.length number with
      | none => throw .emptyList
      | some index =>
          match span.children[index]? with
          | none => throw .emptyList
          | some child =>
              let (path, found) ← child.follow rest
              pure (index :: path, found)

def ancestors (root : Span) : Path → List Span
  | [] => []
  | index :: rest =>
      match root.children[index]? with
      | some child => child.ancestors rest ++ [root]
      | none => [root]

end Span

end ApiSurface
