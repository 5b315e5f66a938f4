import ApiSurface.Tree.Description

/-!
# Sketches

A sketch is a node that a caller describes with positions of its own.  The positions
may be data of any form.  They are compared where children are placed, and they have
to be whole numbers only where a text is cut.
-/

namespace ApiSurface

inductive Sketch where
  | mk (kind : NodeKind) (start stop : Datum) (children : List Sketch)

namespace Sketch

def kind : Sketch → NodeKind
  | .mk kind _ _ _ => kind

def start : Sketch → Datum
  | .mk _ start _ _ => start

def stop : Sketch → Datum
  | .mk _ _ stop _ => stop

def children : Sketch → List Sketch
  | .mk _ _ _ children => children

/-! ## Descriptions -/

private def notDescribed (datum : Datum) : Fault := .noOperation datum.shape "get"

mutual

def ofDescription : Datum → Except Fault Sketch
  | .map entries => do
      let children ← ofDescribedEntries entries
      let datum : Datum := .map entries
      let kind ← NodeKind.ofDescription datum
      let start ← datum.demand "start"
      let stop ← datum.demand "end"
      pure (.mk kind start stop children)
  | other => .error (notDescribed other)

def ofDescribedEntries : List (Datum × Datum) → Except Fault (List Sketch)
  | [] => .ok []
  | (.text "children", .list items) :: _ => ofDescribedItems items
  | (.text "children", value) :: _ =>
      match value.items with
      | .error fault => .error fault
      | .ok [] => .ok []
      | .ok (item :: _) => .error (notDescribed item)
  | _ :: rest => ofDescribedEntries rest

def ofDescribedItems : List Datum → Except Fault (List Sketch)
  | [] => .ok []
  | datum :: rest => do
      let sketch ← ofDescription datum
      let others ← ofDescribedItems rest
      pure (sketch :: others)

end

/-! ## Placement -/

mutual

def checkPlacement : Sketch → Except Fault Unit
  | .mk kind start stop children => checkChildren kind start stop none children

def checkChildren (kind : NodeKind) (start stop : Datum)
    (previous : Option Sketch) : List Sketch → Except Fault Unit
  | [] => .ok ()
  | child :: rest => do
      checkPlacement child
      let early ← child.start.before start
      let outside ← if early then pure true else stop.before child.stop
      if outside then
        throw
          (.defect
            (.outsideParent child.kind child.start child.stop kind start stop))
      match previous with
      | some sibling =>
          if ← child.start.before sibling.stop then
            throw (.defect (.overlapsSibling child.kind sibling.kind))
      | none => pure ()
      checkChildren kind start stop (some child) rest

end

/-! ## Looking down -/

def descendant? (sketch : Sketch) : List Nat → Option Sketch
  | [] => some sketch
  | index :: rest => do
      let child ← sketch.children[index]?
      child.descendant? rest

end Sketch

end ApiSurface
