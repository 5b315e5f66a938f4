import ApiSurface.Overlay.Edit
import ApiSurface.Text.Fold

/-!
# Rendering edited spans

Children are drawn into slots, and the slots are laid out in order or sorted.  When
children are sorted, the slots without a key stay where they are and the keyed ones
trade places; a keyed child is then drawn with the separator that belongs to its new
place, which replaces the separator at its very end.
-/

namespace ApiSurface

/-- A child ready to be drawn: its sort key, the separator at its very end, and its
text for a given replacement of that separator. -/
structure Slot where
  key : Option Text
  inner : Text
  draw : Option Text → Text

namespace Slot

def foldedKey (slot : Slot) : Text := Text.fold (slot.key.getD [])

def sort (slots : List Slot) : List Slot :=
  slots.mergeSort fun first second => Text.precedes first.foldedKey second.foldedKey

/-- Draws the slots in order; only the last one can end in the separator to be
replaced. -/
def drawInOrder (override : Option Text) : List Slot → Text
  | [] => []
  | [last] => last.draw override
  | first :: second :: rest =>
    first.draw none ++ drawInOrder override (second :: rest)

/-- Draws the sorted slots into the places of the keyed ones.  Each is followed by
the separator `between`, the last by `final`. -/
def drawSorted (between final : Text) : List Slot → List Slot → Text
  | _, [] => []
  | sorted, slot :: rest =>
      match slot.key, sorted with
      | none, _ => slot.draw none ++ drawSorted between final sorted rest
      | some _, [] => drawSorted between final [] rest
      | some _, current :: others =>
          current.draw (some (if others.isEmpty then final else between)) ++
            drawSorted between final others rest

def arrange (sorted : Bool) (override : Option Text) (slots : List Slot) : Text :=
  match slots.filter (·.key.isSome) with
  | first :: second :: others =>
      if sorted then
        let keyed := first :: second :: others
        drawSorted first.inner ((keyed.getLast?.map inner).getD [])
          (sort keyed) slots
      else drawInOrder override slots
  | _ => drawInOrder override slots

end Slot

namespace Span

/-- What stands after the tail: the separator, unless it is replaced or left out.  A
replacement is written by the span that has a separator of its own, or by a leaf. -/
def closing (override : Option Text) (edit : Edit) (separator : Text)
    (isLeaf : Bool) : Text :=
  match override with
  | some replacement => if !separator.isEmpty || isLeaf then replacement else []
  | none => if edit.omitSeparator then [] else separator

mutual

def draw (edits : Edits) (override : Option Text) : Span → Text
  | .mk _ lead tail separator children =>
      let edit := edits []
      let inherited := if separator.isEmpty then override else none
      edit.lead.getD lead ++
        (if edit.omitChildren then []
          else Slot.arrange edit.sortChildren inherited (slots edits 0 children)) ++
        edit.tail.getD tail ++ closing override edit separator children.isEmpty

def slots (edits : Edits) (index : Nat) : List Span → List Slot
  | [] => []
  | child :: rest =>
      { key := (edits [index]).sortKey
        inner := child.lastInnerSeparator
        draw := fun override =>
          draw (edits.below index) override child } :: slots edits (index + 1) rest

end

def render (edits : Edits) (span : Span) : Text := span.draw edits none

end Span

end ApiSurface
