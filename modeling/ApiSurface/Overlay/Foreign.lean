import ApiSurface.Overlay.Basic
import ApiSurface.Overlay.Render

/-!
# Pieces that are no texts

A caller may hand over a lead, a tail or a sort key that is no text, and positions
between which no text lies.  That is a fault only when the span in question is
written: first when its pieces are gathered and its children sorted, then when the
pieces are put together.
-/

namespace ApiSurface

namespace Given

def sortFault? (given : Given) : Option Fault :=
  if given.sortKey.isNull then none
  else some (.noOperation given.sortKey.shape "casefold")

def joinFault? (given : Given) : Option Fault :=
  if !given.lead.isNull then some (.notJoinable given.lead)
  else if !given.tail.isNull then some (.notJoinable given.tail)
  else none

end Given

namespace Edit

def writtenLead (edit : Edit) (flaw : Flaw) (span : Span) : Except Fault Datum :=
  match edit.lead, flaw.lead with
  | none, some fault => .error fault
  | _, _ => .ok (edit.leadForm span)

def writtenTail (edit : Edit) (flaw : Flaw) (span : Span) : Except Fault Datum :=
  match edit.tail, flaw.tail with
  | none, some fault => .error fault
  | _, _ => .ok (edit.tailForm span)

end Edit

namespace Span

def keyedPositions (edits : Edits) (count : Nat) : List Nat :=
  (List.range count).filter fun index => (edits [index]).sortKey.isSome

def innerFlawAmong? (flaws : Flaws) (position : Option Nat) (index : Nat) :
    List Span → Option Fault
  | [] => none
  | child :: rest =>
      if position = some index then innerFlaw? (flaws.below index) child
      else innerFlawAmong? flaws position (index + 1) rest

mutual

/-- The first fault of going through a span: a piece that is missing, or children
that cannot be sorted.  The separator of a span is looked at unless it is left out,
and always where it would be replaced. -/
def passFault? (edits : Edits) (flaws : Flaws) (replaced : Bool) :
    Span → Option Fault
  | .mk _ _ _ separator children =>
      let edit := edits []
      let flaw := flaws []
      let keyed := keyedPositions edits children.length
      let inside : Option Fault :=
        if edit.omitChildren then none
        else if edit.sortChildren && 1 < keyed.length then
          (innerFlawAmong? flaws keyed.head? 0 children).or <|
            (innerFlawAmong? flaws keyed.getLast? 0 children).or <|
              (keyed.findSome? fun index => (edits [index]).given.sortFault?).or <|
                passFaultSorted? edits flaws 0 children
        else
          passFaultAmong? edits flaws (if replaced then flaw.separator else none)
            (replaced && separator.isEmpty) 0
            children
      (if edit.lead.isNone then flaw.lead else none).or <| inside.or <|
        (if edit.tail.isNone then flaw.tail else none).or <|
          if replaced || !edit.omitSeparator then flaw.separator else none

/-- Children in order; `own` is the fault of looking at the parent's separator,
which happens before the last child. -/
def passFaultAmong? (edits : Edits) (flaws : Flaws) (own : Option Fault)
    (replaced : Bool) (index : Nat) : List Span → Option Fault
  | [] => none
  | [last] =>
    own.or (passFault? (edits.below index) (flaws.below index) replaced last)
  | first :: second :: rest =>
      (passFault? (edits.below index) (flaws.below index) false first).or
        (passFaultAmong? edits flaws own replaced (index + 1) (second :: rest))

def passFaultSorted? (edits : Edits) (flaws : Flaws) (index : Nat) :
    List Span → Option Fault
  | [] => none
  | child :: rest =>
      (passFault? (edits.below index) (flaws.below index)
        (edits [index]).sortKey.isSome child).or
        (passFaultSorted? edits flaws (index + 1) rest)

end

mutual

def joinFault? (edits : Edits) : Span → Option Fault
  | .mk _ _ _ _ children =>
      (edits []).given.joinFault?.or
        (if (edits []).omitChildren then none else joinFaultAmong? edits 0 children)

def joinFaultAmong? (edits : Edits) (index : Nat) : List Span → Option Fault
  | [] => none
  | child :: rest =>
    (joinFault? (edits.below index) child).or
      (joinFaultAmong? edits (index + 1) rest)

end

def writeFault? (edits : Edits) (flaws : Flaws) (span : Span) : Option Fault :=
  (span.passFault? edits flaws false).or (span.joinFault? edits)

end Span

def Overlay.renderAt (overlay : Overlay) (edits : Edits) (path : Path)
    (span : Span) : Except Fault Text :=
  granted (span.writeFault? (edits.within path) (overlay.flaws.within path))
    (span.render (edits.within path))

end ApiSurface
