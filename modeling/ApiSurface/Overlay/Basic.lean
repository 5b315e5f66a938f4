import ApiSurface.Overlay.Span
import ApiSurface.Tree.Sketch

/-!
# Overlays

An overlay is a span with what its node leaves open.  A node of a file has whole
positions, and every piece of its span is a text.  A sketch may have positions
between which nothing can be cut; then a piece is missing, which is a fault only
where the piece is asked for.
-/

namespace ApiSurface

structure Flaw where
  lead : Option Fault := none
  tail : Option Fault := none
  separator : Option Fault := none

abbrev Flaws := Path → Flaw

namespace Flaws

def none : Flaws := fun _ => {}

def below (flaws : Flaws) (index : Nat) : Flaws := fun path => flaws (index :: path)

def within (flaws : Flaws) (path : Path) : Flaws :=
  fun inner => flaws (path ++ inner)

end Flaws

/-! ## Dividing a text by a sketch -/

structure Gap where
  start : Datum
  stop : Datum

namespace Sketch

def cut (source start stop : Datum) : Except Fault Text := do
  if ← stop.atMost start then pure []
  else
    match source with
    | .text text =>
      pure (Text.slice text.toList (← start.position) (← stop.position))
    | other => throw (.notIndexed other)

def lead (source : Datum) (sketch : Sketch) : Except Fault Text :=
  match sketch.children with
  | [] => cut source sketch.start sketch.stop
  | first :: _ => cut source sketch.start first.start

def tail (source : Datum) (sketch : Sketch) : Except Fault Text :=
  match sketch.children.getLast? with
  | some last => cut source last.stop sketch.stop
  | none => .ok []

def endsWithLast (sketch : Sketch) : Bool :=
  match sketch.children.getLast? with
  | some last => last.stop.equals sketch.stop
  | none => false

def gapBetween? (first second : Sketch) : Option Gap :=
  if first.stop.ordered? true second.start = some true then
    some ⟨first.stop, second.start⟩
  else none

/-- The node of a sketch by itself; a position that is no whole number stands for
the start of the text. -/
def leaf (kind : NodeKind) (start stop : Datum) : Node :=
  .mk kind (start.position.toOption.getD 0) (stop.position.toOption.getD 0) 0 .null
    []

def piece : Except Fault Text → Text × Option Fault
  | .ok text => (text, none)
  | .error fault => ([], some fault)

mutual

/-- The span of a sketch with its flaws.  The gap after the sketch goes to the
deepest span that ends where the sketch ends. -/
def divide (source : Datum) (gap : Option Gap) : Sketch → Span × Flaws
  | .mk kind start stop children =>
      let sketch : Sketch := .mk kind start stop children
      let handsDown := sketch.endsWithLast
      let (spans, inner) :=
        divideAll source (if handsDown then gap else none) children
      let (lead, leadFault) := piece (sketch.lead source)
      let (tail, tailFault) := piece (sketch.tail source)
      let (separator, separatorFault) :=
        match handsDown, gap with
        | false, some gap => piece (cut source gap.start gap.stop)
        | _, _ => ([], none)
      let flaw : Flaw :=
        { lead := leadFault, tail := tailFault, separator := separatorFault }
      (.mk (leaf kind start stop) lead tail separator spans,
        fun
        | [] => flaw
        | index :: path => inner index path)

def divideAll (source : Datum) (gap : Option Gap) :
    List Sketch → List Span × (Nat → Flaws)
  | [] => ([], fun _ => Flaws.none)
  | [last] =>
      let (span, flaws) := divide source gap last
      ([span], fun _ => flaws)
  | first :: second :: rest =>
      let (span, flaws) := divide source (gapBetween? first second) first
      let (spans, others) := divideAll source gap (second :: rest)
      (span :: spans,
        fun
        | 0 => flaws
        | index + 1 => others index)

end

end Sketch

/-! ## Overlays -/

structure Overlay where
  source : Datum
  root : Span
  start : Path → Datum
  stop : Path → Datum
  flaws : Flaws

namespace Overlay

def ofNode (source : Text) (node : Node) : Except Fault Overlay := do
  let root ← Span.ofNode source node
  let form (position : Node → Int) (path : Path) : Datum :=
    ((root.descendant? path).map fun span => .int (position span.node)).getD .null
  pure
    { source := .text (String.ofList source)
      root := root
      start := form Node.start
      stop := form Node.stop
      flaws := Flaws.none }

def ofSketch (source : Datum) (sketch : Sketch) : Except Fault Overlay := do
  sketch.checkPlacement
  let (root, flaws) := sketch.divide source none
  let form (position : Sketch → Datum) (path : Path) : Datum :=
    ((sketch.descendant? path).map position).getD .null
  pure { source := source, root :=
    root, start := form Sketch.start, stop := form Sketch.stop, flaws := flaws }

def enclosing? (overlay : Overlay) (kind : NodeKind) (path : Path) : Option Path :=
  ((List.range path.length).reverse.map path.take).find? fun above =>
    (overlay.root.descendant? above).any fun span => span.kind = kind

end Overlay

/-! ## Asking for pieces -/

namespace Span

mutual

private def flaw? (flaws : Flaws) : Span → Option Fault
  | .mk _ _ _ _ children =>
      (flaws []).lead.or
        ((flawAmong? flaws 0 children).or ((flaws []).tail.or (flaws []).separator))

private def flawAmong? (flaws : Flaws) (index : Nat) : List Span → Option Fault
  | [] => none
  | child :: rest =>
    (flaw? (flaws.below index) child).or (flawAmong? flaws (index + 1) rest)

end

mutual

def innerFlaw? (flaws : Flaws) : Span → Option Fault
  | .mk _ _ _ separator children =>
      (flaws []).separator.or
        (if separator.isEmpty then innerFlawOfLast? flaws 0 children else none)

def innerFlawOfLast? (flaws : Flaws) (index : Nat) : List Span → Option Fault
  | [] => none
  | [last] => innerFlaw? (flaws.below index) last
  | _ :: second :: rest => innerFlawOfLast? flaws (index + 1) (second :: rest)

end

end Span

namespace Overlay

def granted {α : Type} (fault : Option Fault) (value : α) : Except Fault α :=
  match fault with
  | some fault => .error fault
  | none => .ok value

def textAt (overlay : Overlay) (path : Path) (span : Span) : Except Fault Text :=
  granted (span.flaw? (overlay.flaws.within path)) span.text

def dumpAt (overlay : Overlay) (path : Path) (span : Span) (indent : Text) :
    Except Fault Text :=
  granted (span.flaw? (overlay.flaws.within path)) (span.dump indent)

structure Pieces where
  lead : Text
  tail : Text
  separator : Text
  lastInnerSeparator : Text

def piecesAt (overlay : Overlay) (path : Path) (span : Span) :
    Except Fault Pieces :=
  let flaw := overlay.flaws path
  granted
    (flaw.lead.or (flaw.tail.or (span.innerFlaw? (overlay.flaws.within path))))
    { lead := span.lead
      tail := span.tail
      separator := span.separator
      lastInnerSeparator := span.lastInnerSeparator }

def indentAt (overlay : Overlay) (path : Path) : Except Fault Text := do
  let source ← overlay.source.asText "rfind"
  pure (Span.indentAt source.toList (← (overlay.start path).position))

end Overlay

end ApiSurface
