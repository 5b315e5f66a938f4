import ApiSurface.Overlay.Basic
import ApiSurface.Proofs.Overlay.Division

/-!
# Round trips

A text that is divided by a tree is given back by its spans.  The positions of
the tree may be those of a node or be handed over as data in a sketch; for
whole positions a sketch is checked and divided like the node.
-/

namespace ApiSurface

/-! ## Whole numbers as data -/

namespace Datum

theorem below_ofInt (first second : Int) :
    (Decimal.Exact.ofInt first).below (Decimal.Exact.ofInt second) =
      decide (first < second) := by
  simp [Decimal.Exact.below, Decimal.Exact.ofInt]

theorem ordered?_int (strict : Bool) (first second : Int) :
    ordered? strict (.int first) (.int second) =
      some (if strict then decide (first < second) else !decide (second < first)) := by
  cases strict <;>
    simp only [ordered?, isNumber, amountsOrdered, amount?, below_ofInt] <;> rfl

theorem before_int (first second : Int) :
    before (.int first) (.int second) = .ok (decide (first < second)) := by
  rw [before, ordered, ordered?_int]
  rfl

private theorem atMost_int (first second : Int) :
    atMost (.int first) (.int second) = .ok (!decide (second < first)) := by
  rw [atMost, ordered, ordered?_int]
  rfl

private theorem equals_int (first second : Int) :
    equals (.int first) (.int second) = (first == second) := by
  have hsame : equals (.int first) (.int second) =
      (Decimal.Exact.ofInt first).same (Decimal.Exact.ofInt second) := by
    simp only [equals, amount?]
  rw [hsame, Decimal.Exact.same, below_ofInt, below_ofInt, Bool.eq_iff_iff,
    Bool.and_eq_true, Bool.not_eq_true', Bool.not_eq_true', decide_eq_false_iff_not,
    decide_eq_false_iff_not, beq_iff_eq]
  omega

end Datum

/-! ## Sketches of nodes -/

namespace Node

mutual

def sketch : Node → Sketch
  | .mk kind start stop _ _ children => .mk kind (.int start) (.int stop) (sketchAll children)

def sketchAll : List Node → List Sketch
  | [] => []
  | node :: rest => sketch node :: sketchAll rest

end

theorem sketchAll_eq_map (nodes : List Node) : sketchAll nodes = nodes.map sketch := by
  induction nodes with
  | nil => rfl
  | cons node rest ih => rw [sketchAll, ih, List.map_cons]

theorem kind_sketch (node : Node) : node.sketch.kind = node.kind := by
  cases node
  rfl

theorem start_sketch (node : Node) : node.sketch.start = .int node.start := by
  cases node
  rfl

theorem stop_sketch (node : Node) : node.sketch.stop = .int node.stop := by
  cases node
  rfl

mutual

theorem checkPlacement_sketch :
    ∀ node : Node, node.sketch.checkPlacement = node.checkPlacement
  | .mk kind start stop id label children => by
      rw [sketch, Sketch.checkPlacement, checkPlacement]
      exact checkChildren_sketch kind start stop none children

theorem checkChildren_sketch (kind : NodeKind) (start stop : Int)
    (previous : Option Node) : ∀ children : List Node,
    Sketch.checkChildren kind (.int start) (.int stop) (previous.map sketch)
      (sketchAll children) = checkChildren kind start stop previous children
  | [] => rfl
  | child :: rest => by
      have hchild := checkPlacement_sketch child
      have hrest := checkChildren_sketch kind start stop (some child) rest
      rw [sketchAll, Sketch.checkChildren, checkChildren, hchild]
      cases child.checkPlacement with
      | error fault => rfl
      | ok _ =>
          simp only [start_sketch, stop_sketch, kind_sketch, Datum.before_int, bind,
            Except.bind, pure, Except.pure]
          -- Data are compared one at a time, and the second only if the first passes.
          by_cases hearly : child.start < start
          · simp only [hearly, decide_true, if_true, Bool.true_or]
            rfl
          by_cases hlate : stop < child.stop
          · simp only [hearly, hlate, decide_true, decide_false, if_true,
              Bool.false_eq_true, if_false, Bool.or_true]
            rfl
          simp only [hearly, hlate, decide_false, Bool.false_eq_true, if_false,
            Bool.or_false]
          cases previous with
          | none => exact hrest
          | some sibling =>
              simp only [Option.map_some, stop_sketch, kind_sketch, Datum.before_int,
                decide_eq_true_eq]
              split
              · rfl
              · exact hrest

end

end Node

/-! ## Dividing by a sketch -/

namespace Span

mutual

/-- The span with nodes that are cut off from their children, as sketches have
them. -/
def bare : Span → Span
  | .mk node lead tail separator children =>
      .mk (.mk node.kind node.start node.stop 0 .null []) lead tail separator
        (bareAll children)

def bareAll : List Span → List Span
  | [] => []
  | span :: rest => bare span :: bareAll rest

end

private theorem bareAll_eq_map (spans : List Span) : bareAll spans = spans.map bare := by
  induction spans with
  | nil => rfl
  | cons span rest ih => rw [bareAll, ih, List.map_cons]

mutual

theorem text_bare : ∀ span : Span, span.bare.text = span.text
  | .mk node lead tail separator children => by
      rw [bare, text, text, textAll_bareAll children]

theorem textAll_bareAll : ∀ spans : List Span, textAll (bareAll spans) = textAll spans
  | [] => rfl
  | span :: rest => by
      rw [bareAll, textAll, textAll, text_bare span, textAll_bareAll rest]

end

private theorem descendant?_bare (path : Path) (span : Span) :
    span.bare.descendant? path = (span.descendant? path).map bare := by
  induction path generalizing span with
  | nil => rfl
  | cons index rest ih =>
      have hchildren : span.bare.children[index]? = (span.children[index]?).map bare := by
        cases span
        rw [bare, children, bareAll_eq_map, List.getElem?_map]
        rfl
      rw [descendant?, descendant?, hchildren]
      cases span.children[index]? with
      | none => rfl
      | some child => exact ih child

end Span

namespace Sketch

variable {source : Text}

theorem cut_int (first last : Int) :
    cut (.text (String.ofList source)) (.int first) (.int last) =
      .ok (source.slice first last) := by
  rw [cut, Datum.atMost_int]
  by_cases h : first < last
  · simp [h, bind, Except.bind, Datum.position, pure, Except.pure]
  · simp [h, bind, Except.bind, pure, Except.pure, Text.slice, Int.not_lt.mp h]

def GapText (source : Text) (gap : Option Gap) (text : Text) : Prop :=
  gap = none ∧ text = [] ∨
    ∃ first last, gap = some ⟨.int first, .int last⟩ ∧ text = source.slice first last

private theorem gapText_gapBetween? (first second : Node) :
    GapText source (gapBetween? first.sketch second.sketch)
      (source.slice first.stop second.start) := by
  rw [gapBetween?, Node.stop_sketch, Node.start_sketch, Datum.ordered?_int]
  by_cases h : first.stop < second.start
  · exact .inr ⟨_, _, by simp [h], rfl⟩
  · exact .inl ⟨by simp [h], by simp [Text.slice, Int.not_lt.mp h]⟩

private theorem endsWithLast_sketch (kind : NodeKind) (start stop : Int)
    (children : List Node) :
    endsWithLast (.mk kind (.int start) (.int stop) (Node.sketchAll children)) =
      Span.handsDown stop children := by
  rw [endsWithLast, Sketch.children, Node.sketchAll_eq_map, List.getLast?_map,
    Span.handsDown]
  cases children.getLast? with
  | none => rfl
  | some last =>
      simp only [Option.map_some, Node.stop_sketch]
      exact Datum.equals_int last.stop stop

private theorem lead_sketch (source : Text) (kind : NodeKind) (start stop : Int)
    (children : List Node) :
    lead (.text (String.ofList source))
        (.mk kind (.int start) (.int stop) (Node.sketchAll children)) =
      .ok (Span.leadOf source start stop children) := by
  cases children with
  | nil => exact cut_int start stop
  | cons first rest =>
      rw [lead, Sketch.children, Node.sketchAll, Sketch.start]
      simp only [Node.start_sketch]
      exact cut_int start first.start

private theorem tail_sketch (source : Text) (kind : NodeKind) (start stop : Int)
    (children : List Node) :
    tail (.text (String.ofList source))
        (.mk kind (.int start) (.int stop) (Node.sketchAll children)) =
      .ok (Span.tailOf source stop children) := by
  rw [tail, Sketch.children, Node.sketchAll_eq_map, List.getLast?_map, Span.tailOf]
  cases children.getLast? with
  | none => rfl
  | some last =>
      simp only [Option.map_some, Node.stop_sketch]
      exact cut_int last.stop stop

mutual

theorem divide_sketch (source : Text) : ∀ (node : Node) (gap : Option Gap) (text : Text),
    GapText source gap text →
    (divide (.text (String.ofList source)) gap node.sketch).1 =
        (Span.layoutWith source text node).bare ∧
      ∀ path, (divide (.text (String.ofList source)) gap node.sketch).2 path = {}
  | .mk kind start stop id label children, gap, text, hgap => by
      have hends := endsWithLast_sketch kind start stop children
      have hlead := lead_sketch source kind start stop children
      have htail := tail_sketch source kind start stop children
      rw [Node.sketch, Span.layoutWith, Span.bare]
      unfold divide
      simp only [hends, hlead, htail, piece]
      cases hdown : Span.handsDown stop children with
      | true =>
          obtain ⟨hspans, hinner⟩ := divideAll_sketch source children gap text hgap
          constructor
          · simp only [if_true, hspans]
            rfl
          · intro path
            cases path with
            | nil => rfl
            | cons index path => exact hinner index path
      | false =>
          obtain ⟨hspans, hinner⟩ :=
            divideAll_sketch source children none [] (.inl ⟨rfl, rfl⟩)
          rcases hgap with ⟨rfl, rfl⟩ | ⟨first, last, rfl, rfl⟩
          all_goals
            simp only [Bool.false_eq_true, if_false, hspans, cut_int]
            refine ⟨rfl, fun path => ?_⟩
            cases path with
            | nil => rfl
            | cons index path => exact hinner index path

theorem divideAll_sketch (source : Text) :
    ∀ (nodes : List Node) (gap : Option Gap) (text : Text), GapText source gap text →
    (divideAll (.text (String.ofList source)) gap (Node.sketchAll nodes)).1 =
        Span.bareAll (Span.layoutAllWith source text nodes) ∧
      ∀ index path,
        (divideAll (.text (String.ofList source)) gap (Node.sketchAll nodes)).2 index path =
          {}
  | [], _, _, _ => ⟨rfl, fun _ _ => rfl⟩
  | [last], gap, text, hgap => by
      obtain ⟨hspan, hflaws⟩ := divide_sketch source last gap text hgap
      refine ⟨?_, fun _ => hflaws⟩
      rw [Span.layoutAllWith, Span.bareAll, Span.bareAll, ← hspan]
      rfl
  | first :: second :: rest, gap, text, hgap => by
      obtain ⟨hspan, hflaws⟩ := divide_sketch source first _ _
        (gapText_gapBetween? first second)
      obtain ⟨hspans, hothers⟩ := divideAll_sketch source (second :: rest) gap text hgap
      constructor
      · rw [Span.layoutAllWith, Span.bareAll, ← hspan, ← hspans]
        rfl
      · intro index path
        cases index with
        | zero => exact hflaws path
        | succ index => exact hothers index path

end

end Sketch

/-- A sketch with the positions of a node fails as the node does, and otherwise
has its pieces. -/
theorem Overlay.ofSketch_sketch (source : Text) (node : Node) :
    (∀ fault, Overlay.ofSketch (.text (String.ofList source)) node.sketch = .error fault ↔
      Span.ofNode source node = .error fault) ∧
    ∀ span, Span.ofNode source node = .ok span →
      ∃ overlay, Overlay.ofSketch (.text (String.ofList source)) node.sketch = .ok overlay ∧
        overlay.root = span.bare ∧ overlay.flaws = Flaws.none := by
  obtain ⟨hroot, hflaws⟩ := Sketch.divide_sketch source node none [] (.inl ⟨rfl, rfl⟩)
  rw [Overlay.ofSketch, Span.ofNode, Node.checkPlacement_sketch]
  cases node.checkPlacement with
  | error other =>
      refine ⟨fun fault => ?_, fun span hspan => ?_⟩
      · simp [bind, Except.bind]
      · cases hspan
  | ok _ =>
      refine ⟨fun fault => ?_, fun span hspan => ?_⟩
      · simp [bind, Except.bind, pure, Except.pure]
      · cases hspan
        rw [(Span.layout_eq source node).1]
        exact ⟨_, rfl, hroot, funext hflaws⟩

namespace Span

/-- Dividing a text fails exactly if a node is misplaced.  Otherwise the root
gives back its text, read directly or rendered without edits, and every span
gives back its own text with the gap behind it.  Positions in a sketch make no
difference. -/
theorem ofNode_divides {source : Text} {root : Node}
    (hordered : ∀ node ∈ root.walk, node.start ≤ node.stop)
    (hstart : 0 ≤ root.start) (hstop : root.stop ≤ source.length) :
    ((∃ defect, ofNode source root = .error (.defect defect)) ↔
      ∃ node ∈ root.walk, node.Misplaced) ∧
    (∀ fault, Overlay.ofSketch (.text (String.ofList source)) root.sketch = .error fault ↔
      ofNode source root = .error fault) ∧
    ((¬ ∃ node ∈ root.walk, node.Misplaced) →
      ∃ span, ofNode source root = .ok span ∧ span.node = root ∧
        span.text = source.between root.start root.stop ∧
        span.render Edits.none = source.between root.start root.stop ∧
        span.gapAfter = [] ∧
        (∀ path inner, span.descendant? path = some inner → Divided source inner) ∧
        ∃ overlay,
          Overlay.ofSketch (.text (String.ofList source)) root.sketch = .ok overlay ∧
          overlay.flaws = Flaws.none ∧
          overlay.root.render Edits.none = source.between root.start root.stop ∧
          ∀ path, (overlay.root.descendant? path).map Span.text =
            (span.descendant? path).map Span.text) := by
  obtain ⟨hsketchFails, hsketch⟩ := Overlay.ofSketch_sketch source root
  refine ⟨ofNode_fails_iff, hsketchFails, fun hplaced => ?_⟩
  have hfits : Fits source root :=
    ⟨fun inner hinner hmisplaced => hplaced ⟨inner, hinner, hmisplaced⟩, hordered,
      hstart, hstop⟩
  have hlaid : Laid source (layout source root) :=
    ⟨[], root, (layout_eq source root).1, hfits, by simp [Text.between]⟩
  have htext : (layout source root).text = source.between root.start root.stop := by
    rw [(layout_eq source root).1, text_layoutWith source [] root hfits, List.append_nil]
  have hspan : ofNode source root = .ok (layout source root) :=
    ofNode_of_placed hfits.placed
  obtain ⟨overlay, hoverlay, hroot, hflaws⟩ := hsketch _ hspan
  refine ⟨layout source root, hspan, ?_, htext, ?_, ?_, ?_, overlay, hoverlay, hflaws,
    ?_, ?_⟩
  · rw [(layout_eq source root).1, node_layoutWith]
  · rw [render, draw_none, htext]
  · rw [(layout_eq source root).1, gapAfter_layoutWith]
  · exact fun path inner hinner => (hlaid.descendant hinner).divided
  · rw [render, draw_none, hroot, text_bare, htext]
  · intro path
    rw [hroot, descendant?_bare, Option.map_map]
    exact congrArg (Option.map · _) (funext text_bare)

/-- The first child and the spans that end with it are followed by a gap of two
characters; the third child is empty. -/
def nestedNode : Node :=
  .mk .sourceFile 0 8 0 .null
    [.mk .functionDeclaration 0 2 1 .null
      [.mk .identifier 0 1 2 .null [],
      .mk .typeReference 1 2 3 .null [.mk .identifier 1 2 4 .null []]],
    .mk .identifier 4 6 5 .null [],
    .mk .identifier 6 6 6 .null [],
    .mk .identifier 7 8 7 .null []]

def nestedText : Text := "ab  cd e".toList

theorem ofNode_divides_nested :
    ∃ span first, ofNode nestedText nestedNode = .ok span ∧
      span.text = nestedText ∧ span.render Edits.none = nestedText ∧
      span.descendant? [0] = some first ∧ first.gapAfter = "  ".toList ∧
      Divided nestedText first := by
  have hplaced : nestedNode.Placed := by
    rcases nestedNode.checkPlacement_decides with ⟨-, h⟩ | ⟨⟨defect, hfails⟩, -⟩
    · exact h
    · cases hfails
  have hmisplaced : ¬ ∃ node ∈ nestedNode.walk, node.Misplaced := by
    rintro ⟨node, hnode, h⟩
    exact hplaced node hnode h
  obtain ⟨span, hspan, -, htext, hrender, -, hdivided, -⟩ :=
    (ofNode_divides (by decide) (by decide)
      (by decide : nestedNode.stop ≤ nestedText.length)).2.2 hmisplaced
  have hbetween : nestedText.between nestedNode.start nestedNode.stop = nestedText := by
    decide
  rw [hbetween] at htext hrender
  cases hspan.symm.trans (ofNode_of_placed hplaced)
  exact ⟨_, _, hspan, htext, hrender, rfl, by decide, hdivided [0] _ rfl⟩

end Span

end ApiSurface
