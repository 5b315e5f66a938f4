import ApiSurface.Overlay.Render
import ApiSurface.Proofs.Overlay.Placement

/-!
# Divisions lose nothing

A gap between two siblings is handed down from the first of them, level by
level, to the deepest span that ends there.  The division of a text is
described here with the gap as an argument that is passed downwards.  From this
follows what each span holds: its own text and the gap after it.
-/

namespace ApiSurface

/-! ## Pieces of a text -/

namespace Text

variable {text : Text} {first middle last : Int}

theorem between_eq_take_drop (hfirst : 0 ≤ first) (hlast : first ≤ last) :
    text.between first last =
      (text.drop first.toNat).take (last.toNat - first.toNat) := by
  have hfirstOffset : text.offset first = first.toNat := by
    simp [offset, Int.not_lt.mpr hfirst]
  have hlastOffset : text.offset last = last.toNat := by
    simp [offset, Int.not_lt.mpr (Int.le_trans hfirst hlast)]
  rw [between, hfirstOffset, hlastOffset]

private theorem between_self (hfirst : 0 ≤ first) : text.between first first = [] := by
  simp [between_eq_take_drop hfirst]

theorem slice_eq_between (hfirst : 0 ≤ first) (hlast : first ≤ last) :
    text.slice first last = text.between first last := by
  unfold slice
  split
  · rename_i hle
    rw [Int.le_antisymm hlast hle, between_self (Int.le_trans hfirst hlast)]
  · rfl

theorem between_append (hfirst : 0 ≤ first) (hmiddle : first ≤ middle)
    (hlast : middle ≤ last) :
    text.between first middle ++ text.between middle last =
      text.between first last := by
  rw [between_eq_take_drop hfirst hmiddle,
    between_eq_take_drop (Int.le_trans hfirst hmiddle) hlast,
    between_eq_take_drop hfirst (Int.le_trans hmiddle hlast)]
  have hdrop : text.drop middle.toNat =
      (text.drop first.toNat).drop (middle.toNat - first.toNat) := by
    rw [List.drop_drop]
    congr 1
    omega
  rw [hdrop, ← List.take_add]
  congr 1
  omega

theorem length_between (hfirst : 0 ≤ first) (hlast : first ≤ last)
    (hlength : last ≤ text.length) :
    ((text.between first last).length : Int) = last - first := by
  rw [between_eq_take_drop hfirst hlast, List.length_take, List.length_drop]
  omega

end Text

namespace Span

/-! ## Handing gaps down -/

def handsDown (stop : Int) (children : List Node) : Bool :=
  children.getLast?.any fun last => last.stop == stop

mutual

def layoutWith (source gap : Text) : Node → Span
  | .mk kind start stop id label children =>
      .mk (.mk kind start stop id label children) (leadOf source start stop children)
        (tailOf source stop children) (if handsDown stop children then [] else gap)
        (layoutAllWith source (if handsDown stop children then gap else []) children)

def layoutAllWith (source gap : Text) : List Node → List Span
  | [] => []
  | [last] => [layoutWith source gap last]
  | first :: second :: rest =>
      layoutWith source (source.slice first.stop second.start) first ::
        layoutAllWith source gap (second :: rest)

end

variable {source gap : Text}

theorem node_layoutWith (node : Node) : (layoutWith source gap node).node = node := by
  cases node
  rfl

theorem map_node_layoutAllWith :
    ∀ nodes : List Node, (layoutAllWith source gap nodes).map Span.node = nodes
  | [] => rfl
  | [last] => by rw [layoutAllWith, List.map_singleton, node_layoutWith]
  | first :: second :: rest => by
      rw [layoutAllWith, List.map_cons, node_layoutWith, map_node_layoutAllWith]

theorem endsWithLast_eq {node : Node} {spans : List Span} {children : List Node}
    (h : spans.map Span.node = children) :
    endsWithLast node spans = handsDown node.stop children := by
  rw [← h, handsDown, List.getLast?_map]
  unfold endsWithLast
  cases spans.getLast? <;> rfl

private theorem attachGapToLast_cons {span : Span} {spans : List Span} (h : spans ≠ []) :
    attachGapToLast gap (span :: spans) = span :: attachGapToLast gap spans := by
  cases spans with
  | nil => exact absurd rfl h
  | cons second rest => rfl

theorem layoutAllWith_ne_nil {nodes : List Node} (h : nodes ≠ []) :
    layoutAllWith source gap nodes ≠ [] := by
  intro hnil
  have hnodes : (layoutAllWith source gap nodes).map Span.node = nodes :=
    map_node_layoutAllWith nodes
  rw [hnil] at hnodes
  exact h hnodes.symm

mutual

theorem layout_eq (source : Text) : ∀ node : Node,
    layout source node = layoutWith source [] node ∧
      ∀ gap, attachGap gap (layout source node) = layoutWith source gap node
  | .mk kind start stop id label children => by
      obtain ⟨hall, hattach⟩ := layoutAll_eq source children
      have hends : endsWithLast (.mk kind start stop id label children)
          (layoutAll source children) = handsDown stop children := by
        rw [hall]
        exact endsWithLast_eq (map_node_layoutAllWith children)
      -- Both halves go through the same children, so they are proved together.
      constructor
      · rw [layout, layoutWith, ite_self, hall]
      · intro gap
        rw [layout, attachGap, hends, layoutWith]
        split
        · rw [hattach]
        · rw [hall]

theorem layoutAll_eq (source : Text) : ∀ nodes : List Node,
    layoutAll source nodes = layoutAllWith source [] nodes ∧
      ∀ gap, attachGapToLast gap (layoutAll source nodes) =
        layoutAllWith source gap nodes
  | [] => ⟨rfl, fun _ => rfl⟩
  | [last] => by
      obtain ⟨hlayout, hattach⟩ := layout_eq source last
      refine ⟨by rw [layoutAll, layoutAllWith, hlayout], fun gap => ?_⟩
      rw [layoutAll, attachGapToLast, hattach, layoutAllWith]
  | first :: second :: rest => by
      obtain ⟨-, hfirst⟩ := layout_eq source first
      obtain ⟨hall, hattach⟩ := layoutAll_eq source (second :: rest)
      refine ⟨by rw [layoutAll, layoutAllWith, hfirst, hall], fun gap => ?_⟩
      have hne : layoutAll source (second :: rest) ≠ [] := by
        rw [hall]
        exact layoutAllWith_ne_nil (by simp)
      rw [layoutAll, attachGapToLast_cons hne, hfirst, hattach, layoutAllWith]

end

/-! ## Where the gap ends up -/

mutual

/-- The span and the last spans below it, as far as they end where it ends. -/
def trailing : Span → List Span
  | .mk node lead tail separator children =>
      .mk node lead tail separator children ::
        if endsWithLast node children then trailingOfLast children else []

def trailingOfLast : List Span → List Span
  | [] => []
  | [last] => trailing last
  | _ :: second :: rest => trailingOfLast (second :: rest)

end

/-- The gap that was handed to a span, wherever below it has come to rest. -/
def gapAfter (span : Span) : Text := span.trailing.flatMap separator

def CarriedByLast (gap : Text) (spans : List Span) : Prop :=
  ∃ above carrier, spans = above ++ [carrier] ∧ carrier.separator = gap ∧
    ∀ span ∈ above, span.separator = []

mutual

theorem trailing_layoutWith (source gap : Text) :
    ∀ node : Node, CarriedByLast gap (layoutWith source gap node).trailing
  | .mk kind start stop id label children => by
      have hends : endsWithLast (.mk kind start stop id label children)
          (layoutAllWith source (if handsDown stop children then gap else []) children) =
          handsDown stop children :=
        endsWithLast_eq (map_node_layoutAllWith children)
      rw [layoutWith, trailing, hends]
      cases hdown : handsDown stop children with
      | false => exact ⟨[], _, rfl, rfl, by simp⟩
      | true =>
          have hne : children ≠ [] := by
            rintro rfl
            cases hdown
          obtain ⟨above, carrier, htrailing, hgap, habove⟩ :=
            trailingOfLast_layoutAllWith source gap children hne
          simp only [if_true, htrailing]
          exact ⟨_ :: above, carrier, rfl, hgap, List.forall_mem_cons.mpr ⟨rfl, habove⟩⟩

theorem trailingOfLast_layoutAllWith (source gap : Text) :
    ∀ nodes : List Node, nodes ≠ [] →
      CarriedByLast gap (trailingOfLast (layoutAllWith source gap nodes))
  | [], h => absurd rfl h
  | [last], _ => by
      rw [layoutAllWith, trailingOfLast]
      exact trailing_layoutWith source gap last
  | first :: second :: rest, _ => by
      have hne : layoutAllWith source gap (second :: rest) ≠ [] :=
        layoutAllWith_ne_nil (by simp)
      obtain ⟨span, spans, hspans⟩ := List.exists_cons_of_ne_nil hne
      have hrest := trailingOfLast_layoutAllWith source gap (second :: rest) (by simp)
      rw [layoutAllWith, hspans, trailingOfLast]
      rwa [hspans] at hrest

end

theorem gapAfter_layoutWith (node : Node) :
    (layoutWith source gap node).gapAfter = gap := by
  obtain ⟨above, carrier, htrailing, hgap, habove⟩ := trailing_layoutWith source gap node
  have hempty : above.flatMap separator = [] := List.flatMap_eq_nil_iff.mpr habove
  rw [gapAfter, htrailing, List.flatMap_append, hempty, List.nil_append,
    List.flatMap_singleton, hgap]

/-! ## The text of a span -/

structure Fits (source : Text) (node : Node) : Prop where
  placed : node.Placed
  ordered : ∀ inner ∈ node.walk, inner.start ≤ inner.stop
  start_nonneg : 0 ≤ node.start
  stop_le : node.stop ≤ source.length

namespace Fits

variable {node child : Node}

theorem start_le_stop (h : Fits source node) : node.start ≤ node.stop :=
  h.ordered node (Node.mem_walk_self node)

theorem inside (h : Fits source node) (hchild : child ∈ node.children) :
    node.start ≤ child.start ∧ child.stop ≤ node.stop :=
  (Node.not_misplaced_iff.mp (Node.placed_iff.mp h.placed).1).1 child hchild

theorem chain (h : Fits source node) : node.children.IsChain Node.Follows :=
  (Node.not_misplaced_iff.mp (Node.placed_iff.mp h.placed).1).2

theorem of_mem_children (h : Fits source node) (hchild : child ∈ node.children) :
    Fits source child where
  placed := (Node.placed_iff.mp h.placed).2 child hchild
  ordered := fun inner hinner =>
    h.ordered inner (Node.mem_walk_of_mem_children hchild hinner)
  start_nonneg := Int.le_trans h.start_nonneg (h.inside hchild).1
  stop_le := Int.le_trans (h.inside hchild).2 h.stop_le

end Fits

private theorem lead_append_tail {kind : NodeKind} {start stop : Int} {id : Nat}
    {label : Datum} {children : List Node} {first last : Node}
    (hfits : Fits source (.mk kind start stop id label children))
    (hfirst : children.head? = some first) (hlast : children.getLast? = some last)
    (hmiddle : first.start ≤ last.stop) :
    leadOf source start stop children ++ source.between first.start last.stop ++
      tailOf source stop children = source.between start stop := by
  have hstart : start ≤ first.start :=
    (hfits.inside (List.mem_of_mem_head? hfirst)).1
  have hstop : last.stop ≤ stop := (hfits.inside (List.mem_of_getLast? hlast)).2
  have hnonneg : 0 ≤ start := hfits.start_nonneg
  have hlead : leadOf source start stop children = source.between start first.start := by
    cases children with
    | nil => cases hfirst
    | cons head rest =>
        cases hfirst
        exact Text.slice_eq_between hnonneg hstart
  have htail : tailOf source stop children = source.between last.stop stop := by
    rw [tailOf, hlast]
    exact Text.slice_eq_between (by omega) hstop
  rw [hlead, htail, Text.between_append hnonneg hstart hmiddle,
    Text.between_append hnonneg (by omega) hstop]

mutual

theorem text_layoutWith (source gap : Text) : ∀ node : Node, Fits source node →
    (layoutWith source gap node).text =
      source.between node.start node.stop ++ gap
  | .mk kind start stop id label [], hfits => by
      have hslice : source.slice start stop = source.between start stop :=
        Text.slice_eq_between hfits.start_nonneg hfits.start_le_stop
      simp [layoutWith, layoutAllWith, text, textAll, handsDown, tailOf, leadOf, hslice,
        Node.start, Node.stop]
  | .mk kind start stop id label (child :: rest), hfits => by
      obtain ⟨last, hlast⟩ : ∃ last, (child :: rest).getLast? = some last :=
        Option.isSome_iff_exists.mp (by simp)
      obtain ⟨hmiddle, hall⟩ := textAll_layoutAllWith source
        (if handsDown stop (child :: rest) then gap else []) (child :: rest)
        (fun _ hnode => hfits.of_mem_children hnode) hfits.chain child last rfl hlast
      have hpieces := lead_append_tail hfits rfl hlast hmiddle
      rw [layoutWith, text, hall]
      cases hdown : handsDown stop (child :: rest) with
      | false =>
          change leadOf source start stop (child :: rest) ++
            (source.between child.start last.stop ++ []) ++
            tailOf source stop (child :: rest) ++ gap = source.between start stop ++ gap
          rw [List.append_nil, hpieces]
      | true =>
          -- The gap comes with the last child, behind which there is no tail.
          have hstop : last.stop = stop := by simpa [handsDown, hlast] using hdown
          have htail : tailOf source stop (child :: rest) = [] := by
            simp [tailOf, hlast, hstop, Text.slice]
          rw [htail, List.append_nil] at hpieces
          change leadOf source start stop (child :: rest) ++
            (source.between child.start last.stop ++ gap) ++
            tailOf source stop (child :: rest) ++ [] = source.between start stop ++ gap
          rw [htail, List.append_nil, List.append_nil, ← List.append_assoc, hpieces]

theorem textAll_layoutAllWith (source gap : Text) : ∀ nodes : List Node,
    (∀ node ∈ nodes, Fits source node) → nodes.IsChain Node.Follows →
    ∀ first last, nodes.head? = some first → nodes.getLast? = some last →
      first.start ≤ last.stop ∧
      textAll (layoutAllWith source gap nodes) =
        source.between first.start last.stop ++ gap
  | [], _, _, _, _, hfirst, _ => by cases hfirst
  | [node], hfits, _, _, _, hfirst, hlast => by
      cases hfirst
      cases hlast
      have hnode := hfits node (by simp)
      refine ⟨hnode.start_le_stop, ?_⟩
      rw [layoutAllWith, textAll, textAll, List.append_nil]
      exact text_layoutWith source gap node hnode
  | node :: second :: rest, hfits, hchain, _, last, hfirst, hlast => by
      cases hfirst
      obtain ⟨hnode, hothers⟩ := List.forall_mem_cons.mp hfits
      obtain ⟨hfollows, hchain⟩ := List.isChain_cons_cons.mp hchain
      obtain ⟨hle, htext⟩ := textAll_layoutAllWith source gap (second :: rest) hothers
        hchain second last rfl (by simpa using hlast)
      have hordered := hnode.start_le_stop
      have hnonneg := hnode.start_nonneg
      have hstop : node.stop ≤ second.start := hfollows
      refine ⟨by omega, ?_⟩
      rw [layoutAllWith, textAll, htext, text_layoutWith _ _ node hnode,
        Text.slice_eq_between (by omega) hstop, ← List.append_assoc,
        Text.between_append hnonneg hordered hstop,
        Text.between_append hnonneg (by omega) hle]

end

/-! ## Rendering without edits -/

mutual

theorem draw_none : ∀ span : Span, span.draw Edits.none none = span.text
  | .mk node lead tail separator children => by
      obtain ⟨hkeys, hdraw⟩ := slots_none 0 children
      -- Without keys there is nothing to sort: the slots stay where they are.
      have harrange : Slot.arrange false none (slots Edits.none 0 children) =
          textAll children := by
        rw [Slot.arrange, hkeys]
        exact hdraw
      rw [draw, ite_self, text, ← harrange]
      rfl

theorem slots_none (index : Nat) : ∀ spans : List Span,
    ((slots Edits.none index spans).filter fun slot => slot.key.isSome) = [] ∧
      Slot.drawInOrder none (slots Edits.none index spans) = textAll spans
  | [] => ⟨rfl, rfl⟩
  | [last] => by
      have hlast : last.draw (Edits.none.below index) none = last.text := draw_none last
      refine ⟨rfl, ?_⟩
      rw [slots, slots, Slot.drawInOrder, textAll, textAll, List.append_nil]
      exact hlast
  | first :: second :: rest => by
      obtain ⟨hkeys, hdraw⟩ := slots_none (index + 1) (second :: rest)
      have hfirst : first.draw (Edits.none.below index) none = first.text :=
        draw_none first
      refine ⟨hkeys, ?_⟩
      rw [textAll, ← hdraw, ← hfirst]
      rfl

end

/-! ## Spans and their siblings -/

theorem layoutAllWith_append (before : List Node) (node : Node) (after : List Node) :
    ∃ spans, spans.length = before.length ∧
      layoutAllWith source gap (before ++ node :: after) =
        spans ++ layoutAllWith source gap (node :: after) := by
  induction before with
  | nil => exact ⟨[], rfl, rfl⟩
  | cons first rest ih =>
      obtain ⟨spans, hlength, hspans⟩ := ih
      obtain ⟨next, others, hnext⟩ : ∃ next others,
          rest ++ node :: after = next :: others :=
        List.exists_cons_of_ne_nil (by simp)
      refine ⟨layoutWith source (source.slice first.stop next.start) first :: spans,
        by rw [List.length_cons, List.length_cons, hlength], ?_⟩
      rw [List.cons_append, List.cons_append, ← hspans, hnext, layoutAllWith]

theorem eq_of_layoutAllWith {nodes : List Node} {before after : List Span}
    {span : Span} (h : layoutAllWith source gap nodes = before ++ span :: after) :
    nodes = before.map Span.node ++ span.node :: after.map Span.node ∧
      span :: after = layoutAllWith source gap (span.node :: after.map Span.node) := by
  have hnodes : nodes = before.map Span.node ++ span.node :: after.map Span.node := by
    rw [← map_node_layoutAllWith nodes, h, List.map_append, List.map_cons]
  obtain ⟨spans, hlength, hspans⟩ :=
    layoutAllWith_append (before.map Span.node) span.node (after.map Span.node)
  rw [← hnodes, h] at hspans
  exact ⟨hnodes, (List.append_inj hspans (by rw [hlength, List.length_map])).2⟩

theorem eq_of_siblings {nodes : List Node} {before after : List Span}
    {first second : Span}
    (h : layoutAllWith source gap nodes = before ++ first :: second :: after) :
    first =
      layoutWith source (source.slice first.node.stop second.node.start) first.node := by
  obtain ⟨-, hspans⟩ := eq_of_layoutAllWith h
  exact (List.cons.inj hspans).1

theorem eq_of_last {nodes : List Node} {before : List Span} {last : Span}
    (h : layoutAllWith source gap nodes = before ++ [last]) :
    nodes.getLast? = some last.node ∧ last = layoutWith source gap last.node := by
  obtain ⟨hnodes, hspans⟩ := eq_of_layoutAllWith h
  exact ⟨by simp [hnodes], (List.cons.inj hspans).1⟩

/-! ## Every span of a division -/

/-- What a span of a division holds.  The gap behind it reaches up to its next
sibling; the gap behind a last child is that of the parent, if both end at the
same place. -/
structure Divided (source : Text) (span : Span) : Prop where
  nodes : span.children.map Span.node = span.node.children
  text : span.text =
    source.between span.node.start (span.node.stop + span.gapAfter.length)
  carried : CarriedByLast span.gapAfter span.trailing
  siblings : ∀ (before : List Span) (first second : Span) (after : List Span),
    span.children = before ++ first :: second :: after →
    first.node.stop + first.gapAfter.length = second.node.start
  last : ∀ (before : List Span) (last : Span), span.children = before ++ [last] →
    last.gapAfter = if last.node.stop = span.node.stop then span.gapAfter else []

/-- The span is the division of a node that fits, with the gap behind it. -/
def Laid (source : Text) (span : Span) : Prop :=
  ∃ gap node, span = layoutWith source gap node ∧ Fits source node ∧
    gap = source.between node.stop (node.stop + gap.length)

theorem children_layoutWith (node : Node) :
    (layoutWith source gap node).children =
      layoutAllWith source (if handsDown node.stop node.children then gap else [])
        node.children := by
  cases node
  rfl

theorem Fits.gap_between {node : Node} (hfits : Fits source node)
    {before after : List Node} {first second : Node}
    (h : node.children = before ++ first :: second :: after) :
    source.slice first.stop second.start = source.between first.stop second.start ∧
      first.stop + (source.slice first.stop second.start).length = second.start := by
  have hfirst := hfits.of_mem_children (by simp [h] : first ∈ node.children)
  have hsecond := hfits.of_mem_children (by simp [h] : second ∈ node.children)
  have hfollows : first.stop ≤ second.start :=
    List.isChain_iff_forall_rel_of_append_cons_cons.mp hfits.chain h
  have hnonneg : 0 ≤ first.stop :=
    Int.le_trans hfirst.start_nonneg hfirst.start_le_stop
  have hslice : source.slice first.stop second.start =
      source.between first.stop second.start :=
    Text.slice_eq_between hnonneg hfollows
  refine ⟨hslice, ?_⟩
  rw [hslice, Text.length_between hnonneg hfollows
    (Int.le_trans hsecond.start_le_stop hsecond.stop_le)]
  omega

theorem Laid.divided {span : Span} (h : Laid source span) : Divided source span := by
  obtain ⟨gap, node, rfl, hfits, hgap⟩ := h
  refine ⟨?_, ?_, ?_, ?_, ?_⟩
  · rw [children_layoutWith, map_node_layoutAllWith, node_layoutWith]
  · have happend : source.between node.start node.stop ++
        source.between node.stop (node.stop + gap.length) =
          source.between node.start (node.stop + gap.length) :=
      Text.between_append hfits.start_nonneg hfits.start_le_stop (by omega)
    rw [text_layoutWith source gap node hfits, gapAfter_layoutWith, node_layoutWith,
      ← happend, ← hgap]
  · rw [gapAfter_layoutWith]
    exact trailing_layoutWith source gap node
  · intro before first second after hchildren
    rw [children_layoutWith] at hchildren
    obtain ⟨hnodes, -⟩ := eq_of_layoutAllWith hchildren
    rw [eq_of_siblings hchildren, gapAfter_layoutWith, node_layoutWith]
    exact (hfits.gap_between hnodes).2
  · intro before last hchildren
    rw [children_layoutWith] at hchildren
    obtain ⟨hlast, heq⟩ := eq_of_last hchildren
    rw [heq, gapAfter_layoutWith, gapAfter_layoutWith, node_layoutWith, node_layoutWith]
    simp [handsDown, hlast]

theorem Laid.child {span child : Span} (h : Laid source span)
    (hchild : child ∈ span.children) : Laid source child := by
  obtain ⟨gap, node, rfl, hfits, hgap⟩ := h
  rw [children_layoutWith] at hchild
  obtain ⟨before, after, hchildren⟩ := List.append_of_mem hchild
  obtain ⟨hnodes, -⟩ := eq_of_layoutAllWith hchildren
  have hnode : Fits source child.node :=
    hfits.of_mem_children (by simp [hnodes])
  cases after with
  | nil =>
      obtain ⟨hlast, heq⟩ := eq_of_last hchildren
      refine ⟨_, child.node, heq, hnode, ?_⟩
      split
      · rename_i hdown
        have hstop : child.node.stop = node.stop := by
          simpa [handsDown, hlast] using hdown
        rw [hstop]
        exact hgap
      · simp [Text.between]
  | cons second rest =>
      obtain ⟨hslice, hlength⟩ := hfits.gap_between hnodes
      exact ⟨_, child.node, eq_of_siblings hchildren, hnode, by rw [hlength, hslice]⟩

theorem Laid.descendant {span inner : Span} {path : Path} (h : Laid source span)
    (hinner : span.descendant? path = some inner) : Laid source inner := by
  induction path generalizing span with
  | nil =>
      cases hinner
      exact h
  | cons index rest ih =>
      obtain ⟨child, hchild, hinner⟩ := Option.bind_eq_some_iff.mp hinner
      exact ih (h.child (List.mem_of_getElem? hchild)) hinner

theorem Laid.walk_subset {span inner : Span} {path : Path} (h : Laid source span)
    (hinner : span.descendant? path = some inner) : inner.node.walk ⊆ span.node.walk := by
  induction path generalizing span with
  | nil =>
      cases hinner
      exact List.Subset.refl _
  | cons index rest ih =>
      obtain ⟨child, hchild, hinner⟩ := Option.bind_eq_some_iff.mp hinner
      have hmem := List.mem_of_getElem? hchild
      have hnode : child.node ∈ span.node.children := by
        rw [← h.divided.nodes]
        exact List.mem_map_of_mem hmem
      exact fun node hwalk =>
        Node.mem_walk_of_mem_children hnode (ih (h.child hmem) hinner hwalk)

theorem laid_of_ofNode {root : Node} {span : Span} (hspan : ofNode source root = .ok span)
    (hordered : ∀ node ∈ root.walk, node.start ≤ node.stop)
    (hstart : 0 ≤ root.start) (hstop : root.stop ≤ source.length) :
    span.node = root ∧ span.gapAfter = [] ∧ Laid source span := by
  have hplaced : root.Placed := by
    rcases root.checkPlacement_decides with ⟨-, hplaced⟩ | ⟨⟨defect, hfails⟩, -⟩
    · exact hplaced
    · rw [ofNode, hfails] at hspan
      cases hspan
  rw [ofNode_of_placed hplaced, (layout_eq source root).1] at hspan
  cases hspan
  exact ⟨node_layoutWith root, gapAfter_layoutWith root,
    [], root, rfl, ⟨hplaced, hordered, hstart, hstop⟩, by simp [Text.between]⟩

end Span

end ApiSurface
