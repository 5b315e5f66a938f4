import ApiSurface.Proofs.Overlay.Arrangement
import ApiSurface.Proofs.Overlay.Division
import ApiSurface.Proofs.Overlay.Writable

/-!
# Sorted children

In a tree where trivia lies only between nodes, a node ends where its last child
ends, and the separator of a span stands at its very end, however deep.  Children
that are sorted are then written with their own texts, one in each place, and with
the separators of the places.
-/

namespace ApiSurface

/-- Every node of the tree that has children ends where the last of them ends. -/
def Node.Flush (node : Node) : Prop :=
  ∀ inner ∈ node.walk, ∀ last ∈ inner.children.getLast?, last.stop = inner.stop

theorem Node.Flush.of_mem_children {node child : Node} (h : node.Flush)
    (hchild : child ∈ node.children) : child.Flush :=
  fun inner hinner => h inner (mem_walk_of_mem_children hchild hinner)

def Edits.sorting (keys : Nat → Option Text) : Edits
  | [] => { sortChildren := true }
  | [index] => { sortKey := keys index }
  | _ => {}

namespace SortKeys

variable (keys : Nat → Option Text)

/-- An order of children, each with its position in the tree.  All children are
there, those without a key in their places, and the others as they are filed. -/
structure Arranged (children : List Span) (order : List (Span × Nat)) : Prop where
  perm : order.Perm children.zipIdx
  unkeyed : ∀ index child, children[index]? = some child → keys index = none →
    order[index]? = some (child, index)
  filed : (order.filter fun entry => (keys entry.2).isSome).Pairwise fun first second =>
    FiledBefore keys first.2 second.2

/-- The separator that belongs to a place with a key: that of the first keyed child
if another such place follows, and that of the last one otherwise. -/
def separatorAt (children : List Span) (place : Nat) : Text :=
  let keyed := keyedChildren keys children
  let later := (children.zipIdx.drop (place + 1)).filter fun entry => (keys entry.2).isSome
  let owner := if later.isEmpty then keyed.getLast? else keyed.head?
  (owner.map fun entry => entry.1.lastInnerSeparator).getD []

/-- What stands in a place: a child without a key as it is, or the text of a member
with the separator of the place. -/
def placeText (source : Text) (children : List Span) (entry : (Span × Nat) × Nat) : Text :=
  if (keys entry.1.2).isSome then
    source.between entry.1.1.node.start entry.1.1.node.stop ++ separatorAt keys children entry.2
  else entry.1.1.text

end SortKeys

namespace Span

/-! ## Replacing the last separator -/

variable {source gap : Text}

theorem arrange_slots_none (override : Option Text) (start : Nat) (spans : List Span) :
    Slot.arrange false override (slots Edits.none start spans) =
      Slot.drawInOrder override (slots Edits.none start spans) := by
  unfold Slot.arrange
  split <;> rfl

theorem handsDown_of_flush {node : Node} (h : node.Flush) (hchildren : node.children ≠ []) :
    handsDown node.stop node.children = true := by
  have hlast := List.getLast?_eq_some_getLast hchildren
  simp [handsDown, hlast, h node (Node.mem_walk_self node) _ hlast]

mutual

theorem draw_some_layoutWith (source gap replacement : Text) : ∀ node : Node, node.Flush →
    (layoutWith source gap node).draw Edits.none (some replacement) =
      (layoutWith source replacement node).text
  | .mk kind start stop id label [], _ => by
      simp [layoutWith, layoutAllWith, draw, slots, Slot.arrange, Slot.drawInOrder, closing, text,
        textAll, handsDown, Edits.none]
  | .mk kind start stop id label (child :: rest), hflush => by
      have hdown : handsDown stop (child :: rest) = true :=
        handsDown_of_flush hflush (List.cons_ne_nil child rest)
      have hne : (layoutAllWith source gap (child :: rest)).isEmpty = false := by
        simpa using layoutAllWith_ne_nil (List.cons_ne_nil child rest)
      have hchildren := drawInOrder_layoutAllWith source gap replacement 0 (child :: rest)
        fun _ hnode => hflush.of_mem_children hnode
      -- The span has no separator of its own, so the replacement goes to the last child.
      rw [← arrange_slots_none] at hchildren
      simp only [layoutWith, hdown, if_true, draw, text, closing, hne, ← hchildren]
      rfl

theorem drawInOrder_layoutAllWith (source gap replacement : Text) (start : Nat) :
    ∀ nodes : List Node, (∀ node ∈ nodes, node.Flush) →
      Slot.drawInOrder (some replacement)
          (slots Edits.none start (layoutAllWith source gap nodes)) =
        textAll (layoutAllWith source replacement nodes)
  | [], _ => rfl
  | [last], hflush => by
      have hlast := draw_some_layoutWith source gap replacement last (hflush last (by simp))
      rw [layoutAllWith, layoutAllWith, textAll, textAll, List.append_nil, ← hlast]
      rfl
  | first :: second :: rest, hflush => by
      have hfirst : (layoutWith source (source.slice first.stop second.start) first).draw
          (Edits.none.below start) none =
          (layoutWith source (source.slice first.stop second.start) first).text := draw_none _
      have hrest := drawInOrder_layoutAllWith source gap replacement (start + 1) (second :: rest)
        fun node hnode => hflush node (List.mem_cons_of_mem first hnode)
      rw [layoutAllWith, layoutAllWith, textAll, ← hrest, ← hfirst]
      obtain ⟨span, spans, hspans⟩ := List.exists_cons_of_ne_nil
        (layoutAllWith_ne_nil (List.cons_ne_nil second rest) : layoutAllWith source gap _ ≠ [])
      rw [hspans]
      rfl

end

/-! ## The text of sorted children -/

section Sorted

variable {keys : Nat → Option Text}

private theorem draw_below_sorting (override : Option Text) (index : Nat) (child : Span) :
    child.draw ((Edits.sorting keys).below index) override = child.draw Edits.none override := by
  have hbelow : ∀ inner, ((Edits.sorting keys).below index).below inner = Edits.none.below inner :=
    fun _ => rfl
  rw [draw_eq, draw_eq, slots_congr hbelow]
  rfl

theorem keyed_sorting (entries : List (Span × Nat)) :
    Slot.keyed (slotOf (Edits.sorting keys)) entries =
      entries.filter fun entry => (keys entry.2).isSome :=
  rfl

variable {children : List Span}

theorem sorts_sorting (h : 1 < (SortKeys.keyedChildren keys children).length) :
    Slot.sorts (slotOf (Edits.sorting keys)) true children.zipIdx = true := by
  rw [Slot.sorts, keyed_sorting, Bool.true_and]
  exact decide_eq_true h

def sortedOrder (keys : Nat → Option Text) (children : List Span) : List (Span × Nat) :=
  (Slot.arrangement (slotOf (Edits.sorting keys)) true none children.zipIdx).map Prod.fst

theorem arranged_sortedOrder (h : 1 < (SortKeys.keyedChildren keys children).length) :
    SortKeys.Arranged keys children (sortedOrder keys children) := by
  have hsorts := sorts_sorting h
  have hperm := Slot.arrangement_perm (slotOf (Edits.sorting keys)) true none children.zipIdx
  refine ⟨hperm, ?_, ?_⟩
  · intro index child hchild hkey
    have hlength : index < (sortedOrder keys children).length := by
      rw [sortedOrder, hperm.length_eq, List.length_zipIdx]
      exact (List.getElem?_eq_some_iff.mp hchild).1
    rw [sortedOrder, List.length_map] at hlength
    obtain ⟨item, hitem, hplace⟩ :=
      Slot.getElem?_arrangement hsorts (List.getElem?_eq_getElem hlength)
    obtain rfl : (child, index) = item := by
      simpa [List.getElem?_zipIdx, hchild] using hitem
    have hunkeyed : (slotOf (Edits.sorting keys) (child, index)).key = none := hkey
    rw [hunkeyed] at hplace
    simp only [Option.isSome_none, Bool.false_eq_true, if_false] at hplace
    rw [sortedOrder, List.getElem?_map, List.getElem?_eq_getElem hlength, hplace]
    rfl
  · have hkeyed := Slot.keyed_arrangement none hsorts
    rw [keyed_sorting] at hkeyed
    rw [sortedOrder, hkeyed]
    exact Slot.sortKeyed_stable (slotOf (Edits.sorting keys)) (pairwise_zipIdx children)

private theorem arrange_sorting (h : 1 < (SortKeys.keyedChildren keys children).length)
    (hdraw : ∀ child ∈ children, ∀ replacement, child.draw Edits.none (some replacement) =
      source.between child.node.start child.node.stop ++ replacement) :
    Slot.arrange true none (slots (Edits.sorting keys) 0 children) =
      (sortedOrder keys children).zipIdx.flatMap (SortKeys.placeText keys source children) := by
  have hsorts := sorts_sorting h
  have hentries := List.zipIdx_map_fst 0
    (Slot.arrangement (slotOf (Edits.sorting keys)) true none children.zipIdx)
  rw [slots_eq, Slot.arrange_map, sortedOrder, List.zipIdx_map, List.flatMap_map]
  conv_lhs => rw [← hentries]
  rw [List.flatMap_map]
  refine List.flatMap_congr fun placed hplaced => ?_
  obtain ⟨⟨⟨child, index⟩, own⟩, place⟩ := placed
  have hplaced := List.mk_mem_zipIdx_iff_getElem?.mp hplaced
  have hchild : child ∈ children := by
    have hmem := (Slot.arrangement_perm _ true none children.zipIdx).mem_iff.mp
      (List.mem_map_of_mem (f := Prod.fst) (List.mem_of_getElem? hplaced))
    exact List.fst_mem_of_mem_zipIdx hmem
  obtain ⟨item, hitem, hplace⟩ := Slot.getElem?_arrangement hsorts hplaced
  change child.draw ((Edits.sorting keys).below index) own =
    SortKeys.placeText keys source children ((child, index), place)
  rw [draw_below_sorting]
  split at hplace
  · obtain ⟨hkey, rfl⟩ : (keys index).isSome = true ∧
        own = some (SortKeys.separatorAt keys children place) := hplace
    rw [hdraw child hchild, SortKeys.placeText, if_pos hkey]
  · rename_i hkey
    obtain ⟨rfl, rfl⟩ := Prod.mk.inj hplace
    have hunkeyed : ¬ (keys index).isSome = true := hkey
    rw [draw_none, SortKeys.placeText, if_neg hunkeyed]

theorem Laid.draw_some {span : Span} (h : Laid source span) (hflush : span.node.Flush)
    (replacement : Text) :
    span.draw Edits.none (some replacement) =
      source.between span.node.start span.node.stop ++ replacement := by
  obtain ⟨gap, node, rfl, hfits, -⟩ := h
  rw [node_layoutWith] at hflush ⊢
  rw [draw_some_layoutWith source gap replacement node hflush,
    text_layoutWith source replacement node hfits]

theorem Laid.ends_with_last {span : Span} (h : Laid source span) (hflush : span.node.Flush)
    (hchildren : span.children ≠ []) : span.tail = [] ∧ span.separator = [] := by
  obtain ⟨gap, ⟨kind, start, stop, id, label, children⟩, rfl, -, -⟩ := h
  have hne : children ≠ [] := by
    rintro rfl
    exact hchildren rfl
  have hlast := List.getLast?_eq_some_getLast hne
  have hstop : (children.getLast hne).stop = stop := hflush _ (Node.mem_walk_self _) _ hlast
  have hdown : handsDown stop children = true := handsDown_of_flush hflush hne
  constructor
  · simp [layoutWith, tail, tailOf, hlast, hstop, Text.slice]
  · simp [layoutWith, separator, hdown]

private theorem Laid.render_sorting {parent : Span} (hlaid : Laid source parent)
    (hflush : parent.node.Flush)
    (h : 1 < (SortKeys.keyedChildren keys parent.children).length) :
    parent.render (Edits.sorting keys) =
      parent.lead ++ (sortedOrder keys parent.children).zipIdx.flatMap
        (SortKeys.placeText keys source parent.children) := by
  have hchildren : ∀ child ∈ parent.children, ∀ replacement,
      child.draw Edits.none (some replacement) =
        source.between child.node.start child.node.stop ++ replacement := by
    intro child hchild
    have hnode : child.node ∈ parent.node.children := by
      rw [← hlaid.divided.nodes]
      exact List.mem_map_of_mem hchild
    exact (hlaid.child hchild).draw_some (hflush.of_mem_children hnode)
  have harrange := arrange_sorting h hchildren
  -- Nothing follows the last child of a flush node but the separator inside it.
  have hend : parent.tail = [] ∧ parent.separator = [] := by
    refine hlaid.ends_with_last hflush ?_
    intro hnone
    simp [SortKeys.keyedChildren, hnone] at h
  rw [render, draw_eq, hend.1, hend.2]
  change parent.lead ++ Slot.arrange true none _ ++ [] ++ [] = _
  rw [harrange, List.append_nil, List.append_nil]

end Sorted

end Span

theorem Edits.sorting_writable (keys : Nat → Option Text) :
    ∀ path, (Edits.sorting keys path).Writable
  | [] => ⟨⟨rfl, rfl⟩, rfl⟩
  | [_] => ⟨⟨rfl, rfl⟩, rfl⟩
  | _ :: _ :: _ => ⟨⟨rfl, rfl⟩, rfl⟩

namespace Overlay

/-- Where trivia lies only between nodes, sorted children are written slot by slot:
those without a key stay, and every other slot has the text of one member, in the
order of the keys, with the separator of the slot. -/
theorem renderAt_sorting {source : Text} {root : Node} {overlay : Overlay} {path : Path}
    {parent : Span} {edits : Edits} {keys : Nat → Option Text}
    (hordered : ∀ node ∈ root.walk, node.start ≤ node.stop)
    (hstart : 0 ≤ root.start) (hstop : root.stop ≤ source.length) (hflush : root.Flush)
    (hoverlay : ofNode source root = .ok overlay)
    (hparent : overlay.root.descendant? path = some parent)
    (hedits : edits.within path = Edits.sorting keys)
    (hkeyed : 1 < (SortKeys.keyedChildren keys parent.children).length) :
    ∃ order, SortKeys.Arranged keys parent.children order ∧
      overlay.renderAt edits path parent =
        .ok (parent.lead ++
          order.zipIdx.flatMap (SortKeys.placeText keys source parent.children)) := by
  obtain ⟨hroot, hflaws⟩ := ofNode_root hoverlay
  obtain ⟨hnode, -, hlaid⟩ := Span.laid_of_ofNode hroot hordered hstart hstop
  have hparentFlush : parent.node.Flush := fun inner hinner =>
    hflush inner (hnode ▸ hlaid.walk_subset hparent hinner)
  refine ⟨Span.sortedOrder keys parent.children, Span.arranged_sortedOrder hkeyed, ?_⟩
  have hwritable : ∀ inner, (edits.within path inner).Writable :=
    hedits ▸ Edits.sorting_writable keys
  rw [renderAt_of_writable hflaws hwritable, hedits,
    (hlaid.descendant hparent).render_sorting hparentFlush hkeyed]

/-- The members of `membersNode` are the children of its only child.  The first of
them has its separator two levels below. -/
def membersNode : Node :=
  .mk .sourceFile 0 11 0 .null
    [.mk .interfaceDeclaration 0 11 1 .null
      [.mk .propertySignature 0 3 2 .null
        [.mk .identifier 0 1 3 .null [],
        .mk .typeReference 2 3 4 .null [.mk .identifier 2 3 5 .null []]],
      .mk .identifier 5 6 6 .null [],
      .mk .identifier 7 9 7 .null [],
      .mk .identifier 10 11 8 .null []]]

def membersText : Text := "b c  , Ax a".toList

def membersKeys : Nat → Option Text
  | 0 => some "b".toList
  | 2 => some "B".toList
  | 3 => some "a".toList
  | _ => none

def membersEdits : Edits := fun path => Edits.sorting membersKeys (path.drop 1)

theorem renderAt_sorting_members :
    ∃ overlay parent order, ofNode membersText membersNode = .ok overlay ∧
      overlay.root.descendant? [0] = some parent ∧
      SortKeys.Arranged membersKeys parent.children order ∧
      overlay.renderAt membersEdits [0] parent =
        .ok (parent.lead ++ order.zipIdx.flatMap
          (SortKeys.placeText membersKeys membersText parent.children)) ∧
      overlay.renderAt membersEdits [0] parent = .ok "a  , b c  Ax".toList := by
  have hflush : membersNode.Flush := by
    unfold Node.Flush
    decide
  obtain ⟨overlay, hoverlay⟩ : ∃ overlay, ofNode membersText membersNode = .ok overlay := ⟨_, rfl⟩
  obtain ⟨parent, hparent⟩ : ∃ parent, overlay.root.descendant? [0] = some parent := by
    cases hoverlay
    exact ⟨_, rfl⟩
  have hkeyed : 1 < (SortKeys.keyedChildren membersKeys parent.children).length := by
    cases hoverlay
    cases hparent
    decide
  obtain ⟨order, harranged, htext⟩ := renderAt_sorting (by decide) (by decide)
    (by decide : membersNode.stop ≤ membersText.length) hflush hoverlay hparent
    (rfl : membersEdits.within [0] = Edits.sorting membersKeys) hkeyed
  refine ⟨overlay, parent, order, hoverlay, hparent, harranged, htext, ?_⟩
  cases hoverlay
  cases hparent
  cbv

end Overlay

end ApiSurface
