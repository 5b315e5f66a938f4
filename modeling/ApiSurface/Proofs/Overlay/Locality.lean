import ApiSurface.Proofs.Overlay.Sorting
import ApiSurface.Proofs.Overlay.Strokes
import ApiSurface.Proofs.Overlay.Writable

/-!
# Edits are local

An edit inside a span changes what that span writes and nothing else.  The order of
siblings and the separators of their places depend on their sort keys and on the tree
alone, so every span above draws its children in the same order and with the same
replacements, whatever is written inside of one of them.
-/

namespace ApiSurface

/-! ## Arrangements depend on keys and separators -/

namespace Slot

variable {α : Type} {slot other : α → Slot}

theorem fill_congr (hkey : ∀ item, (slot item).key = (other item).key) (between final : Text)
    (members items : List α) :
    fill slot between final members items = fill other between final members items := by
  induction items generalizing members with
  | nil => cases members <;> rfl
  | cons item rest ih =>
      cases hitem : (other item).key with
      | none => simp [fill, hkey, hitem, ih]
      | some key => cases members <;> simp [fill, hkey, hitem, ih]

theorem arrangement_congr (hkey : ∀ item, (slot item).key = (other item).key)
    (hinner : ∀ item, (slot item).inner = (other item).inner) (sorted : Bool)
    (override : Option Text) (items : List α) :
    arrangement slot sorted override items = arrangement other sorted override items := by
  have hkeyed : keyed slot items = keyed other items := by simp only [keyed, hkey]
  have horder : inKeyOrder slot = inKeyOrder other := by
    funext first second
    simp only [inKeyOrder, foldedKey, hkey]
  have hlast : innerOf slot = innerOf other := by
    funext item
    simp only [innerOf, hinner]
  unfold arrangement sorts sortKeyed
  rw [hkeyed, horder, hlast, fill_congr hkey]

end Slot

/-! ## Assignments that agree outside of a span -/

/-- Two assignments differ at most at the span with an address and below it, and give
that span the same sort key. -/
structure Edits.AgreeOutside (path : Path) (edits other : Edits) : Prop where
  outside : ∀ address, ¬ path <+: address → edits address = other address
  sortKey : (edits path).sortKey = (other path).sortKey

/-- Every span above the one with an address keeps its children. -/
def Edits.KeepsAbove (edits : Edits) (path : Path) : Prop :=
  ∀ front, front <+: path → front ≠ path → (edits front).omitChildren = false

namespace Edits

variable {edits other : Edits} {path : Path} {index : Nat}

theorem AgreeOutside.root (h : AgreeOutside (index :: path) edits other) :
    edits [] = other [] :=
  h.outside [] (by simp)

theorem AgreeOutside.below (h : AgreeOutside (index :: path) edits other) :
    AgreeOutside path (edits.below index) (other.below index) where
  outside := fun address haddress => h.outside (index :: address) (by simpa using haddress)
  sortKey := h.sortKey

theorem AgreeOutside.beside (h : AgreeOutside (index :: path) edits other) {place : Nat}
    (hplace : place ≠ index) : edits.below place = other.below place := by
  funext address
  apply h.outside (place :: address)
  rw [List.cons_prefix_cons]
  exact fun hstarts => hplace hstarts.1.symm

theorem AgreeOutside.keys (h : AgreeOutside (index :: path) edits other) (place : Nat) :
    (edits [place]).sortKey = (other [place]).sortKey := by
  by_cases hhere : index :: path = [place]
  · exact hhere ▸ h.sortKey
  · rw [h.outside [place]]
    intro hstarts
    rw [List.cons_prefix_cons, List.prefix_nil] at hstarts
    exact hhere (by rw [hstarts.1, hstarts.2])

theorem AgreeOutside.keepsAbove (h : AgreeOutside path edits other) :
    edits.KeepsAbove path ↔ other.KeepsAbove path := by
  have habove : ∀ front, front <+: path → front ≠ path → edits front = other front := by
    intro front hfront hne
    apply h.outside
    exact fun hback => hne (hfront.eq_of_length_le hback.length_le)
  constructor
  · exact fun hkeeps front hfront hne => habove front hfront hne ▸ hkeeps front hfront hne
  · exact fun hkeeps front hfront hne => habove front hfront hne ▸ hkeeps front hfront hne

theorem keepsAbove_nil (edits : Edits) : edits.KeepsAbove [] :=
  fun _ hfront hne => absurd (List.prefix_nil.mp hfront) hne

theorem keepsAbove_cons : edits.KeepsAbove (index :: path) ↔
    (edits []).omitChildren = false ∧ (edits.below index).KeepsAbove path := by
  constructor
  · intro h
    refine ⟨h [] List.nil_prefix (by simp), fun front hfront hne => ?_⟩
    exact h (index :: front) (List.cons_prefix_cons.mpr ⟨rfl, hfront⟩) (by simp [hne])
  · rintro ⟨hroot, hbelow⟩ (_ | ⟨place, front⟩) hfront hne
    · exact hroot
    · obtain ⟨rfl, hinner⟩ := List.cons_prefix_cons.mp hfront
      exact hbelow front hinner (by simpa using hne)

end Edits

/-! ## Strokes around a span -/

namespace Span

variable {edits other : Edits} {address path : Path} {override own : Option Text}
  {root span child : Span} {index : Nat} {before after : List ((Span × Nat) × Option Text)}

theorem drawnChildren_congr (h : Edits.AgreeOutside (index :: path) edits other)
    (override : Option Text) (span : Span) :
    span.drawnChildren edits override = span.drawnChildren other override := by
  have hkey : ∀ entry : Span × Nat, (slotOf edits entry).key = (slotOf other entry).key :=
    fun entry => h.keys entry.2
  unfold drawnChildren
  rw [h.root]
  exact Slot.arrangement_congr hkey (fun _ => rfl) _ _ _

theorem drawnChildren_split (edits : Edits) (override : Option Text)
    (hchild : span.children[index]? = some child) :
    ∃ before own after, span.drawnChildren edits override =
        before ++ ((child, index), own) :: after ∧
      ∀ entry ∈ before ++ after, entry.1.2 ≠ index := by
  have hmem : ((child, index), span.handed edits override index) ∈
      span.drawnChildren edits override := mem_drawnChildren.mpr ⟨hchild, rfl⟩
  obtain ⟨before, after, hsplit⟩ := List.append_of_mem hmem
  refine ⟨before, _, after, hsplit, ?_⟩
  have hnodup : ((span.drawnChildren edits override).map Prod.fst).Nodup :=
    (Slot.arrangement_perm ..).nodup_iff.mpr (nodup_zipIdx _)
  rw [hsplit, (List.perm_middle.map Prod.fst).nodup_iff, List.map_cons, List.nodup_cons] at hnodup
  intro entry hentry hindex
  have hdrawn : entry ∈ span.drawnChildren edits override := by
    rw [hsplit, List.perm_middle.mem_iff]
    exact List.mem_cons_of_mem _ hentry
  have hfound := mem_children_of_mem_drawnChildren hdrawn
  rw [hindex, hchild] at hfound
  have hsame : entry.1 = (child, index) := Prod.ext (Option.some.inj hfound).symm hindex
  exact hnodup.1 (List.mem_map.mpr ⟨entry, hentry, hsame⟩)

/-- The pieces of a root are those in front of the span at an address, those of the
span, and those behind it. -/
structure Around (root span : Span) (edits : Edits) (address path : Path)
    (override own : Option Text) (front back : List (Path × Text)) : Prop where
  pieces : root.strokes edits address override =
    front ++ span.strokes (edits.within path) (address ++ path) own ++ back
  apart : ∀ stroke ∈ front ++ back, ¬ address ++ path <+: stroke.1

theorem Around.draw_eq {front back : List (Path × Text)}
    (h : Around root span edits address path override own front back) :
    root.draw edits override =
      front.flatMap Prod.snd ++ span.draw (edits.within path) own ++ back.flatMap Prod.snd := by
  rw [← flatMap_strokes edits address, h.pieces, List.flatMap_append, List.flatMap_append,
    flatMap_strokes]

def childStrokes (edits : Edits) (address : Path) (entry : (Span × Nat) × Option Text) :
    List (Path × Text) :=
  entry.1.1.strokes (edits.below entry.1.2) (address ++ [entry.1.2]) entry.2

def strokesBefore (edits : Edits) (address : Path) (root : Span)
    (before : List ((Span × Nat) × Option Text)) : List (Path × Text) :=
  (address, (edits []).lead.getD root.lead) :: before.flatMap (childStrokes edits address)

def strokesAfter (edits : Edits) (address : Path) (override : Option Text) (root : Span)
    (after : List ((Span × Nat) × Option Text)) : List (Path × Text) :=
  after.flatMap (childStrokes edits address) ++ (address, (edits []).tail.getD root.tail) ::
    (closingPieces override (edits []) root.separator root.children.isEmpty).map
      fun piece => (address, piece)

theorem apart_of_beside (edits : Edits) (address path : Path) (override : Option Text)
    (root : Span) (hbeside : ∀ entry ∈ before ++ after, entry.1.2 ≠ index) :
    ∀ stroke ∈ strokesBefore edits address root before ++
        strokesAfter edits address override root after,
      ¬ address ++ index :: path <+: stroke.1 := by
  have hown : ¬ address ++ index :: path <+: address := by
    intro h
    have := h.length_le
    simp at this
  have hchildren : ∀ entry ∈ before ++ after, ∀ stroke ∈ childStrokes edits address entry,
      ¬ address ++ index :: path <+: stroke.1 := by
    intro entry hentry stroke hstroke
    obtain ⟨rest, hrest⟩ := prefix_of_mem_strokes hstroke
    rw [← hrest, List.append_assoc, List.prefix_append_right_inj, List.singleton_append,
      List.cons_prefix_cons]
    exact fun hstarts => hbeside entry hentry hstarts.1.symm
  intro stroke hstroke
  simp only [strokesBefore, strokesAfter, List.mem_append, List.mem_cons, List.mem_flatMap,
    List.mem_map] at hstroke
  rcases hstroke with (rfl | ⟨entry, hentry, hstroke⟩) | ⟨entry, hentry, hstroke⟩ | rfl |
    ⟨piece, -, rfl⟩
  · exact hown
  · exact hchildren entry (List.mem_append_left _ hentry) stroke hstroke
  · exact hchildren entry (List.mem_append_right _ hentry) stroke hstroke
  · exact hown
  · exact hown

theorem strokes_split (address : Path) (hshown : (edits []).omitChildren = false)
    (hdrawn : root.drawnChildren edits override = before ++ ((child, index), own) :: after) :
    root.strokes edits address override =
      strokesBefore edits address root before ++
        child.strokes (edits.below index) (address ++ [index]) own ++
        strokesAfter edits address override root after := by
  rw [strokes_eq, hshown, if_neg Bool.false_ne_true, hdrawn, List.flatMap_append,
    List.flatMap_cons]
  simp only [strokesBefore, strokesAfter, List.append_assoc, List.cons_append]
  rfl

theorem strokes_omitted (address : Path) (override : Option Text)
    (homitted : (edits []).omitChildren = true) :
    root.strokes edits address override =
      strokesBefore edits address root [] ++ strokesAfter edits address override root [] := by
  rw [strokes_eq, homitted, if_pos rfl]
  rfl

theorem Around.above {front back : List (Path × Text)} {last : Option Text}
    (hshown : (edits []).omitChildren = false)
    (hdrawn : root.drawnChildren edits override = before ++ ((child, index), own) :: after)
    (hbeside : ∀ entry ∈ before ++ after, entry.1.2 ≠ index)
    (h : Around child span (edits.below index) (address ++ [index]) path own last front back) :
    Around root span edits address (index :: path) override last
      (strokesBefore edits address root before ++ front)
      (back ++ strokesAfter edits address override root after) := by
  obtain ⟨hpieces, hinner⟩ := h
  rw [List.append_assoc address, List.singleton_append] at hpieces hinner
  constructor
  · rw [strokes_split address hshown hdrawn, hpieces]
    simp only [List.append_assoc]
    rfl
  · have houter := apart_of_beside edits address path override root hbeside
    simp only [List.forall_mem_append] at hinner houter ⊢
    exact ⟨⟨houter.1, hinner.1⟩, hinner.2, houter.2⟩

theorem childStrokes_congr (h : Edits.AgreeOutside (index :: path) edits other)
    (address : Path) {entries : List ((Span × Nat) × Option Text)}
    (hbeside : ∀ entry ∈ entries, entry.1.2 ≠ index) :
    entries.flatMap (childStrokes edits address) =
      entries.flatMap (childStrokes other address) := by
  refine List.flatMap_congr fun entry hentry => ?_
  rw [childStrokes, childStrokes, h.beside (hbeside entry hentry)]

/-- If all spans above keep their children, the pieces around a span are the same in
both assignments, and so is the replacement of its last separator. -/
theorem exists_around (hspan : root.descendant? path = some span)
    (hagree : Edits.AgreeOutside path edits other) (hkeeps : edits.KeepsAbove path)
    (address : Path) (override : Option Text) :
    ∃ own front back, Around root span edits address path override own front back ∧
      Around root span other address path override own front back := by
  induction path generalizing root edits other address override with
  | nil =>
      obtain rfl : root = span := Option.some.inj hspan
      refine ⟨override, [], [], ⟨?_, by simp⟩, ⟨?_, by simp⟩⟩
      · rw [List.append_nil, List.nil_append, List.append_nil]
        rfl
      · rw [List.append_nil, List.nil_append, List.append_nil]
        rfl
  | cons index path ih =>
      obtain ⟨child, hchild, hspan⟩ := Option.bind_eq_some_iff.mp hspan
      obtain ⟨hshown, hkeeps⟩ := Edits.keepsAbove_cons.mp hkeeps
      obtain ⟨before, own, after, hdrawn, hbeside⟩ := drawnChildren_split edits override hchild
      obtain ⟨last, front, back, hhere, hthere⟩ :=
        ih hspan hagree.below hkeeps (address ++ [index]) own
      obtain ⟨hbefore, hafter⟩ := List.forall_mem_append.mp hbeside
      refine ⟨last, _, _, hhere.above hshown hdrawn hbeside, ?_⟩
      have habove := hthere.above (hagree.root ▸ hshown)
        (drawnChildren_congr hagree override root ▸ hdrawn) hbeside
      -- The siblings and the root itself write the same in both assignments.
      rwa [strokesBefore, strokesAfter, ← hagree.root, ← childStrokes_congr hagree _ hbefore,
        ← childStrokes_congr hagree _ hafter] at habove

/-- If some span above leaves its children out, a span writes nothing, and the pieces
are the same in both assignments. -/
theorem strokes_of_hidden (hspan : root.descendant? path = some span)
    (hagree : Edits.AgreeOutside path edits other) (hhidden : ¬ edits.KeepsAbove path)
    (address : Path) (override : Option Text) :
    root.strokes edits address override = root.strokes other address override ∧
      ∀ stroke ∈ root.strokes edits address override, ¬ address ++ path <+: stroke.1 := by
  induction path generalizing root edits other address override with
  | nil => exact absurd edits.keepsAbove_nil hhidden
  | cons index path ih =>
      obtain ⟨child, hchild, hspan⟩ := Option.bind_eq_some_iff.mp hspan
      obtain ⟨before, own, after, hdrawn, hbeside⟩ := drawnChildren_split edits override hchild
      cases hshown : (edits []).omitChildren with
      | true =>
          rw [strokes_omitted address override hshown,
            strokes_omitted address override (hagree.root ▸ hshown)]
          refine ⟨?_, apart_of_beside _ _ _ _ _ (by simp)⟩
          simp only [strokesBefore, strokesAfter, hagree.root, List.flatMap_nil]
      | false =>
          have hbelow : ¬ (edits.below index).KeepsAbove path := fun hkeeps =>
            hhidden (Edits.keepsAbove_cons.mpr ⟨hshown, hkeeps⟩)
          obtain ⟨hsame, hinner⟩ := ih hspan hagree.below hbelow (address ++ [index]) own
          rw [List.append_assoc address, List.singleton_append] at hinner
          obtain ⟨hbefore, hafter⟩ := List.forall_mem_append.mp hbeside
          constructor
          · rw [strokes_split address hshown hdrawn, strokes_split address (hagree.root ▸ hshown)
              (drawnChildren_congr hagree override root ▸ hdrawn), hsame]
            rw [strokesBefore, strokesAfter, hagree.root, childStrokes_congr hagree _ hbefore,
              childStrokes_congr hagree _ hafter]
            rfl
          · have houter := apart_of_beside edits address path override root hbeside
            rw [strokes_split address hshown hdrawn]
            simp only [List.forall_mem_append] at houter ⊢
            exact ⟨⟨houter.1, hinner⟩, houter.2⟩

end Span

namespace Overlay

/-- Edits are local.  Take two assignments that agree outside of a span and on its sort
key.  If the spans above it keep their children, the same pieces are written before and
after the span in both of them, and the span is drawn between these with the same
replacement of its last separator.  Otherwise it writes nothing in either, and the texts
are the same. -/
theorem renderAt_local {source : Text} {root : Node} {overlay : Overlay} {path : Path}
    {span : Span} {edits other : Edits} (hoverlay : ofNode source root = .ok overlay)
    (hspan : overlay.root.descendant? path = some span)
    (hedits : ∀ address, (edits address).Writable)
    (hother : ∀ address, (other address).Writable)
    (hagree : edits.AgreeOutside path other) :
    (edits.KeepsAbove path → other.KeepsAbove path ∧
      ∃ own front back, overlay.root.Around span edits [] path none own front back ∧
        overlay.root.Around span other [] path none own front back ∧
        overlay.renderAt edits [] overlay.root = .ok (front.flatMap Prod.snd ++
          span.draw (edits.within path) own ++ back.flatMap Prod.snd) ∧
        overlay.renderAt other [] overlay.root = .ok (front.flatMap Prod.snd ++
          span.draw (other.within path) own ++ back.flatMap Prod.snd)) ∧
    (¬ edits.KeepsAbove path → ¬ other.KeepsAbove path ∧
      (∀ stroke ∈ overlay.root.strokes edits [] none, ¬ path <+: stroke.1) ∧
      (∀ stroke ∈ overlay.root.strokes other [] none, ¬ path <+: stroke.1) ∧
      ∃ text, overlay.renderAt edits [] overlay.root = .ok text ∧
        overlay.renderAt other [] overlay.root = .ok text) := by
  obtain ⟨-, hflaws⟩ := ofNode_root hoverlay
  have htext : ∀ edits : Edits, (∀ address, (edits.within [] address).Writable) →
      overlay.renderAt edits [] overlay.root = .ok (overlay.root.draw edits none) :=
    fun _ hwritable => renderAt_of_writable hflaws hwritable overlay.root
  rw [htext edits hedits, htext other hother]
  constructor
  · intro hkeeps
    obtain ⟨own, front, back, hhere, hthere⟩ := Span.exists_around hspan hagree hkeeps [] none
    refine ⟨hagree.keepsAbove.mp hkeeps, own, front, back, hhere, hthere, ?_, ?_⟩
    · rw [hhere.draw_eq]
    · rw [hthere.draw_eq]
  · intro hhidden
    obtain ⟨hsame, hapart⟩ := Span.strokes_of_hidden hspan hagree hhidden [] none
    refine ⟨hagree.keepsAbove.not.mp hhidden, hapart, hsame ▸ hapart, _, rfl, ?_⟩
    rw [← Span.flatMap_strokes edits [], hsame, Span.flatMap_strokes]

/-- The members are sorted as before, and the first of them is written otherwise. -/
def retypedEdits : Edits
  | [0, 0] => { membersEdits [0, 0] with tail := some "?".toList }
  | [0, 0, 1] => { lead := some "D.".toList }
  | path => membersEdits path

theorem membersEdits_writable (path : Path) : (membersEdits path).Writable :=
  Edits.sorting_writable membersKeys _

private theorem retypedEdits_writable (path : Path) : (retypedEdits path).Writable := by
  unfold retypedEdits
  split
  · exact ⟨⟨rfl, rfl⟩, rfl⟩
  · exact ⟨⟨rfl, rfl⟩, rfl⟩
  · exact membersEdits_writable path

theorem agreeOutside_retyped : membersEdits.AgreeOutside [0, 0] retypedEdits where
  outside := by
    intro address haddress
    unfold retypedEdits
    split
    · exact absurd (List.prefix_append [0, 0] []) haddress
    · exact absurd (List.prefix_append [0, 0] [1]) haddress
    · rfl
  sortKey := rfl

theorem renderAt_local_members :
    ∃ overlay span own front back, ofNode membersText membersNode = .ok overlay ∧
      overlay.root.descendant? [0, 0] = some span ∧
      membersEdits.AgreeOutside [0, 0] retypedEdits ∧
      overlay.root.Around span membersEdits [] [0, 0] none own front back ∧
      overlay.root.Around span retypedEdits [] [0, 0] none own front back ∧
      overlay.renderAt membersEdits [] overlay.root = .ok "a  , b c  Ax".toList ∧
      overlay.renderAt retypedEdits [] overlay.root = .ok "a  , b D.c  ?Ax".toList := by
  obtain ⟨overlay, hoverlay⟩ : ∃ overlay, ofNode membersText membersNode = .ok overlay := ⟨_, rfl⟩
  obtain ⟨span, hspan⟩ : ∃ span, overlay.root.descendant? [0, 0] = some span := by
    cases hoverlay
    exact ⟨_, rfl⟩
  have hkeeps : membersEdits.KeepsAbove [0, 0] :=
    Edits.keepsAbove_cons.mpr ⟨rfl, Edits.keepsAbove_cons.mpr ⟨rfl, Edits.keepsAbove_nil _⟩⟩
  obtain ⟨-, own, front, back, hhere, hthere, -⟩ :=
    (renderAt_local hoverlay hspan membersEdits_writable retypedEdits_writable
      agreeOutside_retyped).1 hkeeps
  refine ⟨overlay, span, own, front, back, hoverlay, hspan, agreeOutside_retyped, hhere, hthere,
    ?_, ?_⟩
  · cases hoverlay
    cbv
  · cases hoverlay
    cbv

end Overlay

end ApiSurface
