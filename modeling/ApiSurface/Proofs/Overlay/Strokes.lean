import ApiSurface.Proofs.Overlay.Arrangement

/-!
# Who writes what

Rendering appends pieces of text, one after the other.  Here every piece stands
with the address of the span that appends it.  A skipped span appends nothing, with
one exception: the separator of a place among sorted siblings is written by the span
that stands there, or by the one at its very end, whether it is skipped or not.
-/

namespace ApiSurface

/-- A child ready to be drawn, with its pieces for a given replacement of its last
separator. -/
structure Sheet where
  slot : Slot
  strokes : Option Text → List (Path × Text)

namespace Span

/-! ## Strokes -/

def closingPieces (override : Option Text) (edit : Edit) (separator : Text) (isLeaf : Bool) :
    List Text :=
  match override with
  | some replacement => if !separator.isEmpty || isLeaf then [replacement] else []
  | none => if edit.omitSeparator then [] else [separator]

theorem flatten_closingPieces (override : Option Text) (edit : Edit) (separator : Text)
    (isLeaf : Bool) :
    (closingPieces override edit separator isLeaf).flatten =
      closing override edit separator isLeaf := by
  cases override <;> unfold closingPieces closing <;> dsimp only <;> split <;> simp

mutual

/-- The pieces that are appended when a span is drawn, each with the address of the
span that appends it. -/
def strokes (edits : Edits) (address : Path) (override : Option Text) :
    Span → List (Path × Text)
  | .mk _ lead tail separator children =>
      let edit := edits []
      let inherited := if separator.isEmpty then override else none
      (address, edit.lead.getD lead) ::
        (if edit.omitChildren then []
          else
            (Slot.arrangement Sheet.slot edit.sortChildren inherited
              (sheets edits address 0 children)).flatMap fun entry => entry.1.strokes entry.2) ++
        (address, edit.tail.getD tail) ::
          (closingPieces override edit separator children.isEmpty).map fun piece =>
            (address, piece)

def sheets (edits : Edits) (address : Path) (index : Nat) : List Span → List Sheet
  | [] => []
  | child :: rest =>
      { slot := slotAt edits index child
        strokes := fun override =>
          strokes (edits.below index) (address ++ [index]) override child } ::
        sheets edits address (index + 1) rest

end

def sheetOf (edits : Edits) (address : Path) (entry : Span × Nat) : Sheet :=
  { slot := slotOf edits entry
    strokes := fun override =>
      strokes (edits.below entry.2) (address ++ [entry.2]) override entry.1 }

theorem sheets_eq (edits : Edits) (address : Path) (start : Nat) (spans : List Span) :
    sheets edits address start spans = (spans.zipIdx start).map (sheetOf edits address) := by
  induction spans generalizing start with
  | nil => rfl
  | cons child rest ih =>
      rw [sheets, List.zipIdx_cons, List.map_cons, ih]
      rfl

def drawnChildren (edits : Edits) (override : Option Text) (span : Span) :
    List ((Span × Nat) × Option Text) :=
  Slot.arrangement (slotOf edits) (edits []).sortChildren
    (if span.separator.isEmpty then override else none) span.children.zipIdx

def ownPieces (edits : Edits) (override : Option Text) (span : Span) : List Text :=
  (edits []).lead.getD span.lead :: (edits []).tail.getD span.tail ::
    closingPieces override (edits []) span.separator span.children.isEmpty

theorem strokes_eq (edits : Edits) (address : Path) (override : Option Text) (span : Span) :
    span.strokes edits address override =
      (address, (edits []).lead.getD span.lead) ::
        (if (edits []).omitChildren then []
          else (span.drawnChildren edits override).flatMap fun entry =>
            entry.1.1.strokes (edits.below entry.1.2) (address ++ [entry.1.2]) entry.2) ++
        (address, (edits []).tail.getD span.tail) ::
          (closingPieces override (edits []) span.separator span.children.isEmpty).map
            fun piece => (address, piece) := by
  obtain ⟨node, lead, tail, separator, children⟩ := span
  rw [strokes, sheets_eq, Slot.arrangement_map, List.flatMap_map]
  rfl

theorem mem_children_of_mem_drawnChildren {edits : Edits} {override : Option Text} {span : Span}
    {entry : (Span × Nat) × Option Text} (h : entry ∈ span.drawnChildren edits override) :
    span.children[entry.1.2]? = some entry.1.1 := by
  have hmem := (Slot.arrangement_perm ..).mem_iff.mp (List.mem_map_of_mem (f := Prod.fst) h)
  exact List.mem_zipIdx_iff_getElem?.mp hmem

theorem flatMap_strokes (edits : Edits) (address : Path) (override : Option Text) (span : Span) :
    (span.strokes edits address override).flatMap Prod.snd = span.draw edits override := by
  induction span using inductionOnChildren generalizing edits address override with
  | step span ih =>
      have hchildren : ((span.drawnChildren edits override).flatMap fun entry =>
          entry.1.1.strokes (edits.below entry.1.2) (address ++ [entry.1.2]) entry.2).flatMap
            Prod.snd =
          Slot.arrange (edits []).sortChildren (if span.separator.isEmpty then override else none)
            (slots edits 0 span.children) := by
        rw [slots_eq, Slot.arrange_map, List.flatMap_assoc]
        refine List.flatMap_congr fun entry hentry => ?_
        exact ih _ (List.mem_of_getElem? (mem_children_of_mem_drawnChildren hentry)) ..
      have hclosing : ((closingPieces override (edits []) span.separator
          span.children.isEmpty).map fun piece => (address, piece)).flatMap Prod.snd =
          closing override (edits []) span.separator span.children.isEmpty := by
        rw [List.flatMap_map, ← flatten_closingPieces]
        exact List.flatMap_id ..
      rw [strokes_eq, draw_eq, ← hchildren, ← hclosing]
      split <;> simp

/-! ## Addresses of strokes -/

variable {edits : Edits} {address path : Path} {override : Option Text} {span child inner : Span}
  {text : Text} {index : Nat}

theorem mem_strokes {stroke : Path × Text} :
    stroke ∈ span.strokes edits address override ↔
      (stroke.1 = address ∧ stroke.2 ∈ span.ownPieces edits override) ∨
        (edits []).omitChildren = false ∧ ∃ child index own,
          ((child, index), own) ∈ span.drawnChildren edits override ∧
          stroke ∈ child.strokes (edits.below index) (address ++ [index]) own := by
  obtain ⟨place, text⟩ := stroke
  rw [strokes_eq]
  simp only [ownPieces, List.mem_append, List.mem_cons, List.mem_map, Prod.mk.injEq]
  cases (edits []).omitChildren <;> grind

theorem prefix_of_mem_strokes {stroke : Path × Text}
    (h : stroke ∈ span.strokes edits address override) : address <+: stroke.1 := by
  induction span using inductionOnChildren generalizing edits address override with
  | step span ih =>
      rcases mem_strokes.mp h with ⟨hplace, -⟩ | ⟨-, child, index, own, hentry, hstroke⟩
      · exact hplace ▸ List.prefix_rfl
      · have hchild := List.mem_of_getElem? (mem_children_of_mem_drawnChildren hentry)
        exact (List.prefix_append _ _).trans (ih child hchild hstroke)

private theorem mem_strokes_self :
    (address, text) ∈ span.strokes edits address override ↔
      text ∈ span.ownPieces edits override := by
  rw [mem_strokes]
  constructor
  · rintro (⟨-, htext⟩ | ⟨-, child, index, own, -, hstroke⟩)
    · exact htext
    · have := (prefix_of_mem_strokes hstroke).length_le
      simp at this
  · exact fun htext => .inl ⟨rfl, htext⟩

theorem mem_strokes_below :
    (address ++ index :: path, text) ∈ span.strokes edits address override ↔
      (edits []).omitChildren = false ∧ ∃ child own,
        ((child, index), own) ∈ span.drawnChildren edits override ∧
        (address ++ [index] ++ path, text) ∈
          child.strokes (edits.below index) (address ++ [index]) own := by
  rw [mem_strokes, List.append_assoc, List.singleton_append]
  constructor
  · rintro (⟨haddress, -⟩ | ⟨hshown, child, other, own, hentry, hstroke⟩)
    · simp at haddress
    · have hprefix := prefix_of_mem_strokes hstroke
      obtain rfl : other = index := by
        rw [List.prefix_append_right_inj, List.cons_prefix_cons] at hprefix
        exact hprefix.1
      exact ⟨hshown, child, own, hentry, hstroke⟩
  · rintro ⟨hshown, child, own, hentry, hstroke⟩
    exact .inr ⟨hshown, child, index, own, hentry, hstroke⟩

end Span

/-! ## Separators of places -/

namespace SortKeys

variable (keys : Nat → Option Text)

instance (first second : Nat) : Decidable (FiledBefore keys first second) :=
  inferInstanceAs (Decidable (_ ∧ _))

theorem FiledBefore.asymm {keys : Nat → Option Text} {first second : Nat}
    (h : FiledBefore keys first second) : ¬ FiledBefore keys second first := by
  intro hback
  have hsame := Text.precedes_antisymm h.1 hback.1
  exact Nat.lt_asymm (h.2 hsame) (hback.2 hsame.symm)

/-- The separator of the place that a keyed child is filed to. -/
def separatorFor (children : List Span) (index : Nat) : Text :=
  let keyed := keyedChildren keys children
  let owner :=
    if ∃ entry ∈ keyed, FiledBefore keys index entry.2 then keyed.head? else keyed.getLast?
  (owner.map fun entry => entry.1.lastInnerSeparator).getD []

end SortKeys

def Edits.keys (edits : Edits) (index : Nat) : Option Text := (edits [index]).sortKey

namespace Span

def Sorts (edits : Edits) (span : Span) : Prop :=
  (edits []).sortChildren = true ∧ 1 < (SortKeys.keyedChildren edits.keys span.children).length

instance (edits : Edits) (span : Span) : Decidable (span.Sorts edits) :=
  inferInstanceAs (Decidable (_ ∧ _))

variable {edits : Edits} {address path : Path} {override : Option Text} {span child inner : Span}
  {text : Text} {index : Nat}

def handed (edits : Edits) (override : Option Text) (span : Span) (index : Nat) : Option Text :=
  if span.Sorts edits then
    if (edits.keys index).isSome then some (SortKeys.separatorFor edits.keys span.children index)
    else none
  else if index + 1 = span.children.length ∧ span.separator.isEmpty then override else none

theorem sorts_iff : Slot.sorts (slotOf edits) (edits []).sortChildren span.children.zipIdx = true ↔
    span.Sorts edits := by
  rw [Slot.sorts, Bool.and_eq_true, decide_eq_true_eq]
  exact Iff.rfl

theorem getLast?_sortKeyed {children : List Span} {entry : Span × Nat}
    (h : entry ∈ Slot.sortKeyed (slotOf edits) children.zipIdx) :
    (Slot.sortKeyed (slotOf edits) children.zipIdx).getLast? = some entry ↔
      ¬ ∃ other ∈ SortKeys.keyedChildren edits.keys children,
        SortKeys.FiledBefore edits.keys entry.2 other.2 := by
  have hfiled : (Slot.sortKeyed (slotOf edits) children.zipIdx).Pairwise fun first second =>
      SortKeys.FiledBefore edits.keys first.2 second.2 :=
    Slot.sortKeyed_stable (slotOf edits) (pairwise_zipIdx children)
  have hmembers : ∀ other, other ∈ SortKeys.keyedChildren edits.keys children ↔
      other ∈ Slot.sortKeyed (slotOf edits) children.zipIdx :=
    fun _ => (List.mem_mergeSort).symm
  simp only [hmembers]
  generalize Slot.sortKeyed (slotOf edits) children.zipIdx = members at h hfiled
  rcases List.eq_nil_or_concat' members with rfl | ⟨front, last, rfl⟩
  · cases h
  · rw [List.pairwise_append] at hfiled
    have hlast : ∀ other ∈ front, SortKeys.FiledBefore edits.keys other.2 last.2 :=
      fun other hother => hfiled.2.2 other hother last (by simp)
    rw [List.getLast?_concat, Option.some.injEq]
    constructor
    · rintro rfl ⟨other, hother, hbefore⟩
      rcases List.mem_append.mp hother with hother | hother
      · exact hbefore.asymm (hlast other hother)
      · obtain rfl := List.mem_singleton.mp hother
        exact hbefore.asymm hbefore
    · intro hnone
      rcases List.mem_append.mp h with hentry | hentry
      · exact absurd ⟨last, by simp, hlast entry hentry⟩ hnone
      · exact (List.mem_singleton.mp hentry).symm

theorem nodup_zipIdx (spans : List Span) : spans.zipIdx.Nodup :=
  List.Nodup.of_map Prod.snd (List.nodup_zipIdx_map_snd spans)

theorem getLast?_zipIdx {spans : List Span} (hchild : spans[index]? = some child) :
    spans.zipIdx.getLast? = some (child, index) ↔ index + 1 = spans.length := by
  have hindex := (List.getElem?_eq_some_iff.mp hchild).1
  rw [List.getLast?_eq_getElem?, List.length_zipIdx, List.getElem?_zipIdx, Nat.zero_add,
    Option.map_eq_some_iff]
  constructor
  · rintro ⟨last, -, hlast⟩
    have := (Prod.mk.inj hlast).2
    omega
  · intro hlast
    obtain rfl : index = spans.length - 1 := by omega
    exact ⟨child, hchild, rfl⟩

theorem own_eq_handed {own : Option Text}
    (h : ((child, index), own) ∈ span.drawnChildren edits override) :
    own = span.handed edits override index := by
  have hchild := mem_children_of_mem_drawnChildren h
  unfold handed
  by_cases hsorts : span.Sorts edits
  · rw [drawnChildren, Slot.arrangement_of_sorts (sorts_iff.mpr hsorts)] at h
    have hentry := Slot.mem_fill (fun _ hmember => (Slot.mem_sortKeyed.mp hmember).2)
      ((List.mergeSort_perm _ _).nodup_iff.mpr ((nodup_zipIdx _).filter _)) h
    rw [if_pos hsorts]
    change if (edits.keys index).isSome = true then _ else _ at hentry
    by_cases hkey : (edits.keys index).isSome = true
    · rw [if_pos hkey] at hentry ⊢
      obtain ⟨hmember, hfinal, hbetween⟩ := hentry
      rw [getLast?_sortKeyed hmember] at hfinal
      rw [Ne, getLast?_sortKeyed hmember, not_not] at hbetween
      dsimp only [SortKeys.separatorFor]
      split
      · rename_i hafter
        exact hbetween hafter
      · rename_i hlast
        exact hfinal hlast
    · rw [if_neg hkey] at hentry ⊢
      exact hentry
  · rw [drawnChildren, Slot.arrangement, if_neg (sorts_iff.not.mpr hsorts)] at h
    obtain ⟨hlast, hother⟩ := Slot.mem_inOrder (nodup_zipIdx _) h
    rw [getLast?_zipIdx hchild] at hlast
    rw [Ne, getLast?_zipIdx hchild] at hother
    rw [if_neg hsorts]
    by_cases hindex : index + 1 = span.children.length
    · simpa only [hindex, true_and] using hlast hindex
    · simpa only [hindex, false_and, if_false] using hother hindex

theorem mem_drawnChildren {own : Option Text} :
    ((child, index), own) ∈ span.drawnChildren edits override ↔
      span.children[index]? = some child ∧ own = span.handed edits override index := by
  constructor
  · exact fun h => ⟨mem_children_of_mem_drawnChildren h, own_eq_handed h⟩
  · rintro ⟨hchild, rfl⟩
    have hmem := (Slot.arrangement_perm (slotOf edits) (edits []).sortChildren
      (if span.separator.isEmpty then override else none) span.children.zipIdx).mem_iff.mpr
      (List.mk_mem_zipIdx_iff_getElem?.mpr hchild)
    obtain ⟨⟨_, own⟩, hentry, rfl⟩ := List.mem_map.mp hmem
    rwa [own_eq_handed hentry] at hentry

/-! ## Skipped spans -/

/-- The last separator of a span is that of the descendant at an address: on the way
down every span ends in its last child, without a separator of its own. -/
inductive HandsDown : Edits → Span → Path → Prop
  | here {edits : Edits} {span : Span} : HandsDown edits span []
  | last {edits : Edits} {span child : Span} {index : Nat} {rest : Path}
      (hshown : (edits []).omitChildren = false) (hsorts : ¬ span.Sorts edits)
      (hseparator : span.separator = []) (hlast : index + 1 = span.children.length)
      (hchild : span.children[index]? = some child)
      (h : HandsDown (edits.below index) child rest) : HandsDown edits span (index :: rest)

/-- The descendant at an address is drawn with the separator of a place among sorted
siblings: it stands there itself, or at the end of a span that does. -/
inductive TakesSeparator : Edits → Span → Path → Text → Prop
  | place {edits : Edits} {span child : Span} {index : Nat} {rest : Path}
      (hshown : (edits []).omitChildren = false) (hsorts : span.Sorts edits)
      (hkey : (edits.keys index).isSome = true) (hchild : span.children[index]? = some child)
      (h : HandsDown (edits.below index) child rest) :
      TakesSeparator edits span (index :: rest)
        (SortKeys.separatorFor edits.keys span.children index)
  | deeper {edits : Edits} {span child : Span} {index : Nat} {rest : Path} {text : Text}
      (hshown : (edits []).omitChildren = false) (hchild : span.children[index]? = some child)
      (h : TakesSeparator (edits.below index) child rest text) :
      TakesSeparator edits span (index :: rest) text

/-- The descendant at an address is drawn with a replacement of its last separator. -/
def DrawnWith (edits : Edits) (override : Option Text) (span : Span) (path : Path)
    (text : Text) : Prop :=
  override = some text ∧ HandsDown edits span path ∨ TakesSeparator edits span path text

theorem drawnWith_nil_iff : span.DrawnWith edits override [] text ↔ override = some text := by
  constructor
  · rintro (⟨hoverride, -⟩ | htakes)
    · exact hoverride
    · cases htakes
  · exact fun hoverride => .inl ⟨hoverride, .here⟩

private theorem drawnWith_cons_iff (hchild : span.children[index]? = some child) :
    span.DrawnWith edits override (index :: path) text ↔
      (edits []).omitChildren = false ∧
        child.DrawnWith (edits.below index) (span.handed edits override index) path text := by
  constructor
  · rintro (⟨hoverride, hdown⟩ | htakes)
    · cases hdown with
      | last hshown hsorts hseparator hlast hother hdown =>
          obtain rfl := Option.some.inj (hchild.symm.trans hother)
          refine ⟨hshown, .inl ⟨?_, hdown⟩⟩
          rw [handed, if_neg hsorts, if_pos ⟨hlast, by simp [hseparator]⟩, hoverride]
    · cases htakes with
      | place hshown hsorts hkey hother hdown =>
          obtain rfl := Option.some.inj (hchild.symm.trans hother)
          exact ⟨hshown, .inl ⟨by rw [handed, if_pos hsorts, if_pos hkey], hdown⟩⟩
      | deeper hshown hother htakes =>
          obtain rfl := Option.some.inj (hchild.symm.trans hother)
          exact ⟨hshown, .inr htakes⟩
  · rintro ⟨hshown, ⟨hhanded, hdown⟩ | htakes⟩
    · unfold handed at hhanded
      split at hhanded
      · rename_i hsorts
        split at hhanded
        · rename_i hkey
          obtain rfl := Option.some.inj hhanded
          exact .inr (.place hshown hsorts hkey hchild hdown)
        · cases hhanded
      · rename_i hsorts
        split at hhanded
        · rename_i hlast
          exact .inl ⟨hhanded,
            .last hshown hsorts (List.isEmpty_iff.mp hlast.2) hlast.1 hchild hdown⟩
        · cases hhanded
    · exact .inr (.deeper hshown hchild htakes)

theorem mem_ownPieces_skipped (hskipped : (edits []).skipped = true) (htext : text ≠ []) :
    text ∈ span.ownPieces edits override ↔
      (span.separator ≠ [] ∨ span.children = []) ∧ override = some text := by
  simp only [Edit.skipped, Bool.and_eq_true, beq_iff_eq] at hskipped
  obtain ⟨⟨⟨-, homitted⟩, hlead⟩, htail⟩ := hskipped
  simp only [ownPieces, hlead, htail, Option.getD_some, List.mem_cons, htext, false_or]
  cases override with
  | none => simp [closingPieces, homitted]
  | some replacement =>
      have hwrites : (!span.separator.isEmpty || span.children.isEmpty) = true ↔
          span.separator ≠ [] ∨ span.children = [] := by
        simp [List.isEmpty_iff]
      rw [closingPieces, ← hwrites, Option.some.injEq, eq_comm (a := replacement)]
      split
      · rename_i hwrites
        rw [List.mem_singleton, and_iff_right hwrites]
      · rename_i hsilent
        exact iff_of_false List.not_mem_nil fun h => hsilent h.1

private theorem mem_strokes_of_skipped (address : Path) (override : Option Text)
    (hinner : span.descendant? path = some inner) (hskipped : (edits path).skipped = true)
    (below : Path) (htext : text ≠ []) :
    (address ++ (path ++ below), text) ∈ span.strokes edits address override ↔
      below = [] ∧ (inner.separator ≠ [] ∨ inner.children = []) ∧
        span.DrawnWith edits override path text := by
  induction path generalizing span edits address override with
  | nil =>
      obtain rfl : span = inner := Option.some.inj hinner
      cases below with
      | nil =>
          rw [List.append_nil, List.append_nil, mem_strokes_self,
            mem_ownPieces_skipped hskipped htext, drawnWith_nil_iff]
          simp
      | cons index rest =>
          simp only [Edit.skipped, Bool.and_eq_true] at hskipped
          rw [List.nil_append, mem_strokes_below, hskipped.1.1.1]
          simp
  | cons index path ih =>
      obtain ⟨child, hchild, hinner⟩ := Option.bind_eq_some_iff.mp hinner
      rw [List.cons_append, mem_strokes_below, drawnWith_cons_iff hchild]
      constructor
      · rintro ⟨hshown, other, own, hentry, hstroke⟩
        obtain ⟨hother, rfl⟩ := mem_drawnChildren.mp hentry
        obtain rfl := Option.some.inj (hchild.symm.trans hother)
        obtain ⟨hbelow, hwrites, hdrawn⟩ := (ih _ _ hinner hskipped).mp hstroke
        exact ⟨hbelow, hwrites, hshown, hdrawn⟩
      · rintro ⟨hbelow, hwrites, hshown, hdrawn⟩
        exact ⟨hshown, child, _, mem_drawnChildren.mpr ⟨hchild, rfl⟩,
          (ih _ _ hinner hskipped).mpr ⟨hbelow, hwrites, hdrawn⟩⟩

/-- What a skipped span appends.  It appends nothing but empty pieces, and nothing at
all through its descendants, except that it writes the separator of a place among
sorted siblings: just if it takes that separator and is a leaf or has a separator of
its own. -/
theorem skipped_writes_only_separators {root : Span}
    (hspan : root.descendant? path = some span) (hskipped : (edits path).skipped = true) :
    (root.strokes edits [] none).flatMap Prod.snd = root.render edits ∧
      ∀ below text, text ≠ [] →
        ((path ++ below, text) ∈ root.strokes edits [] none ↔
          below = [] ∧ (span.separator ≠ [] ∨ span.children = []) ∧
            TakesSeparator edits root path text) := by
  refine ⟨flatMap_strokes edits [] none root, fun below text htext => ?_⟩
  have hstrokes := mem_strokes_of_skipped [] none hspan hskipped below htext
  -- Nothing replaces the last separator of the root itself.
  have htakes : root.DrawnWith edits none path text ↔ TakesSeparator edits root path text :=
    ⟨fun h => h.resolve_left fun hnone => Option.some_ne_none text hnone.1.symm, .inr⟩
  rwa [List.nil_append, htakes] at hstrokes

def pairNode : Node :=
  .mk .sourceFile 0 3 0 .null [.mk .identifier 0 1 1 .null [], .mk .identifier 2 3 2 .null []]

/-- The names are sorted, and the one that comes first then is skipped. -/
def pairEdits : Edits
  | [] => { sortChildren := true }
  | [0] => { sortKey := some "b".toList }
  | [1] => Change.skip { sortKey := some "a".toList }
  | _ => {}

theorem skipped_writes_only_separators_pair :
    ∃ root span, ofNode "b a".toList pairNode = .ok root ∧ root.descendant? [1] = some span ∧
      (pairEdits [1]).skipped = true ∧
      ([1], " ".toList) ∈ root.strokes pairEdits [] none ∧
      ∀ index rest text, ([1] ++ index :: rest, text) ∈ root.strokes pairEdits [] none →
        text = [] := by
  obtain ⟨root, hroot⟩ : ∃ root, ofNode "b a".toList pairNode = .ok root := ⟨_, rfl⟩
  obtain ⟨span, hspan⟩ : ∃ span, root.descendant? [1] = some span := by
    cases hroot
    exact ⟨_, rfl⟩
  have hskipped : (pairEdits [1]).skipped = true := by decide
  obtain ⟨-, hstrokes⟩ := skipped_writes_only_separators hspan hskipped
  refine ⟨root, span, hroot, hspan, hskipped, ?_, ?_⟩
  · cases hroot
    cases hspan
    have hseparator : SortKeys.separatorFor pairEdits.keys
        (layout "b a".toList pairNode).children 1 = " ".toList := by cbv
    refine (hstrokes [] _ (by decide)).mpr ⟨rfl, .inr rfl, hseparator ▸ ?_⟩
    exact .place rfl (by decide) rfl rfl .here
  · intro index rest text hstroke
    by_contra htext
    have := ((hstrokes (index :: rest) text htext).mp hstroke).1
    simp at this

/-- A skipped span among sorted siblings writes a separator. -/
theorem skipped_writes_separator :
    ∃ root, ofNode "b a".toList pairNode = .ok root ∧ (pairEdits [1]).skipped = true ∧
      ([1], " ".toList) ∈ root.strokes pairEdits [] none ∧
      root.render pairEdits = " b".toList := by
  refine ⟨_, rfl, by decide, ?_, ?_⟩
  · exact of_decide_eq_true (by cbv)
  · cbv

end Span

end ApiSurface
