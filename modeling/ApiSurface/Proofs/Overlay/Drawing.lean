import ApiSurface.Overlay.Render
import ApiSurface.Proofs.Success

/-!
# What a drawing shows

A change at an address is made to the edit of that address alone, after all
earlier ones.  A span that keeps its children draws every one of them, in order
or sorted; a span without its children draws the texts that its edit gives it.
-/

namespace ApiSurface

/-! ## Descendants -/

namespace Span

private theorem sizeOf_lt_of_mem_children {span child : Span} (h : child ∈ span.children) :
    sizeOf child < sizeOf span := by
  cases span with
  | mk node lead tail separator children =>
      have := List.sizeOf_lt_of_mem (show child ∈ children from h)
      rw [mk.sizeOf_spec]
      omega

theorem inductionOnChildren {motive : Span → Prop}
    (step : ∀ span : Span, (∀ child ∈ span.children, motive child) → motive span)
    (span : Span) : motive span :=
  step span fun child _ => inductionOnChildren step child
termination_by sizeOf span
decreasing_by exact sizeOf_lt_of_mem_children ‹_›

variable {span child inner : Span} {path rest : Path} {index : Nat}

theorem descendant?_cons (hchild : span.children[index]? = some child) :
    span.descendant? (index :: rest) = child.descendant? rest := by
  simp [descendant?, hchild]

theorem descendant?_append (h : span.descendant? path = some inner) :
    span.descendant? (path ++ rest) = inner.descendant? rest := by
  induction path generalizing span with
  | nil =>
      obtain rfl : span = inner := by simpa [descendant?] using h
      rfl
  | cons index path ih =>
      cases hchild : span.children[index]? with
      | none => simp [descendant?, hchild] at h
      | some child =>
          rw [descendant?_cons hchild] at h
          rw [List.cons_append, descendant?_cons hchild]
          exact ih h

end Span

/-! ## Edits inside a descendant -/

namespace Edits

theorem below_within (edits : Edits) (path : Path) (index : Nat) :
    (edits.within path).below index = edits.within (path ++ [index]) := by
  funext inner
  simp [below, within]

theorem within_within (edits : Edits) (path inner : Path) :
    (edits.within path).within inner = edits.within (path ++ inner) := by
  funext rest
  simp [within]

end Edits

/-! ## Changes at an address -/

namespace Changes

variable {changes : Changes} {path : Path}

theorem edits_append (first second : Changes) (path : Path) :
    edits (first ++ second) path =
      second.foldl (fun edit change => if change.1 = path then change.2 edit else edit)
        (first.edits path) := by
  simp [edits, Edits.apply]

theorem edits_concat (first : Changes) (change : Path × Change) (path : Path) :
    edits (first ++ [change]) path =
      if change.1 = path then change.2 (first.edits path) else first.edits path := by
  simp [edits_append]

theorem edits_of_keeps (holds : Edit → Prop) (hfirst : holds {})
    (hkeeps : ∀ change ∈ changes, change.1 = path →
      ∀ edit, holds edit → holds (change.2 edit)) :
    holds (changes.edits path) := by
  induction changes using List.reverseRecOn with
  | nil => exact hfirst
  | append_singleton changes change ih =>
      have hbefore := ih fun other hother => hkeeps other (by simp [hother])
      rw [edits_concat]
      split
      · rename_i hpath
        exact hkeeps change (by simp) hpath _ hbefore
      · exact hbefore

theorem edits_of_mem (holds : Edit → Prop) {change : Path × Change} (hmem : change ∈ changes)
    (hpath : change.1 = path) (hset : ∀ edit, holds (change.2 edit))
    (hkeeps : ∀ change ∈ changes, change.1 = path →
      ∀ edit, holds edit → holds (change.2 edit)) :
    holds (changes.edits path) := by
  induction changes using List.reverseRecOn with
  | nil => cases hmem
  | append_singleton changes last ih =>
      rw [edits_concat]
      rcases List.mem_append.mp hmem with hmem | hmem
      · have hbefore := ih hmem fun other hother => hkeeps other (by simp [hother])
        split
        · rename_i hlast
          exact hkeeps last (by simp) hlast _ hbefore
        · exact hbefore
      · obtain rfl := List.mem_singleton.mp hmem
        rw [if_pos hpath]
        exact hset _

theorem exists_of_edits (holds : Edit → Prop) (hfirst : ¬ holds {})
    (h : holds (changes.edits path)) :
    ∃ change ∈ changes, change.1 = path ∧
      ∃ edit, ¬ holds edit ∧ holds (change.2 edit) := by
  by_contra hnone
  refine edits_of_keeps (fun edit => ¬ holds edit) hfirst ?_ h
  intro change hmem hpath edit hedit hafter
  exact hnone ⟨change, hmem, hpath, edit, hedit, hafter⟩

theorem edits_of_apart {before changes after : Changes}
    (hbefore : ∀ change ∈ before, change.1 ≠ path)
    (hafter : ∀ change ∈ after, change.1 ≠ path) :
    edits (before ++ changes ++ after) path = changes.edits path := by
  have hskip : ∀ (others : Changes) (edit : Edit), (∀ change ∈ others, change.1 ≠ path) →
      others.foldl (fun edit change => if change.1 = path then change.2 edit else edit)
        edit = edit := by
    intro others
    induction others with
    | nil => intros; rfl
    | cons change others ih =>
        intro edit hothers
        rw [List.foldl_cons, if_neg (hothers change (by simp))]
        exact ih edit fun other hother => hothers other (by simp [hother])
  rw [edits_append, hskip after _ hafter]
  simp [edits, Edits.apply, hskip before _ hbefore]

end Changes

/-! ## Slots -/

namespace Slot

variable {slots : List Slot} {slot : Slot}

theorem draw_infix_drawInOrder (override : Option Text) (hslot : slot ∈ slots) :
    ∃ own, (own = none ∨ own = override) ∧ slot.draw own <:+: drawInOrder override slots := by
  induction slots with
  | nil => cases hslot
  | cons first rest ih =>
      cases rest with
      | nil =>
          obtain rfl := List.mem_singleton.mp hslot
          exact ⟨override, .inr rfl, List.infix_rfl⟩
      | cons second rest =>
          rw [drawInOrder]
          rcases List.mem_cons.mp hslot with rfl | hslot
          · exact ⟨none, .inl rfl, (List.prefix_append _ _).isInfix⟩
          · obtain ⟨own, hown, hdrawn⟩ := ih hslot
            exact ⟨own, hown, hdrawn.trans (List.suffix_append _ _).isInfix⟩

theorem draw_infix_drawSorted_of_unkeyed (between final : Text) (sorted : List Slot)
    (hslot : slot ∈ slots) (hkey : slot.key = none) :
    slot.draw none <:+: drawSorted between final sorted slots := by
  induction slots generalizing sorted with
  | nil => cases hslot
  | cons first rest ih =>
      cases hfirst : first.key with
      | none =>
          simp only [drawSorted, hfirst]
          rcases List.mem_cons.mp hslot with rfl | hslot
          · exact (List.prefix_append _ _).isInfix
          · exact (ih sorted hslot).trans (List.suffix_append _ _).isInfix
      | some key =>
          have hrest : slot ∈ rest := by
            rcases List.mem_cons.mp hslot with rfl | hslot
            · simp [hkey] at hfirst
            · exact hslot
          cases sorted with
          | nil =>
              simp only [drawSorted, hfirst]
              exact ih [] hrest
          | cons current others =>
              simp only [drawSorted, hfirst]
              exact (ih others hrest).trans (List.suffix_append _ _).isInfix

private theorem draw_infix_drawSorted_of_keyed (between final : Text) {sorted : List Slot}
    (hplaces : sorted.length ≤ (slots.filter (·.key.isSome)).length)
    (hslot : slot ∈ sorted) :
    ∃ own, slot.draw own <:+: drawSorted between final sorted slots := by
  induction slots generalizing sorted with
  | nil =>
      obtain rfl := List.length_eq_zero_iff.mp (Nat.le_zero.mp hplaces)
      cases hslot
  | cons first rest ih =>
      cases hfirst : first.key with
      | none =>
          rw [List.filter_cons_of_neg (by simp [hfirst])] at hplaces
          simp only [drawSorted, hfirst]
          obtain ⟨own, hdrawn⟩ := ih hplaces hslot
          exact ⟨own, hdrawn.trans (List.suffix_append _ _).isInfix⟩
      | some key =>
          rw [List.filter_cons_of_pos (by simp [hfirst])] at hplaces
          cases sorted with
          | nil => cases hslot
          | cons current others =>
              simp only [drawSorted, hfirst]
              rcases List.mem_cons.mp hslot with rfl | hslot
              · exact ⟨_, (List.prefix_append _ _).isInfix⟩
              · obtain ⟨own, hdrawn⟩ := ih (by simpa using hplaces) hslot
                exact ⟨own, hdrawn.trans (List.suffix_append _ _).isInfix⟩

private theorem draw_infix_arrange (sorted : Bool) (override : Option Text)
    (hslot : slot ∈ slots) :
    ∃ own, slot.draw own <:+: arrange sorted override slots := by
  have hinOrder : ∃ own, slot.draw own <:+: drawInOrder override slots := by
    obtain ⟨own, _, hdrawn⟩ := draw_infix_drawInOrder override hslot
    exact ⟨own, hdrawn⟩
  unfold arrange
  split
  · rename_i first second others hkeyed
    split
    · rw [← hkeyed]
      by_cases hkey : slot.key.isSome
      · apply draw_infix_drawSorted_of_keyed
        · simp [sort]
        · rw [sort, List.mem_mergeSort]
          exact List.mem_filter.mpr ⟨hslot, hkey⟩
      · exact ⟨none, draw_infix_drawSorted_of_unkeyed _ _ _ hslot (by simpa using hkey)⟩
    · exact hinOrder
  · exact hinOrder

private theorem draw_infix_arrange_unsorted (hslot : slot ∈ slots) :
    slot.draw none <:+: arrange false none slots := by
  obtain ⟨own, hown, hdrawn⟩ := draw_infix_drawInOrder none hslot
  obtain rfl : own = none := hown.elim id id
  unfold arrange
  split <;> exact hdrawn

end Slot

/-! ## Spans -/

namespace Span

variable {edits : Edits} {span child : Span} {index : Nat}

theorem draw_eq (edits : Edits) (override : Option Text) (span : Span) :
    span.draw edits override =
      (edits []).lead.getD span.lead ++
        (if (edits []).omitChildren then []
          else Slot.arrange (edits []).sortChildren
            (if span.separator.isEmpty then override else none)
            (slots edits 0 span.children)) ++
        (edits []).tail.getD span.tail ++
        closing override (edits []) span.separator span.children.isEmpty := by
  cases span
  rfl

def slotAt (edits : Edits) (index : Nat) (child : Span) : Slot :=
  { key := (edits [index]).sortKey
    inner := child.lastInnerSeparator
    draw := fun override => child.draw (edits.below index) override }

theorem slotAt_mem_slots (edits : Edits) {spans : List Span} (start : Nat)
    (h : spans[index]? = some child) :
    slotAt edits (start + index) child ∈ slots edits start spans := by
  induction spans generalizing start index with
  | nil => simp at h
  | cons first rest ih =>
      cases index with
      | zero =>
          obtain rfl : first = child := by simpa using h
          simp [slots, slotAt]
      | succ index =>
          rw [slots]
          have hrest := ih (start + 1) (by simpa using h)
          rw [Nat.add_right_comm] at hrest
          exact List.mem_cons_of_mem _ hrest

private theorem exists_draw_infix_draw (override : Option Text)
    (hshown : (edits []).omitChildren = false)
    (hchild : span.children[index]? = some child) :
    ∃ own, child.draw (edits.below index) own <:+: span.draw edits override := by
  have hslot := slotAt_mem_slots edits 0 hchild
  rw [Nat.zero_add] at hslot
  obtain ⟨own, hdrawn⟩ := Slot.draw_infix_arrange (edits []).sortChildren
    (if span.separator.isEmpty then override else none) hslot
  refine ⟨own, hdrawn.trans ?_⟩
  rw [draw_eq, hshown, if_neg Bool.false_ne_true, List.append_assoc, List.append_assoc]
  exact (List.prefix_append _ _).isInfix.trans (List.suffix_append _ _).isInfix

theorem exists_draw_descendant {root : Span} {path : Path} (edits : Edits)
    (override : Option Text) (hpath : root.descendant? path = some span)
    (hshown : ∀ front, front <+: path → front ≠ path → (edits front).omitChildren = false) :
    ∃ own, span.draw (edits.within path) own <:+: root.draw edits override := by
  induction path generalizing root edits override with
  | nil =>
      obtain rfl : root = span := by simpa [descendant?] using hpath
      exact ⟨override, List.infix_rfl⟩
  | cons index path ih =>
      cases hchild : root.children[index]? with
      | none => simp [descendant?, hchild] at hpath
      | some child =>
          have hinner : child.descendant? path = some span := by
            simpa [descendant?, hchild] using hpath
          obtain ⟨own, hdrawn⟩ := exists_draw_infix_draw override
            (hshown [] List.nil_prefix (by simp)) hchild
          obtain ⟨last, hlast⟩ := ih (edits.below index) own hinner fun front hfront hne =>
            hshown (index :: front) (List.cons_prefix_cons.mpr ⟨rfl, hfront⟩) (by simp [hne])
          exact ⟨last, hlast.trans hdrawn⟩

theorem render_infix_render (hshown : (edits []).omitChildren = false)
    (hinOrder : (edits []).sortChildren = false)
    (hchild : span.children[index]? = some child) :
    child.render (edits.below index) <:+: span.render edits := by
  have hslot := slotAt_mem_slots edits 0 hchild
  rw [Nat.zero_add] at hslot
  refine (Slot.draw_infix_arrange_unsorted hslot).trans ?_
  rw [render, draw_eq, hshown, hinOrder, if_neg Bool.false_ne_true, ite_self,
    List.append_assoc, List.append_assoc]
  exact (List.prefix_append _ _).isInfix.trans (List.suffix_append _ _).isInfix

theorem render_eq_of_replaced {other : Span} (homitted : (edits []).omitChildren = true)
    (hlead : (edits []).lead.isSome = true) (htail : (edits []).tail.isSome = true)
    (hseparator : other.separator = span.separator) :
    other.render edits = span.render edits := by
  obtain ⟨lead, hlead⟩ := Option.isSome_iff_exists.mp hlead
  obtain ⟨tail, htail⟩ := Option.isSome_iff_exists.mp htail
  simp only [render, draw_eq, homitted, hlead, htail, hseparator, if_true,
    Option.getD_some, closing]

/-! ## Children in order -/

variable {start : Nat}

/-- The texts of siblings from a position on, one after the other. -/
def renderAll (edits : Edits) : Nat → List Span → Text
  | _, [] => []
  | index, child :: rest =>
      child.render (edits.below index) ++ renderAll edits (index + 1) rest

private theorem drawInOrder_slots (edits : Edits) (start : Nat) (spans : List Span) :
    Slot.drawInOrder none (slots edits start spans) = renderAll edits start spans := by
  induction spans generalizing start with
  | nil => rfl
  | cons first rest ih =>
      cases rest with
      | nil => simp [slots, Slot.drawInOrder, renderAll, render]
      | cons second rest =>
          rw [renderAll, ← ih]
          rfl

theorem renderAll_split {spans : List Span} (h : spans[index]? = some child) :
    renderAll edits start spans =
      renderAll edits start (spans.take index) ++
        child.render (edits.below (start + index)) ++
        renderAll edits (start + index + 1) (spans.drop (index + 1)) := by
  induction spans generalizing start index with
  | nil => simp at h
  | cons first rest ih =>
      cases index with
      | zero =>
          obtain rfl : first = child := by simpa using h
          simp [renderAll]
      | succ index =>
          rw [renderAll, ih (by simpa using h), List.take_succ_cons, renderAll,
            List.drop_succ_cons, Nat.add_right_comm start 1 index]
          simp [Nat.add_assoc]

def ending (edits : Edits) (span : Span) : Text :=
  (edits []).tail.getD span.tail ++ if (edits []).omitSeparator then [] else span.separator

theorem render_eq (hshown : (edits []).omitChildren = false)
    (hinOrder : (edits []).sortChildren = false) :
    span.render edits =
      (edits []).lead.getD span.lead ++ renderAll edits 0 span.children ++
        ending edits span := by
  have harrange : Slot.arrange false none (slots edits 0 span.children) =
      renderAll edits 0 span.children := by
    rw [← drawInOrder_slots]
    unfold Slot.arrange
    split <;> rfl
  rw [render, draw_eq, hshown, hinOrder, if_neg Bool.false_ne_true, ite_self, harrange,
    List.append_assoc _ ((edits []).tail.getD _)]
  rfl

theorem render_leaf (hleaf : span.children = []) :
    span.render edits = (edits []).lead.getD span.lead ++ ending edits span := by
  simp [render, draw_eq, hleaf, slots, Slot.arrange, Slot.drawInOrder, ending, closing]

end Span

end ApiSurface
