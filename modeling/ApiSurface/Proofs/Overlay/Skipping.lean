import ApiSurface.Proofs.Overlay.RoundTrip
import ApiSurface.Proofs.Overlay.Writable

/-!
# Skipped spans

The texts of siblings stand one after the other, each from the start of its node
up to the start of the next.  Skipping a span takes away just the characters of
its text, with the gap behind it, wherever that gap has come to rest.
-/

namespace ApiSurface

/-! ## Texts with holes -/

namespace Text

/-- A text that starts at a position, without its characters at some positions. -/
def without (removed : Int → Bool) : Int → Text → Text
  | _, [] => []
  | position, character :: rest =>
      if removed position then without removed (position + 1) rest
      else character :: without removed (position + 1) rest

variable {removed : Int → Bool} {position : Int}

theorem without_append (first second : Text) :
    without removed position (first ++ second) =
      without removed position first ++ without removed (position + first.length) second := by
  induction first generalizing position with
  | nil => simp [without]
  | cons character rest ih =>
      rw [List.cons_append, without, without, ih, List.length_cons, Nat.cast_add, Nat.cast_one,
        Int.add_right_comm, ← Int.add_assoc]
      split <;> rfl

theorem without_eq_self {text : Text}
    (h : ∀ other, position ≤ other → other < position + text.length → removed other = false) :
    without removed position text = text := by
  induction text generalizing position with
  | nil => rfl
  | cons character rest ih =>
      simp only [List.length_cons, Nat.cast_add, Nat.cast_one] at h
      rw [without, h position (by omega) (by omega), if_neg Bool.false_ne_true,
        ih fun other hle hlt => h other (by omega) (by omega)]

private theorem without_eq_nil {text : Text}
    (h : ∀ other, position ≤ other → other < position + text.length → removed other = true) :
    without removed position text = [] := by
  induction text generalizing position with
  | nil => rfl
  | cons character rest ih =>
      simp only [List.length_cons, Nat.cast_add, Nat.cast_one] at h
      rw [without, h position (by omega) (by omega), if_pos rfl,
        ih fun other hle hlt => h other (by omega) (by omega)]

end Text

/-! ## Places in the text -/

namespace Span

variable {source : Text} {span child inner : Span} {position : Int}

/-- The position belongs to the text of a span, with the gap behind it. -/
def Covers (span : Span) (position : Int) : Prop :=
  span.node.start ≤ position ∧ position < span.node.start + span.text.length

instance (span : Span) (position : Int) : Decidable (span.Covers position) :=
  inferInstanceAs (Decidable (_ ∧ _))

/-- The texts of siblings stand one after the other, from an offset on. -/
def Consecutive : Int → List Span → Prop
  | _, [] => True
  | offset, first :: rest =>
      first.node.start = offset ∧ Consecutive (offset + first.text.length) rest

theorem Consecutive.bounds {offset : Int} {spans : List Span} (h : Consecutive offset spans)
    (hchild : child ∈ spans) :
    offset ≤ child.node.start ∧
      child.node.start + child.text.length ≤ offset + (textAll spans).length := by
  induction spans generalizing offset with
  | nil => cases hchild
  | cons first rest ih =>
      obtain ⟨hfirst, hrest⟩ := h
      rw [textAll, List.length_append, Nat.cast_add]
      rcases List.mem_cons.mp hchild with rfl | hchild
      · omega
      · have := ih hrest hchild
        omega

private theorem Laid.length_text (h : Laid source span) :
    (span.text.length : Int) = span.node.stop + span.gapAfter.length - span.node.start := by
  obtain ⟨gap, node, rfl, hfits, -⟩ := h
  rw [text_layoutWith source gap node hfits, node_layoutWith, gapAfter_layoutWith,
    List.length_append, Nat.cast_add,
    Text.length_between hfits.start_nonneg hfits.start_le_stop hfits.stop_le]
  omega

theorem Consecutive.eq_of_covers {offset : Int} {spans : List Span} {index other : Nat}
    {sibling : Span} (h : Consecutive offset spans) (hchild : spans[index]? = some child)
    (hsibling : spans[other]? = some sibling) (hcovers : child.Covers position)
    (hother : sibling.Covers position) : index = other := by
  induction spans generalizing offset index other with
  | nil => simp at hchild
  | cons first rest ih =>
      obtain ⟨hfirst, hrest⟩ := h
      unfold Covers at hcovers hother
      cases index with
      | zero =>
          cases other with
          | zero => rfl
          | succ other =>
              -- A sibling further on starts behind the first one.
              obtain rfl : first = child := Option.some.inj hchild
              have := hrest.bounds (List.mem_of_getElem? hsibling)
              omega
      | succ index =>
          cases other with
          | zero =>
              obtain rfl : first = sibling := Option.some.inj hsibling
              have := hrest.bounds (List.mem_of_getElem? hchild)
              omega
          | succ other => rw [ih hrest hchild hsibling]

theorem Laid.consecutive_from (h : Laid source span) (before : List Span) {after : List Span}
    (hchildren : span.children = before ++ child :: after) :
    Consecutive child.node.start (child :: after) := by
  induction after generalizing before child with
  | nil => exact ⟨rfl, trivial⟩
  | cons second rest ih =>
      have hlength := (h.child (by simp [hchildren] : child ∈ span.children)).length_text
      have hnext := h.divided.siblings before child second rest hchildren
      have hrest := ih (before ++ [child]) (by simpa using hchildren)
      have hstart : child.node.start + child.text.length = second.node.start := by omega
      exact ⟨rfl, hstart ▸ hrest⟩

private theorem Laid.length_lead (h : Laid source span) {rest : List Span}
    (hchildren : span.children = child :: rest) :
    span.node.start + span.lead.length = child.node.start := by
  obtain ⟨gap, ⟨kind, start, stop, id, label, nodes⟩, rfl, hfits, -⟩ := h
  rw [children_layoutWith, ← List.nil_append (child :: rest)] at hchildren
  obtain ⟨hnodes, -⟩ := eq_of_layoutAllWith hchildren
  obtain rfl : nodes = child.node :: rest.map Span.node := hnodes
  have hmem : child.node ∈ child.node :: rest.map Span.node := List.mem_cons_self
  have hstart : start ≤ child.node.start := (hfits.inside hmem).1
  have hnode := hfits.of_mem_children hmem
  have hlead : source.slice start child.node.start = source.between start child.node.start :=
    Text.slice_eq_between hfits.start_nonneg hstart
  have hlength : ((source.between start child.node.start).length : Int) =
      child.node.start - start :=
    Text.length_between hfits.start_nonneg hstart
      (Int.le_trans hnode.start_le_stop hnode.stop_le)
  rw [node_layoutWith]
  change start + ((source.slice start child.node.start).length : Int) = child.node.start
  rw [hlead, hlength]
  omega

theorem Laid.consecutive (h : Laid source span) :
    Consecutive (span.node.start + span.lead.length) span.children := by
  cases hchildren : span.children with
  | nil => trivial
  | cons first rest =>
      rw [h.length_lead hchildren]
      exact h.consecutive_from [] hchildren

theorem text_eq (span : Span) :
    span.text = span.lead ++ textAll span.children ++ (span.tail ++ span.separator) := by
  cases span
  rw [text, ← List.append_assoc]
  rfl

theorem length_text_eq (span : Span) :
    (span.text.length : Int) = span.lead.length + (textAll span.children).length +
      (span.tail ++ span.separator).length := by
  rw [text_eq, List.length_append, List.length_append, Nat.cast_add, Nat.cast_add]

theorem Laid.covers_of_child (h : Laid source span) (hchild : child ∈ span.children)
    (hcovers : child.Covers position) : span.Covers position := by
  have hbounds := h.consecutive.bounds hchild
  have hlength := span.length_text_eq
  unfold Covers at hcovers ⊢
  omega

theorem Laid.covers_of_descendant {path : Path} (h : Laid source span)
    (hinner : span.descendant? path = some inner) (hcovers : inner.Covers position) :
    span.Covers position := by
  induction path generalizing span with
  | nil =>
      cases hinner
      exact hcovers
  | cons index rest ih =>
      obtain ⟨child, hchild, hinner⟩ := Option.bind_eq_some_iff.mp hinner
      have hmem := List.mem_of_getElem? hchild
      exact h.covers_of_child hmem (ih (h.child hmem) hinner)

end Span

/-! ## Skipping -/

def Edits.skipping (skips : Path → Bool) : Edits := fun path =>
  if skips path then Change.skip {} else {}

private theorem Edits.skipping_writable (skips : Path → Bool) (path : Path) :
    (skipping skips path).Writable := by
  unfold skipping
  split <;> exact ⟨⟨rfl, rfl⟩, rfl⟩

def Changes.skipAll (skipped : List Path) : Changes := skipped.map fun path => (path, Change.skip)

private theorem Changes.edits_skipAll (skipped : List Path) :
    (skipAll skipped).edits = Edits.skipping fun path => decide (path ∈ skipped) := by
  funext path
  induction skipped using List.reverseRecOn with
  | nil => rfl
  | append_singleton skipped last ih =>
      have hlast : skipAll (skipped ++ [last]) = skipAll skipped ++ [(last, Change.skip)] := by
        simp [skipAll]
      rw [hlast, edits_concat, ih]
      simp only [Edits.skipping, decide_eq_true_eq, List.mem_append, List.mem_singleton]
      by_cases hpath : last = path
      · -- A span may be skipped more than once.
        simp only [hpath, or_true, if_true]
        split <;> rfl
      · simp only [hpath, Ne.symm hpath, if_false, or_false]

namespace Span

variable {source : Text} {span child : Span} {skips : Path → Bool} {removed : Int → Bool}
  {position : Int}

def Takes (skips : Path → Bool) (span : Span) (position : Int) : Prop :=
  ∃ path inner, skips path = true ∧ span.descendant? path = some inner ∧ inner.Covers position

def Removes (removed : Int → Bool) (skips : Path → Bool) (span : Span) : Prop :=
  ∀ position, span.Covers position → (removed position = true ↔ span.Takes skips position)

private theorem takes_child {index : Nat} (h : Laid source span) (hroot : skips [] = false)
    (hchild : span.children[index]? = some child) (hcovers : child.Covers position) :
    span.Takes skips position ↔ child.Takes (fun path => skips (index :: path)) position := by
  constructor
  · rintro ⟨path, inner, hskips, hinner, hposition⟩
    cases path with
    | nil => simp [hroot] at hskips
    | cons other path =>
        obtain ⟨sibling, hsibling, hinner⟩ := Option.bind_eq_some_iff.mp hinner
        have hlaid := h.child (List.mem_of_getElem? hsibling)
        obtain rfl := h.consecutive.eq_of_covers hchild hsibling hcovers
          (hlaid.covers_of_descendant hinner hposition)
        obtain rfl : child = sibling := Option.some.inj (hchild.symm.trans hsibling)
        exact ⟨path, inner, hskips, hinner, hposition⟩
  · rintro ⟨path, inner, hskips, hinner, hposition⟩
    exact ⟨index :: path, inner, hskips, (descendant?_cons hchild).trans hinner, hposition⟩

private theorem Laid.bounds_of_takes (h : Laid source span) (hroot : skips [] = false)
    (htakes : span.Takes skips position) :
    span.node.start + span.lead.length ≤ position ∧
      position < span.node.start + span.lead.length + (textAll span.children).length := by
  obtain ⟨path, inner, hskips, hinner, hposition⟩ := htakes
  cases path with
  | nil => simp [hroot] at hskips
  | cons index path =>
      obtain ⟨child, hchild, hinner⟩ := Option.bind_eq_some_iff.mp hinner
      have hmem := List.mem_of_getElem? hchild
      have hbounds := h.consecutive.bounds hmem
      have hcovers := (h.child hmem).covers_of_descendant hinner hposition
      unfold Covers at hcovers
      omega

private theorem renderAll_skipping {offset : Int} {start : Nat} {spans : List Span}
    (hrender : ∀ child ∈ spans, ∀ skips, Removes removed skips child →
      child.render (Edits.skipping skips) = child.text.without removed child.node.start)
    (hspans : Consecutive offset spans)
    (h : ∀ index child, spans[index]? = some child →
      Removes removed (fun path => skips ((start + index) :: path)) child) :
    renderAll (Edits.skipping skips) start spans = (textAll spans).without removed offset := by
  induction spans generalizing offset start with
  | nil => rfl
  | cons first rest ih =>
      obtain ⟨rfl, hrest⟩ := hspans
      obtain ⟨hfirst, hothers⟩ := List.forall_mem_cons.mp hrender
      have hdrawn := hfirst _ (h 0 first rfl)
      have hafter : ∀ index child, rest[index]? = some child →
          Removes removed (fun path => skips ((start + 1 + index) :: path)) child := by
        intro index child hchild
        have hremoves := h (index + 1) child hchild
        rwa [Nat.add_comm index 1, ← Nat.add_assoc] at hremoves
      rw [renderAll, textAll, Text.without_append, ih hothers hrest hafter, ← hdrawn]
      rfl

private theorem render_skipped {edits : Edits} (hedit : edits [] = Change.skip {}) :
    span.render edits = [] := by
  rw [render, draw_eq, hedit]
  rfl

theorem Laid.render_skipping (removed : Int → Bool) (skips : Path → Bool) (h : Laid source span)
    (hremoves : Removes removed skips span) :
    span.render (Edits.skipping skips) = span.text.without removed span.node.start := by
  induction span using inductionOnChildren generalizing skips with
  | step span ih =>
      cases hroot : skips [] with
      | true =>
          have hedit : Edits.skipping skips [] = Change.skip {} := if_pos hroot
          rw [render_skipped hedit, Text.without_eq_nil]
          exact fun position hstart hstop =>
            (hremoves position ⟨hstart, hstop⟩).mpr ⟨[], span, hroot, rfl, hstart, hstop⟩
      | false =>
          have hedit : Edits.skipping skips [] = {} := if_neg (by simp [hroot])
          have hlength := span.length_text_eq
          -- Nothing but the texts of children can be removed.
          have hkept : ∀ position, span.Covers position →
              (position < span.node.start + span.lead.length ∨
                span.node.start + span.lead.length + (textAll span.children).length ≤ position) →
              removed position = false := by
            intro position hcovers houtside
            by_contra hremoved
            have hbounds := h.bounds_of_takes hroot
              ((hremoves position hcovers).mp (by simpa using hremoved))
            omega
          have hlead : span.lead.without removed span.node.start = span.lead :=
            Text.without_eq_self fun position hstart hstop =>
              hkept position ⟨hstart, by omega⟩ (.inl hstop)
          have hending : (span.tail ++ span.separator).without removed
              (span.node.start + (span.lead.length + (textAll span.children).length)) =
              span.tail ++ span.separator :=
            Text.without_eq_self fun position hstart hstop =>
              hkept position ⟨by omega, by omega⟩ (.inr (by omega))
          have hchildren : renderAll (Edits.skipping skips) 0 span.children =
              (textAll span.children).without removed (span.node.start + span.lead.length) := by
            refine renderAll_skipping
              (fun child hchild skips => ih child hchild skips (h.child hchild)) h.consecutive
              fun index child hchild position hcovers => ?_
            have hmem := List.mem_of_getElem? hchild
            rw [hremoves position (h.covers_of_child hmem hcovers),
              takes_child h hroot hchild hcovers, Nat.zero_add]
          rw [render_eq (by rw [hedit]) (by rw [hedit]), text_eq, Text.without_append,
            Text.without_append, hlead, ← hchildren, List.length_append, Nat.cast_add, hending,
            ending, hedit]
          rfl

/-- The position belongs to the text of a span at one of the addresses. -/
def skippedAt (root : Span) (skipped : List Path) (position : Int) : Bool :=
  skipped.any fun path => (root.descendant? path).any fun span => span.Covers position

private theorem removes_skippedAt (root : Span) (skipped : List Path) :
    Removes (root.skippedAt skipped) (fun path => decide (path ∈ skipped)) root := by
  intro position _
  simp [skippedAt, Takes, Option.any_eq_true]

end Span

namespace Overlay

/-- Skipping spans removes the characters of their texts, each from the start of its
node up to the end of the gap behind it, and keeps all others in order. -/
theorem renderAt_skipAll {source : Text} {root : Node} {overlay : Overlay}
    (hordered : ∀ node ∈ root.walk, node.start ≤ node.stop)
    (hstart : 0 ≤ root.start) (hstop : root.stop ≤ source.length)
    (hoverlay : ofNode source root = .ok overlay) (skipped : List Path) :
    overlay.renderAt (Changes.skipAll skipped).edits [] overlay.root =
      .ok ((source.between root.start root.stop).without (overlay.root.skippedAt skipped)
        root.start) := by
  obtain ⟨hroot, hflaws⟩ := ofNode_root hoverlay
  obtain ⟨hnode, hgap, hlaid⟩ := Span.laid_of_ofNode hroot hordered hstart hstop
  have hwithin : (Changes.skipAll skipped).edits.within [] =
      Edits.skipping fun path => decide (path ∈ skipped) := Changes.edits_skipAll skipped
  have htext := hlaid.divided.text
  rw [hgap, List.length_nil, Nat.cast_zero, Int.add_zero, hnode] at htext
  rw [renderAt_of_writable hflaws (hwithin ▸ Edits.skipping_writable _), hwithin,
    hlaid.render_skipping _ _ (Span.removes_skippedAt overlay.root skipped), htext, hnode]

/-- A span is skipped together with its only child, which holds the gap behind both;
another one has nothing but its gap. -/
theorem renderAt_skipAll_nested :
    ∃ overlay, ofNode Span.nestedText Span.nestedNode = .ok overlay ∧
      overlay.renderAt (Changes.skipAll [[0, 1], [0, 1, 0], [2]]).edits [] overlay.root =
        .ok "acde".toList := by
  obtain ⟨overlay, hoverlay⟩ : ∃ overlay, ofNode Span.nestedText Span.nestedNode = .ok overlay :=
    ⟨_, rfl⟩
  have hskipped := renderAt_skipAll (by decide) (by decide)
    (by decide : Span.nestedNode.stop ≤ Span.nestedText.length) hoverlay [[0, 1], [0, 1, 0], [2]]
  refine ⟨overlay, hoverlay, hskipped.trans (congrArg Except.ok ?_)⟩
  cases hoverlay
  decide

end Overlay

end ApiSurface
