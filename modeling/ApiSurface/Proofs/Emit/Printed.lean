import ApiSurface.Proofs.Emit.Arguments

/-!
# Texts in their places

A span that keeps its children in order draws its lead, its children one after the
other, and its tail.  An import type that is written anew draws its arguments without
the blanks around them.  Along both, the text of a descendant has its place in the
text of the whole, between what is drawn before it and what is drawn after it.
-/

namespace ApiSurface

namespace Emit

variable {edits : Edits} {span child target : Span} {path : Path}
  {before piece after : Text}

/-- A piece of text is drawn for the descendant at an address, at the start of its
text, with what the whole span draws before and after it. -/
inductive Printed : Edits → Span → Path → Text → Text → Text → Prop
  | starts {edits : Edits} {span : Span} {piece after : Text}
      (drawn : span.render edits = piece ++ after) : Printed edits span [] [] piece after
  | child {edits : Edits} {span child : Span} {index : Nat} {rest : Path}
      {before piece after : Text} (shown : (edits []).omitChildren = false)
      (inOrder : (edits []).sortChildren = false)
      (stands : span.children[index]? = some child)
      (inside : Printed (edits.below index) child rest before piece after) :
      Printed edits span (index :: rest)
        ((edits []).lead.getD span.lead ++
          Span.renderAll edits 0 (span.children.take index) ++ before)
        piece
        (after ++ Span.renderAll edits (index + 1) (span.children.drop (index + 1)) ++
          Span.ending edits span)
  | argument {edits : Edits} {span : Span} {argument : Path × Span}
      {earlier later : List (Path × Span)} {rest : Path} {head before piece after : Text}
      (kind : span.kind = .importType)
      (written : span.render edits = head ++ ['<'] ++ Text.join [',', ' ']
        ((argumentsOf span).map (argumentText edits)) ++ ['>'])
      (listed : argumentsOf span = earlier ++ argument :: later)
      (tight : Text.Tight piece)
      (inside : Printed (edits.within argument.1) argument.2 rest before piece after) :
      Printed edits span (argument.1 ++ rest)
        (head ++ ['<'] ++
          (earlier.map (argumentText edits)).flatMap (· ++ [',', ' ']) ++
          before.dropWhile Text.isBlank)
        piece
        (after.rdropWhile Text.isBlank ++
          (later.map (argumentText edits)).flatMap ([',', ' '] ++ ·) ++ ['>'])

theorem Printed.render_eq (h : Printed edits span path before piece after) :
    span.render edits = before ++ piece ++ after := by
  induction h with
  | starts drawn => exact drawn
  | child shown inOrder stands _ ih =>
      rw [Span.render_eq shown inOrder, Span.renderAll_split stands, Nat.zero_add, ih]
      simp
  | @argument edits _ argument _ _ _ _ before piece after _ written listed tight _ ih =>
      have htext : argumentText edits argument =
          before.dropWhile Text.isBlank ++ piece ++ after.rdropWhile Text.isBlank := by
        rw [argumentText, ih, tight.trim_around]
      rw [written, listed, List.map_append, List.map_cons, Text.join_append, htext]
      simp

theorem exists_printed_of_untouched (hnone : ∀ address, edits address = {})
    (hpath : span.descendant? path = some target)
    (hdrawn : target.render (edits.within path) = piece ++ after) :
    ∃ before after, Printed edits span path before piece after := by
  induction path generalizing span edits with
  | nil =>
      obtain rfl : span = target := by simpa [Span.descendant?] using hpath
      exact ⟨[], after, .starts hdrawn⟩
  | cons index path ih =>
      cases hchild : span.children[index]? with
      | none => simp [Span.descendant?, hchild] at hpath
      | some child =>
          rw [Span.descendant?_cons hchild] at hpath
          have hbelow : ∀ address, edits.below index address = {} :=
            fun address => hnone (index :: address)
          obtain ⟨before, after, hinside⟩ := ih hbelow hpath hdrawn
          exact ⟨_, _, .child (by rw [hnone]) (by rw [hnone]) hchild hinside⟩

end Emit

end ApiSurface
