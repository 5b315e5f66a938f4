import ApiSurface.Proofs.Emit.Arguments

/-!
# Pages

The text of a span consists of the text of one of its descendants and of a page around it.
A page is put together on the way to the descendant: every span that is written with its
children adds what it draws before and after one of them, and every import type that is
written anew adds what it writes before and after one of its arguments, which it trims.
-/

namespace ApiSurface

namespace Emit

inductive Page where
  | blank
  | around (before : Text) (inside : Page) (after : Text)
  | argument (before : Text) (inside : Page) (after : Text)

def Page.fill : Page → Text → Text
  | .blank, text => text
  | .around before inside after, text => before ++ inside.fill text ++ after
  | .argument before inside after, text => before ++ Text.trim (inside.fill text) ++ after

variable {edits : Edits} {span target : Span} {path : Path} {page : Page} {source : Text}

/-- The type arguments between angle brackets, if there are any. -/
def argumentList (edits : Edits) (span : Span) : Text :=
  if .lessThanToken ∈ span.children.map Span.kind then
    ['<'] ++ Text.join [',', ' '] ((argumentsOf span).map (argumentText edits)) ++ ['>']
  else []

inductive Framed : Edits → Span → Path → Page → Prop
  | here {edits : Edits} {span : Span} : Framed edits span [] .blank
  | child {edits : Edits} {span child : Span} {index : Nat} {rest : Path} {page : Page}
      (shown : (edits []).omitChildren = false) (inOrder : (edits []).sortChildren = false)
      (stands : span.children[index]? = some child)
      (inside : Framed (edits.below index) child rest page) :
      Framed edits span (index :: rest)
        (.around
          ((edits []).lead.getD span.lead ++ Span.renderAll edits 0 (span.children.take index))
          page
          (Span.renderAll edits (index + 1) (span.children.drop (index + 1)) ++
            Span.ending edits span))
  | argument {edits : Edits} {span : Span} {argument : Path × Span}
      {earlier later : List (Path × Span)} {rest : Path} {head : Text} {page : Page}
      (kind : span.kind = .importType)
      (written : span.render edits = head ++ argumentList edits span)
      (listed : argumentsOf span = earlier ++ argument :: later)
      (inside : Framed (edits.within argument.1) argument.2 rest page) :
      Framed edits span (argument.1 ++ rest)
        (.argument
          (head ++ ['<'] ++ (earlier.map (argumentText edits)).flatMap (· ++ [',', ' ']))
          page
          ((later.map (argumentText edits)).flatMap ([',', ' '] ++ ·) ++ ['>']))

theorem argumentList_of_mem {argument : Path × Span} (h : argument ∈ argumentsOf span) :
    argumentList edits span =
      ['<'] ++ Text.join [',', ' '] ((argumentsOf span).map (argumentText edits)) ++ ['>'] := by
  obtain ⟨_, _, ⟨less, _, hless, _⟩, _⟩ := mem_argumentsOf.mp h
  rw [argumentList, if_pos]
  by_contra hnone
  simp [List.idxOf?_eq_none_iff.mpr hnone] at hless

theorem Framed.render_eq (h : Framed edits span path page)
    (hpath : span.descendant? path = some target) :
    span.render edits = page.fill (target.render (edits.within path)) := by
  induction h with
  | here =>
      obtain rfl : _ = target := Option.some.inj hpath
      rfl
  | child shown inOrder stands _ ih =>
      rw [Span.descendant?_cons stands] at hpath
      rw [Span.render_eq shown inOrder, Span.renderAll_split stands, Nat.zero_add, ih hpath,
        Page.fill]
      simp only [List.append_assoc]
      rfl
  | @argument edits span argument earlier later rest head page _ written listed _ ih =>
      have hmem : argument ∈ argumentsOf span := by simp [listed]
      rw [Span.descendant?_append (descendant?_argument hmem)] at hpath
      -- Only this argument depends on the descendant; the others are part of the page.
      have htext : argumentText edits argument = Text.trim
          (page.fill (target.render (edits.within (argument.1 ++ rest)))) := by
        rw [argumentText, ih hpath, Edits.within_within]
      rw [written, argumentList_of_mem hmem, listed, List.map_append, List.map_cons,
        Text.join_append, htext, Page.fill]
      simp only [List.append_assoc]

/-! ## Addresses of arguments -/

def Beside (first second : Path) : Prop := ¬ first <+: second ∧ ¬ second <+: first

theorem Beside.of_heads {first second : Nat} {rest later : Path} (h : first ≠ second) :
    Beside (first :: rest) (second :: later) := by
  constructor
  · rw [List.cons_prefix_cons]
    exact fun hboth => h hboth.1
  · rw [List.cons_prefix_cons]
    exact fun hboth => h hboth.1.symm

theorem Beside.symm {first second : Path} (h : Beside first second) : Beside second first :=
  ⟨h.2, h.1⟩

theorem Beside.append_left {first second : Path} (front : Path) (h : Beside first second) :
    Beside (front ++ first) (front ++ second) := by
  rwa [Beside, List.prefix_append_right_inj, List.prefix_append_right_inj]

theorem Beside.append_right {first second : Path} (rest : Path) (h : Beside first second) :
    Beside first (second ++ rest) := by
  constructor
  · intro hway
    rcases List.prefix_or_prefix_of_prefix hway (List.prefix_append second rest) with
      hfirst | hsecond
    · exact h.1 hfirst
    · exact h.2 hsecond
  · exact fun hway => h.2 ((List.prefix_append _ _).trans hway)

private theorem items_beside (base : Path) (start : Nat) (spans : List Span) :
    (items base start spans).Pairwise fun first second => Beside first.1 second.1 := by
  induction spans generalizing start with
  | nil => exact .nil
  | cons first rest ih =>
      rw [items]
      split
      · exact ih (start + 1)
      · refine List.pairwise_cons.mpr ⟨fun other hmem => ?_, ih (start + 1)⟩
        obtain ⟨position, _, _, haddress⟩ := mem_items.mp (show (other.1, other.2) ∈ _ from hmem)
        rw [haddress]
        exact .append_left _ (.of_heads (by omega))

theorem head_of_argumentsAmong {bounds : Nat × Nat} {start : Nat} {spans : List Span}
    {argument : Path × Span} (h : argument ∈ argumentsAmong bounds start spans) :
    ∃ index rest, argument.1 = (start + index) :: rest := by
  obtain ⟨index, child, _, _, _, hmem⟩ := mem_argumentsAmong.mp h
  split at hmem
  · obtain ⟨_, _, _, haddress⟩ := mem_items.mp (show (argument.1, argument.2) ∈ _ from hmem)
    exact ⟨index, _, haddress⟩
  · obtain ⟨position, hchild, _, haddress⟩ :=
      mem_items.mp (show (argument.1, argument.2) ∈ _ from hmem)
    exact ⟨index + position, [], by rw [haddress, ← Nat.add_assoc]; rfl⟩

theorem argumentsAmong_beside (bounds : Nat × Nat) (start : Nat) (spans : List Span) :
    (argumentsAmong bounds start spans).Pairwise fun first second =>
      Beside first.1 second.1 := by
  induction spans generalizing start with
  | nil => exact .nil
  | cons first rest ih =>
      rw [argumentsAmong]
      refine List.pairwise_append.mpr ⟨?_, ih (start + 1), fun one hone other hother => ?_⟩
      · split
        · split <;> exact items_beside _ _ _
        · exact .nil
      · obtain ⟨index, below, hother⟩ := head_of_argumentsAmong hother
        obtain ⟨below', hone⟩ : ∃ rest, one.1 = start :: rest := by
          split at hone
          · split at hone
            · obtain ⟨_, _, _, haddress⟩ := mem_items.mp (show (one.1, one.2) ∈ _ from hone)
              exact ⟨_, haddress⟩
            · obtain ⟨position, hchild, _, haddress⟩ :=
                mem_items.mp (show (one.1, one.2) ∈ _ from hone)
              cases position with
              | zero => exact ⟨[], haddress⟩
              | succ position => simp at hchild
          · cases hone
        rw [hone, hother]
        exact .of_heads (by omega)

private theorem argumentsOf_beside (span : Span) :
    (argumentsOf span).Pairwise fun first second => Beside first.1 second.1 := by
  unfold argumentsOf
  split
  · exact argumentsAmong_beside _ _ _
  · exact .nil

theorem beside_argument {argument one : Path × Span} {earlier later : List (Path × Span)}
    (listed : argumentsOf span = earlier ++ argument :: later) (hone : one ∈ earlier ++ later) :
    Beside one.1 argument.1 := by
  have hall := argumentsOf_beside span
  rw [listed] at hall
  obtain ⟨_, hlater, hearlier⟩ := List.pairwise_append.mp hall
  rcases List.mem_append.mp hone with hone | hone
  · exact hearlier one hone argument (.head _)
  · exact ((List.pairwise_cons.mp hlater).1 one hone).symm

theorem eq_address_of_argument {argument : Path × Span} {index : Nat} {rest : Path}
    (h : argument ∈ argumentsOf span) (hpath : span.descendant? (index :: rest) = some target)
    (hkind : target.kind ≠ .syntaxList) (hway : index :: rest <+: argument.1) :
    index :: rest = argument.1 := by
  obtain ⟨position, child, _, stands, hmem⟩ := mem_argumentsOf.mp h
  split at hmem
  · rename_i hlist
    obtain ⟨_, _, _, haddress⟩ := mem_items.mp (show (argument.1, argument.2) ∈ _ from hmem)
    rw [haddress, List.singleton_append, List.cons_prefix_cons] at hway
    obtain ⟨rfl, hway⟩ := hway
    rw [Span.descendant?_cons stands] at hpath
    cases rest with
    | nil =>
        obtain rfl := Option.some.inj hpath
        exact absurd hlist hkind
    | cons next rest =>
        obtain ⟨rfl, hend⟩ := List.cons_prefix_cons.mp hway
        rw [haddress, List.prefix_nil.mp hend]
        rfl
  · obtain ⟨_, _, _, haddress⟩ := mem_items.mp (show (argument.1, argument.2) ∈ _ from hmem)
    rw [haddress, List.nil_append, List.cons_prefix_cons] at hway
    obtain ⟨rfl, hway⟩ := hway
    rw [haddress, List.prefix_nil.mp hway]
    rfl

end Emit

end ApiSurface
