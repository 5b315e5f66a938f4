import ApiSurface.Proofs.Emit.Way

/-!
# Arguments of import types

The type arguments of an import type are drawn one by one, without the blanks
around them, and put into the text that takes the place of the import type.
-/

namespace ApiSurface

/-! ## Texts inside texts -/

namespace Text

theorem trim_starts_dropWhile (text : Text) : text.trim <+: text.dropWhile isBlank := by
  have h := @List.dropWhile_suffix _ (text.dropWhile isBlank).reverse isBlank
  simpa [trim] using List.reverse_prefix.mpr h

theorem trim_infix (text : Text) : text.trim <:+: text := by
  have hfront : text.dropWhile isBlank <:+: text := (List.dropWhile_suffix _).isInfix
  exact text.trim_starts_dropWhile.isInfix.trans hfront

variable {first : Char} {text : Text}

theorem dropWhile_append_of_kept {dropped : Char → Bool} (hfirst : dropped first = false)
    (front rest : Text) :
    (front ++ first :: rest).dropWhile dropped = front.dropWhile dropped ++ first :: rest := by
  rw [List.dropWhile_append]
  split
  · rename_i hempty
    simp [List.isEmpty_iff.mp hempty, hfirst]
  · rfl

theorem infix_dropWhile {dropped : Char → Bool} {other : Text} (hinside : text <:+: other)
    (hfirst : ∀ first, text.head? = some first → dropped first = false) :
    text <:+: other.dropWhile dropped := by
  cases text with
  | nil => exact List.nil_infix
  | cons first rest =>
      obtain ⟨front, back, rfl⟩ := hinside
      refine ⟨front.dropWhile dropped, back, ?_⟩
      rw [List.append_assoc, List.append_assoc, List.cons_append,
        dropWhile_append_of_kept (hfirst first rfl)]

theorem head?_dropWhile {dropped : Char → Bool}
    (h : (text.dropWhile dropped).head? = some first) : dropped first = false := by
  induction text with
  | nil => simp at h
  | cons character rest ih =>
      rw [List.dropWhile_cons] at h
      split at h
      · exact ih h
      · rename_i hkept
        obtain rfl : character = first := by simpa using h
        simpa using hkept

theorem head?_trim (h : text.trim.head? = some first) :
    isBlank first = false := by
  obtain ⟨rest, hrest⟩ := text.trim_starts_dropWhile
  have hfirst : (text.dropWhile isBlank).head? = some first := by
    simp [← hrest, h]
  exact head?_dropWhile hfirst

theorem head?_reverse_trim {last : Char} (h : text.trim.reverse.head? = some last) :
    isBlank last = false := by
  rw [trim, List.reverse_reverse] at h
  exact head?_dropWhile h

theorem trim_infix_trim {other : Text} (h : text.trim <:+: other) :
    text.trim <:+: other.trim := by
  have hfront := infix_dropWhile h fun _ => head?_trim
  have hback := infix_dropWhile (List.reverse_infix.mpr hfront) fun _ => head?_reverse_trim
  simpa [trim] using List.reverse_infix.mpr hback

structure Tight (text : Text) : Prop where
  ne_nil : text ≠ []
  trimmed : text.trim = text

theorem Tight.trim_around (h : Tight text) (before after : Text) :
    trim (before ++ text ++ after) =
      before.dropWhile isBlank ++ text ++ after.rdropWhile isBlank := by
  obtain ⟨first, rest, hfirst⟩ := List.exists_cons_of_ne_nil h.ne_nil
  obtain ⟨front, last, hlast⟩ := (List.eq_nil_or_concat' text).resolve_left h.ne_nil
  have hopening : isBlank first = false := by
    have hhead : text.trim.head? = some first := by rw [h.trimmed, hfirst]; rfl
    exact head?_trim hhead
  have hclosing : isBlank last = false := by
    have hhead : text.trim.reverse.head? = some last := by rw [h.trimmed, hlast]; simp
    exact head?_reverse_trim hhead
  have hfront : (before ++ text ++ after).dropWhile isBlank =
      before.dropWhile isBlank ++ text ++ after := by
    rw [List.append_assoc, hfirst, List.cons_append, dropWhile_append_of_kept hopening,
      List.append_assoc, List.cons_append]
  have hback : (before.dropWhile isBlank ++ text ++ after).reverse.dropWhile isBlank =
      after.reverse.dropWhile isBlank ++ (before.dropWhile isBlank ++ text).reverse := by
    have hreverse : (before.dropWhile isBlank ++ text).reverse =
        last :: (before.dropWhile isBlank ++ front).reverse := by simp [hlast]
    rw [List.reverse_append, hreverse, dropWhile_append_of_kept hclosing]
  rw [trim, hfront, hback, List.reverse_append, List.reverse_reverse, List.rdropWhile]

theorem join_append (separator : Text) (earlier : List Text) (text : Text)
    (later : List Text) :
    join separator (earlier ++ text :: later) =
      earlier.flatMap (· ++ separator) ++ text ++ later.flatMap (separator ++ ·) := by
  unfold join
  induction earlier with
  | nil =>
      induction later generalizing text with
      | nil => simp
      | cons next later ih =>
          have hrest := ih next
          rw [List.nil_append] at hrest ⊢
          rw [List.intersperse_cons_cons, List.flatten_cons, List.flatten_cons, hrest]
          simp
  | cons first earlier ih =>
      obtain ⟨next, others, hnext⟩ : ∃ next others,
          earlier ++ text :: later = next :: others :=
        List.exists_cons_of_ne_nil (by simp)
      rw [List.cons_append, hnext, List.intersperse_cons_cons, ← hnext, List.flatten_cons,
        List.flatten_cons, ih]
      simp

theorem infix_join {pieces : List Text} {piece : Text} (separator : Text)
    (h : piece ∈ pieces) : piece <:+: join separator pieces := by
  obtain ⟨earlier, later, rfl⟩ := List.append_of_mem h
  rw [join_append]
  exact List.infix_append _ _ _

end Text

namespace Emit

variable {edits : Edits} {path : Path} {span : Span} {index start : Nat}
  {texts : List Text}

/-! ## Positions of arguments -/

/-- The child at a position stands between the angle brackets. -/
def IsArgument (span : Span) (index : Nat) : Prop :=
  ∃ less greater, (span.children.map Span.kind).idxOf? .lessThanToken = some less ∧
    (span.children.map Span.kind).idxOf? .greaterThanToken = some greater ∧
    less < index ∧ index < greater

variable {source : Text} {spans : List Span}

theorem isArgument_iff {bounds : Option (Nat × Nat)}
    (h : argumentBounds source span = .ok bounds) :
    IsArgument span index ↔
      ∃ brackets, bounds = some brackets ∧ brackets.1 < index ∧ index < brackets.2 := by
  unfold argumentBounds at h
  unfold IsArgument
  simp only at h
  split at h
  · split at h
    · split at h
      · cases h
        simp_all
      · cases h
    · cases h
  · rename_i hnone
    cases h
    have hless : (span.children.map Span.kind).idxOf? .lessThanToken = none := by
      apply List.idxOf?_eq_none_iff.mpr
      simp_all
    simp [hless]

theorem isArgument_iff_between {bounds : Option (Nat × Nat)}
    (h : argumentBounds source span = .ok bounds) :
    IsArgument span index ↔
      (bounds.map fun bounds => decide (bounds.1 < index && index < bounds.2)).getD false =
        true := by
  rw [isArgument_iff h]
  cases bounds <;> simp

/-- The spans from a position on that are no commas, with their addresses. -/
def items (path : Path) : Nat → List Span → List (Path × Span)
  | _, [] => []
  | index, span :: rest =>
      (if span.kind = .commaToken then [] else [(path ++ [index], span)]) ++
        items path (index + 1) rest

/-- The arguments among some spans, with their addresses; a list holds several of
them. -/
def argumentsAmong (bounds : Nat × Nat) : Nat → List Span → List (Path × Span)
  | _, [] => []
  | index, span :: rest =>
      (if bounds.1 < index && index < bounds.2 then
        if span.kind = .syntaxList then items [index] 0 span.children
        else items [] index [span]
      else []) ++ argumentsAmong bounds (index + 1) rest

/-- The type arguments of an import type, with their addresses below it. -/
def argumentsOf (span : Span) : List (Path × Span) :=
  match (span.children.map Span.kind).idxOf? .lessThanToken,
      (span.children.map Span.kind).idxOf? .greaterThanToken with
  | some less, some greater => argumentsAmong (less, greater) 0 span.children
  | _, _ => []

theorem argumentsOf_eq {bounds : Nat × Nat} (h : argumentBounds source span = .ok (some bounds)) :
    argumentsOf span = argumentsAmong bounds 0 span.children := by
  unfold argumentBounds at h
  simp only at h
  split at h
  · split at h
    · rename_i less greater hless hgreater
      split at h
      · obtain rfl : (less, greater) = bounds := by simpa using h
        simp [argumentsOf, hless, hgreater]
      · cases h
    · cases h
  · cases h

theorem mem_items {address : Path} {item : Span} :
    (address, item) ∈ items path start spans ↔
      ∃ index, spans[index]? = some item ∧ item.kind ≠ .commaToken ∧
        address = path ++ [start + index] := by
  induction spans generalizing start with
  | nil => simp [items]
  | cons first rest ih =>
      rw [items, List.mem_append, ih]
      constructor
      · rintro (hfirst | ⟨index, hindex, hkind, rfl⟩)
        · split_ifs at hfirst with hcomma
          · cases hfirst
          · obtain ⟨rfl, rfl⟩ := Prod.mk.inj (List.mem_singleton.mp hfirst)
            exact ⟨0, rfl, hcomma, rfl⟩
        · exact ⟨index + 1, by simpa using hindex, hkind, by rw [Nat.add_right_comm]; rfl⟩
      · rintro ⟨index, hindex, hkind, rfl⟩
        cases index with
        | zero =>
            obtain rfl : first = item := by simpa using hindex
            exact .inl (by simp [hkind])
        | succ index =>
            exact .inr ⟨index, by simpa using hindex, hkind, by rw [Nat.add_right_comm]; rfl⟩

theorem mem_argumentsAmong {bounds : Nat × Nat} {argument : Path × Span} :
    argument ∈ argumentsAmong bounds start spans ↔
      ∃ index child, spans[index]? = some child ∧ bounds.1 < start + index ∧
        start + index < bounds.2 ∧
        argument ∈ if child.kind = .syntaxList then items [start + index] 0 child.children
          else items [] (start + index) [child] := by
  induction spans generalizing start with
  | nil => simp [argumentsAmong]
  | cons first rest ih =>
      rw [argumentsAmong, List.mem_append, ih]
      constructor
      · rintro (hfirst | ⟨index, child, hchild, hless, hgreater, hmem⟩)
        · split at hfirst
          · rename_i hbetween
            obtain ⟨hless, hgreater⟩ : bounds.1 < start ∧ start < bounds.2 := by
              simpa using hbetween
            exact ⟨0, first, rfl, hless, hgreater, hfirst⟩
          · cases hfirst
        · rw [Nat.add_right_comm] at hless hgreater hmem
          exact ⟨index + 1, child, by simpa using hchild, hless, hgreater, hmem⟩
      · rintro ⟨index, child, hchild, hless, hgreater, hmem⟩
        cases index with
        | zero =>
            obtain rfl : first = child := by simpa using hchild
            rw [if_pos (by simpa using ⟨hless, hgreater⟩)]
            exact .inl hmem
        | succ index =>
            rw [← Nat.add_assoc, Nat.add_right_comm] at hless hgreater hmem
            exact .inr ⟨index, child, by simpa using hchild, hless, hgreater, hmem⟩

theorem mem_argumentsOf {argument : Path × Span} :
    argument ∈ argumentsOf span ↔
      ∃ index child, IsArgument span index ∧ span.children[index]? = some child ∧
        argument ∈ if child.kind = .syntaxList then items [index] 0 child.children
          else items [] index [child] := by
  unfold argumentsOf IsArgument
  split
  · rename_i less greater hless hgreater
    rw [mem_argumentsAmong]
    simp only [Nat.zero_add, hless, hgreater, Option.some.injEq]
    constructor
    · rintro ⟨index, child, hchild, hfirst, hlast, hmem⟩
      exact ⟨index, child, ⟨less, greater, rfl, rfl, hfirst, hlast⟩, hchild, hmem⟩
    · rintro ⟨index, child, ⟨_, _, rfl, rfl, hfirst, hlast⟩, hchild, hmem⟩
      exact ⟨index, child, hchild, hfirst, hlast, hmem⟩
  · rename_i hnone
    constructor
    · intro hmem
      cases hmem
    · rintro ⟨_, _, ⟨less, greater, hless, hgreater, _, _⟩, _, _⟩
      exact absurd hgreater (hnone less greater hless)

theorem address_of_argument {argument : Path × Span} (h : argument ∈ argumentsOf span) :
    ∃ index rest, argument.1 = index :: rest := by
  obtain ⟨index, child, _, _, hmem⟩ := mem_argumentsOf.mp h
  split at hmem
  all_goals
    obtain ⟨_, _, _, haddress⟩ := mem_items.mp hmem
    exact ⟨_, _, haddress⟩

theorem descendant?_argument {argument : Path × Span} (h : argument ∈ argumentsOf span) :
    span.descendant? argument.1 = some argument.2 := by
  obtain ⟨address, item⟩ := argument
  obtain ⟨index, child, _, stands, hmem⟩ := mem_argumentsOf.mp h
  split at hmem
  · obtain ⟨position, hitem, _, rfl⟩ := mem_items.mp hmem
    simp [Span.descendant?, stands, hitem]
  · obtain ⟨position, hitem, _, rfl⟩ := mem_items.mp hmem
    cases position with
    | zero => simpa [Span.descendant?, stands] using hitem
    | succ position => simp at hitem

/-! ## Texts of arguments -/

def argumentText (edits : Edits) (argument : Path × Span) : Text :=
  Text.trim (argument.2.render (edits.within argument.1))

theorem trimmedTexts_eq {base : Path}
    (h : trimmedTexts edits (path ++ base) start spans = .ok texts) :
    texts = (items base start spans).map (argumentText (edits.within path)) := by
  induction spans generalizing start texts with
  | nil =>
      cases h
      rfl
  | cons first rest ih =>
      simp only [trimmedTexts] at h
      rw [items, List.map_append]
      split_ifs at h ⊢
      · simp only [bind_eq_ok, pure_eq_ok] at h
        obtain ⟨_, rfl, others, hothers, rfl⟩ := h
        rw [ih hothers]
        rfl
      · simp only [bind_eq_ok, pure_eq_ok] at h
        obtain ⟨text, htext, _, rfl, others, hothers, rfl⟩ := h
        unfold trimmedText at htext
        split at htext
        · cases htext
        · cases htext
          rw [ih hothers, List.append_assoc]
          simp [argumentText, Edits.within_within]

theorem argumentTexts_eq {bounds : Nat × Nat}
    (h : argumentTexts edits path bounds start spans = .ok texts) :
    texts = (argumentsAmong bounds start spans).map (argumentText (edits.within path)) := by
  induction spans generalizing start texts with
  | nil =>
      cases h
      rfl
  | cons first rest ih =>
      simp only [argumentTexts] at h
      rw [argumentsAmong, List.map_append]
      split_ifs at h ⊢
      all_goals
        simp only [bind_eq_ok, pure_eq_ok] at h
        obtain ⟨here, hhere, others, hothers, rfl⟩ := h
        rw [ih hothers]
      · rw [trimmedTexts_eq hhere]
      · have hhere' : trimmedTexts edits (path ++ []) start [first] = .ok here := by
          simpa using hhere
        rw [trimmedTexts_eq hhere']
      · subst hhere
        rfl

end Emit

end ApiSurface
