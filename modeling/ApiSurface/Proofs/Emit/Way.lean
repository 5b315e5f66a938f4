import ApiSurface.Emit.ImportType
import ApiSurface.Emit.Trail
import ApiSurface.Proofs.Overlay.Drawing

/-!
# Ways through spans

A document is written by walking down the spans of a declaration.  The trail of
a walk is determined by where it starts and by the address it has come to, and
so are the declarations on its way.
-/

namespace ApiSurface

namespace Emit

/-! ## Addresses of siblings -/

theorem sibling_concat (path : Path) (index : Nat) (move : Nat → Nat) :
    sibling (path ++ [index]) move = path ++ [move index] := by
  simp [sibling]

/-! ## Trails -/

/-- The span before a position; what stands before the first is given. -/
def siblingBefore (previous : Option Span) (spans : List Span) : Nat → Option Span
  | 0 => previous
  | index + 1 => spans[index]?

namespace Trail

def step (trail : Trail) (span : Span) (index : Nat) : Trail :=
  trail.child span index (siblingBefore none span.children index)
    span.children[index + 1]?

def down (trail : Trail) (span : Span) : Path → Trail
  | [] => trail
  | index :: rest =>
      match span.children[index]? with
      | some child => (trail.step span index).down child rest
      | none => trail

variable {trail : Trail} {span child inner : Span} {path rest : Path} {index : Nat}

theorem down_cons (hchild : span.children[index]? = some child) :
    trail.down span (index :: rest) = (trail.step span index).down child rest := by
  simp [down, hchild]

theorem down_append (h : span.descendant? path = some inner) :
    trail.down span (path ++ rest) = (trail.down span path).down inner rest := by
  induction path generalizing span trail with
  | nil =>
      obtain rfl : span = inner := by simpa [Span.descendant?] using h
      rfl
  | cons index path ih =>
      cases hchild : span.children[index]? with
      | none => simp [Span.descendant?, hchild] at h
      | some child =>
          rw [Span.descendant?_cons hchild] at h
          rw [List.cons_append, down_cons hchild, down_cons hchild]
          exact ih h

theorem down_concat (h : span.descendant? path = some inner)
    (hchild : inner.children[index]? = some child) :
    trail.down span (path ++ [index]) = (trail.down span path).step inner index := by
  rw [down_append h, down_cons hchild, down]

theorem path_down (h : span.descendant? path = some inner) :
    (trail.down span path).path = trail.path ++ path := by
  induction path generalizing span trail with
  | nil => simp [down]
  | cons index path ih =>
      cases hchild : span.children[index]? with
      | none => simp [Span.descendant?, hchild] at h
      | some child =>
          rw [Span.descendant?_cons hchild] at h
          rw [down_cons hchild, ih h]
          simp [step, Trail.child]

theorem mem_above_down {frame : Frame} (h : span.descendant? path = some inner)
    (hframe : frame ∈ (trail.down span path).above) :
    frame ∈ trail.above ∨
      ∃ first index last, path = first ++ index :: last ∧
        span.descendant? first = some frame.span ∧
        frame.path = trail.path ++ first ∧ frame.next = (trail.down span first).next := by
  induction path generalizing span trail with
  | nil => exact .inl hframe
  | cons index path ih =>
      cases hchild : span.children[index]? with
      | none => simp [Span.descendant?, hchild] at h
      | some child =>
          rw [Span.descendant?_cons hchild] at h
          rw [down_cons hchild] at hframe
          rcases ih h hframe with hframe | ⟨first, next, last, hpath, hspan, haddress, hnext⟩
          · rcases List.mem_cons.mp hframe with rfl | hframe
            · exact .inr ⟨[], index, path, rfl, rfl, by simp, rfl⟩
            · exact .inl hframe
          · refine .inr ⟨index :: first, next, last, by rw [hpath]; rfl, ?_, ?_, ?_⟩
            · rwa [Span.descendant?_cons hchild]
            · rw [haddress]
              simp [step, Trail.child]
            · rw [hnext, down_cons hchild]

end Trail

/-! ## Changes of one child after another -/

section Gather

variable {each : Nat → Option Span → Option Span → Span → Except Fault Changes}

/-- The changes of some spans in order; each is given its position and its
neighbours. -/
def gather (each : Nat → Option Span → Option Span → Span → Except Fault Changes) :
    Nat → Option Span → List Span → Except Fault Changes
  | _, _, [] => .ok []
  | index, previous, child :: rest => do
      let changes ← each index previous rest.head? child
      let others ← gather each (index + 1) (some child) rest
      pure (changes ++ others)

def Gathered (each : Nat → Option Span → Option Span → Span → Except Fault Changes)
    (start : Nat) (previous : Option Span) (spans : List Span) (index : Nat)
    (part : Changes) : Prop :=
  ∃ span, spans[index]? = some span ∧
    each (start + index) (siblingBefore previous spans index) spans[index + 1]? span =
      .ok part

theorem Gathered.first {start : Nat} {previous : Option Span} {first : Span}
    {rest : List Span} {part : Changes}
    (h : each start previous rest.head? first = .ok part) :
    Gathered each start previous (first :: rest) 0 part := by
  refine ⟨first, rfl, ?_⟩
  simpa [siblingBefore, List.head?_eq_getElem?] using h

theorem Gathered.succ {start index : Nat} {previous : Option Span} {first : Span}
    {rest : List Span} {part : Changes}
    (h : Gathered each (start + 1) (some first) rest index part) :
    Gathered each start previous (first :: rest) (index + 1) part := by
  obtain ⟨span, hspan, hpart⟩ := h
  refine ⟨span, by simpa using hspan, ?_⟩
  rw [Nat.add_right_comm, Nat.add_assoc] at hpart
  cases index with
  | zero => simpa [siblingBefore] using hpart
  | succ index => simpa [siblingBefore] using hpart

theorem mem_gather {start : Nat} {previous : Option Span} {spans : List Span}
    {changes : Changes} {change : Path × Change}
    (h : gather each start previous spans = .ok changes) (hchange : change ∈ changes) :
    ∃ index part, Gathered each start previous spans index part ∧ change ∈ part := by
  induction spans generalizing start previous changes with
  | nil =>
      cases h
      cases hchange
  | cons first rest ih =>
      simp only [gather, bind_eq_ok, pure_eq_ok] at h
      obtain ⟨here, hhere, others, hothers, rfl⟩ := h
      rcases List.mem_append.mp hchange with hchange | hchange
      · exact ⟨0, here, .first hhere, hchange⟩
      · obtain ⟨index, part, hpart, hmem⟩ := ih hothers hchange
        exact ⟨index + 1, part, hpart.succ, hmem⟩

theorem gather_split {start index : Nat} {previous : Option Span} {spans : List Span}
    {span : Span} {changes : Changes} (h : gather each start previous spans = .ok changes)
    (hspan : spans[index]? = some span) :
    ∃ before part after, changes = before ++ part ++ after ∧
      Gathered each start previous spans index part ∧
      ∀ change ∈ before ++ after, ∃ other part', other ≠ index ∧
        Gathered each start previous spans other part' ∧ change ∈ part' := by
  induction spans generalizing start index previous changes with
  | nil => simp at hspan
  | cons first rest ih =>
      simp only [gather, bind_eq_ok, pure_eq_ok] at h
      obtain ⟨here, hhere, others, hothers, rfl⟩ := h
      have hfirst : Gathered each start previous (first :: rest) 0 here := .first hhere
      cases index with
      | zero =>
          refine ⟨[], here, others, rfl, hfirst, fun change hchange => ?_⟩
          obtain ⟨other, part', hpart, hmem⟩ := mem_gather hothers hchange
          exact ⟨other + 1, part', by omega, hpart.succ, hmem⟩
      | succ index =>
          obtain ⟨before, part, after, rfl, hpart, hothers⟩ :=
            ih hothers (by simpa using hspan)
          refine ⟨here ++ before, part, after, by simp, hpart.succ, ?_⟩
          intro change hchange
          rw [List.append_assoc] at hchange
          rcases List.mem_append.mp hchange with hchange | hchange
          · exact ⟨0, here, by omega, hfirst, hchange⟩
          · obtain ⟨other, part', hother, hpart', hmem⟩ := hothers change hchange
            exact ⟨other + 1, part', by omega, hpart'.succ, hmem⟩

end Gather

/-! ## Declarations on the way -/

/-- The way from the span of a declaration to an address, with the members it
comes to and the span at its end. -/
inductive Way : Declaration → Span → Path → List Declaration → Span → Prop
  | here {declaration : Declaration} {span : Span} : Way declaration span [] [] span
  | through {declaration : Declaration} {span child inner : Span} {index : Nat}
      {rest : Path} {chain : List Declaration}
      (stands : span.children[index]? = some child)
      (transparent : child.kind.isDeclaration = false)
      (below : Way declaration child rest chain inner) :
      Way declaration span (index :: rest) chain inner
  | member {declaration member : Declaration} {span child inner : Span} {index : Nat}
      {rest : Path} {chain : List Declaration}
      (stands : span.children[index]? = some child)
      (declares : child.kind.isDeclaration = true)
      (found : Surface.member declaration child.node = .ok member)
      (below : Way member child rest chain inner) :
      Way declaration span (index :: rest) (member :: chain) inner

namespace Way

variable {declaration : Declaration} {span inner : Span} {path rest : Path}
  {chain : List Declaration}

theorem descendant? (h : Way declaration span path chain inner) :
    span.descendant? path = some inner := by
  induction h with
  | here => rfl
  | through stands _ _ ih => rwa [Span.descendant?_cons stands]
  | member stands _ _ _ ih => rwa [Span.descendant?_cons stands]

theorem append {rest : Path} {later : List Declaration} {last : Span}
    (h : Way declaration span path chain inner)
    (hrest : Way (chain.getLastD declaration) inner rest later last) :
    Way declaration span (path ++ rest) (chain ++ later) last := by
  induction h with
  | here => exact hrest
  | through stands transparent _ ih => exact .through stands transparent (ih hrest)
  | @member _ member _ _ _ _ _ chain stands declares found _ ih =>
      refine .member stands declares found (ih ?_)
      cases chain <;> exact hrest

theorem split (h : Way declaration span (path ++ rest) chain inner) :
    ∃ earlier later between, chain = earlier ++ later ∧
      Way declaration span path earlier between ∧
      Way (earlier.getLastD declaration) between rest later inner := by
  induction path generalizing declaration span chain with
  | nil => exact ⟨[], chain, span, rfl, .here, h⟩
  | cons index path ih =>
      cases h with
      | through stands transparent below =>
          obtain ⟨earlier, later, between, rfl, hfirst, hlast⟩ := ih below
          exact ⟨earlier, later, between, rfl, .through stands transparent hfirst, hlast⟩
      | member stands declares found below =>
          obtain ⟨earlier, later, between, rfl, hfirst, hlast⟩ := ih below
          refine ⟨_ :: earlier, later, between, rfl,
            .member stands declares found hfirst, ?_⟩
          cases earlier <;> exact hlast

theorem unique {chain' : List Declaration} {inner' : Span}
    (h : Way declaration span path chain inner)
    (h' : Way declaration span path chain' inner') : chain = chain' ∧ inner = inner' := by
  induction h generalizing chain' with
  | here =>
      cases h'
      exact ⟨rfl, rfl⟩
  | through stands transparent _ ih =>
      cases h' with
      | through stands' _ below' =>
          obtain rfl := Option.some.inj (stands.symm.trans stands')
          exact ih below'
      | member stands' declares' _ _ =>
          obtain rfl := Option.some.inj (stands.symm.trans stands')
          simp [transparent] at declares'
  | member stands declares found _ ih =>
      cases h' with
      | through stands' transparent' _ =>
          obtain rfl := Option.some.inj (stands.symm.trans stands')
          simp [declares] at transparent'
      | member stands' _ found' below' =>
          obtain rfl := Option.some.inj (stands.symm.trans stands')
          obtain rfl := Except.ok.inj (found.symm.trans found')
          obtain ⟨rfl, rfl⟩ := ih below'
          exact ⟨rfl, rfl⟩

end Way

end Emit

end ApiSurface
