import ApiSurface.Rollup
import ApiSurface.Proofs.Emit.Arguments
import ApiSurface.Proofs.Surface.Items

/-!
# Walking through a declaration

Revising a declaration walks down its spans.  `Visits` says where the walk goes
and `Effect` what it changes at a span that it has come to; the changes of a
declaration are exactly the effects at the visited spans.
-/

namespace ApiSurface.Rollup

open Emit

variable {context : Context} {entity : Entity} {declaration : Declaration}
  {trail : Trail} {span child : Span} {changes : Changes} {index : Nat}

/-! ## One span -/

def ownChanges (context : Context) (entity : Entity) (declaration : Declaration)
    (trail : Trail) (span : Span) (kind : NodeKind) : Except Fault Changes :=
  if kind = .exportKeyword || kind = .defaultKeyword || kind = .declareKeyword then
    pure [(trail.path, Change.skip)]
  else if kind.isDeclarationKeyword then
    pure (writeModifiers (modifiers entity declaration) trail span)
  else if kind = .variableDeclaration && trail.above.isEmpty then
    writeVariable entity declaration trail.path span
  else if kind = .identifier then renameIdentifier context.surface trail.path span.node
  else pure []

def childChanges (context : Context) (entity : Entity) (declaration : Declaration)
    (here : Trail) (child : Span) : Except Fault Changes :=
  if child.kind.isDeclaration then do
    let member ← Surface.member declaration child.node
    if !context.plan.isKept member.id then pure (trimMember context here child member)
    else if (← context.surface.item member.id).isPreapproved then
      pure (stub [] here.path child)
    else revise context entity member here child
  else revise context entity declaration here child

def argumentChanges (context : Context) (entity : Entity) (declaration : Declaration)
    (here : Trail) (child : Span) : Except Fault Changes :=
  if child.kind.isDeclaration then do
    let member ← Surface.member declaration child.node
    revise context entity member here child
  else revise context entity declaration here child

theorem reviseChildren_eq (start : Nat) (previous : Option Span) (spans : List Span) :
    reviseChildren context entity declaration trail span start previous spans =
      gather (fun index previous next child =>
          childChanges context entity declaration (trail.child span index previous next)
            child)
        start previous spans := by
  induction spans generalizing start previous with
  | nil => rfl
  | cons first rest ih =>
      simp only [reviseChildren, gather, childChanges, ih]
      split <;> simp only [bind_assoc]
      congr! 2 with member
      split
      · rfl
      · simp only [bind_assoc]
        congr! 2 with item
        split <;> rfl

theorem reviseArguments_eq (bounds : Option (Nat × Nat)) (start : Nat)
    (previous : Option Span) (spans : List Span) :
    reviseArguments context entity declaration trail span bounds start previous spans =
      gather (fun index previous next child =>
          if (bounds.map fun bounds => decide (bounds.1 < index && index < bounds.2)).getD
              false then
            argumentChanges context entity declaration
              (trail.child span index previous next) child
          else pure [])
        start previous spans := by
  induction spans generalizing start previous with
  | nil => rfl
  | cons first rest ih =>
      simp only [reviseArguments, gather, argumentChanges, ih]
      split
      · split <;> simp only [bind_assoc]
      · rfl

inductive Revised (context : Context) (entity : Entity) (declaration : Declaration)
    (trail : Trail) (span : Span) : Changes → Prop
  | comment {documents : Bool} (kind : span.kind = .docComment) :
      Revised context entity declaration trail span
        (if documents then [(trail.path, Change.skip)] else [])
  | unbound (kind : span.kind = .importType)
      (nothing : context.surface.entityForNode span.node = .ok none) :
      Revised context entity declaration trail span []
  | bound {source : Text} {imported : Entity} {name : Datum}
      {bounds : Option (Nat × Nat)} {inner : Changes} {arguments : Text}
      (kind : span.kind = .importType)
      (found : context.surface.entityForNode span.node = .ok (some imported))
      (bracketed : argumentBounds source span = .ok bounds)
      (revised : reviseArguments context entity declaration trail span bounds 0 none
        span.children = .ok inner)
      (written : argumentsText inner trail.path span bounds = .ok arguments) :
      Revised context entity declaration trail span
        (inner ++ replaceWhole trail.path
          (importTypeText source imported name span.node arguments))
  | opened {own inner : Changes} (noComment : span.kind ≠ .docComment)
      (noImport : span.kind ≠ .importType)
      (atSpan : ownChanges context entity declaration trail span span.kind = .ok own)
      (below : reviseChildren context entity declaration trail span 0 none
        span.children = .ok inner) :
      Revised context entity declaration trail span (own ++ inner)

theorem revise_revised
    (h : revise context entity declaration trail span = .ok changes) :
    Revised context entity declaration trail span changes := by
  cases span with
  | mk node lead tail separator children =>
      simp only [revise] at h
      split at h
      · rename_i hkind
        rw [pure_eq_ok] at h
        exact h ▸ .comment hkind
      · rename_i hkind
        simp only [bind_eq_ok] at h
        obtain ⟨found, hfound, h⟩ := h
        cases found with
        | none =>
            cases h
            exact .unbound hkind hfound
        | some imported =>
            simp only [bind_eq_ok, pure_eq_ok] at h
            obtain ⟨name, hname, bounds, hbounds, inner, hinner, arguments,
              harguments, rfl⟩ := h
            exact .bound hkind hfound hbounds hinner harguments
      · rename_i hcomment himport
        have hsplit : (do
            let own ← ownChanges context entity declaration trail
              (.mk node lead tail separator children) node.kind
            let inner ← reviseChildren context entity declaration trail
              (.mk node lead tail separator children) 0 none children
            pure (own ++ inner)) = .ok changes := by
          rw [← h]
          unfold ownChanges
          split_ifs <;> rfl
        simp only [bind_eq_ok, pure_eq_ok] at hsplit
        obtain ⟨own, hown, inner, hinner, rfl⟩ := hsplit
        exact .opened hcomment himport hown hinner

/-! ## One child -/

def Opened (span : Span) : Prop := span.kind ≠ .docComment ∧ span.kind ≠ .importType

/-- The walk goes on in the child at a position: an argument of a bound import type. -/
structure TakesArgument (surface : Surface) (span : Span) (index : Nat) : Prop where
  kind : span.kind = .importType
  bound : ∃ imported, surface.entityForNode span.node = .ok (some imported)
  between : IsArgument span index

/-- The walk goes on from a span to its child at a position, inside a declaration.
A member has to be kept with its body, except as an argument of an import type. -/
inductive Step (context : Context) (declaration : Declaration) (span : Span)
    (index : Nat) (child : Span) : Declaration → Prop
  | through (opened : Opened span) (stands : span.children[index]? = some child)
      (transparent : child.kind.isDeclaration = false) :
      Step context declaration span index child declaration
  | member {member : Declaration} (opened : Opened span)
      (stands : span.children[index]? = some child)
      (declares : child.kind.isDeclaration = true)
      (found : Surface.member declaration child.node = .ok member)
      (kept : context.plan.isKept member.id = true)
      (whole : context.surface.isStub member = false) :
      Step context declaration span index child member
  | argument (takes : TakesArgument context.surface span index)
      (stands : span.children[index]? = some child)
      (transparent : child.kind.isDeclaration = false) :
      Step context declaration span index child declaration
  | declared {member : Declaration} (takes : TakesArgument context.surface span index)
      (stands : span.children[index]? = some child)
      (declares : child.kind.isDeclaration = true)
      (found : Surface.member declaration child.node = .ok member) :
      Step context declaration span index child member

inductive Part (context : Context) (entity : Entity) (declaration : Declaration)
    (trail : Trail) (span : Span) (index : Nat) : Changes → Prop
  | goes {child : Span} {next : Declaration} {part : Changes}
      (step : Step context declaration span index child next)
      (revised : revise context entity next (trail.step span index) child = .ok part) :
      Part context entity declaration trail span index part
  | trimmed {child : Span} {member : Declaration} (opened : Opened span)
      (stands : span.children[index]? = some child)
      (declares : child.kind.isDeclaration = true)
      (found : Surface.member declaration child.node = .ok member)
      (unkept : context.plan.isKept member.id = false) :
      Part context entity declaration trail span index
        (trimMember context (trail.step span index) child member)
  | stubbed {child : Span} {member : Declaration} (opened : Opened span)
      (stands : span.children[index]? = some child)
      (declares : child.kind.isDeclaration = true)
      (found : Surface.member declaration child.node = .ok member)
      (kept : context.plan.isKept member.id = true)
      (bodiless : context.surface.isStub member = true) :
      Part context entity declaration trail span index
        (stub [] (trail.step span index).path child)
  | nothing (closed : ¬ Opened span)
      (outside : ¬ TakesArgument context.surface span index) :
      Part context entity declaration trail span index []

theorem childChanges_part {part : Changes} (opened : Opened span)
    (stands : span.children[index]? = some child)
    (h : childChanges context entity declaration (trail.step span index) child =
      .ok part) :
    Part context entity declaration trail span index part := by
  unfold childChanges at h
  split at h
  · rename_i declares
    simp only [bind_eq_ok] at h
    obtain ⟨member, found, h⟩ := h
    cases kept : context.plan.isKept member.id with
    | false =>
        simp only [kept, Bool.not_false, if_true, pure_eq_ok] at h
        exact h ▸ .trimmed opened stands declares found kept
    | true =>
        simp only [kept, Bool.not_true, Bool.false_eq_true, if_false, bind_eq_ok] at h
        obtain ⟨item, hitem, h⟩ := h
        have hstub := Surface.isStub_eq hitem
        split at h
        · rename_i bodiless
          rw [pure_eq_ok] at h
          exact h ▸ .stubbed opened stands declares found kept (hstub.trans bodiless)
        · rename_i whole
          have hwhole := hstub.trans (Bool.eq_false_iff.mpr whole)
          exact .goes (.member opened stands declares found kept hwhole) h
  · rename_i transparent
    exact .goes (.through opened stands (Bool.eq_false_iff.mpr transparent)) h

theorem argumentChanges_part {part : Changes}
    (takes : TakesArgument context.surface span index)
    (stands : span.children[index]? = some child)
    (h : argumentChanges context entity declaration (trail.step span index) child =
      .ok part) :
    Part context entity declaration trail span index part := by
  unfold argumentChanges at h
  split at h
  · rename_i declares
    simp only [bind_eq_ok] at h
    obtain ⟨member, found, h⟩ := h
    exact .goes (.declared takes stands declares found) h
  · rename_i transparent
    exact .goes (.argument takes stands (Bool.eq_false_iff.mpr transparent)) h

/-! ## One step -/

inductive Own (context : Context) (entity : Entity) (declaration : Declaration)
    (trail : Trail) (span : Span) : Path × Change → Prop
  | comment (kind : span.kind = .docComment) :
      Own context entity declaration trail span (trail.path, Change.skip)
  | replaced {text : Text} {change : Path × Change} (kind : span.kind = .importType)
      (made : change ∈ replaceWhole trail.path text) :
      Own context entity declaration trail span change
  | opened {own : Changes} {change : Path × Change} (opened : Opened span)
      (atSpan : ownChanges context entity declaration trail span span.kind = .ok own)
      (made : change ∈ own) : Own context entity declaration trail span change

theorem gathered_children {part : Changes} (opened : Opened span)
    (h : Gathered (fun index previous next child =>
        childChanges context entity declaration (trail.child span index previous next)
          child) 0 none span.children index part) :
    Part context entity declaration trail span index part := by
  obtain ⟨child, stands, hpart⟩ := h
  rw [Nat.zero_add] at hpart
  exact childChanges_part opened stands hpart

theorem gathered_arguments {part : Changes} {source : Text}
    {bounds : Option (Nat × Nat)} {imported : Entity} (kind : span.kind = .importType)
    (bound : context.surface.entityForNode span.node = .ok (some imported))
    (bracketed : argumentBounds source span = .ok bounds)
    (h : Gathered (fun index previous next child =>
        if (bounds.map fun bounds => decide (bounds.1 < index && index < bounds.2)).getD
            false then
          argumentChanges context entity declaration
            (trail.child span index previous next) child
        else pure []) 0 none span.children index part) :
    Part context entity declaration trail span index part := by
  obtain ⟨child, stands, hpart⟩ := h
  have hbetween := @isArgument_iff_between span index _ _ bracketed
  simp only [Nat.zero_add] at hpart
  split at hpart
  · rename_i hinside
    exact argumentChanges_part ⟨kind, ⟨imported, bound⟩, hbetween.mpr hinside⟩ stands
      hpart
  · rename_i houtside
    rw [pure_eq_ok] at hpart
    exact hpart ▸ .nothing (fun opened => opened.2 kind)
      fun takes => houtside (hbetween.mp takes.between)

private theorem mem_revise {change : Path × Change}
    (h : revise context entity declaration trail span = .ok changes)
    (hchange : change ∈ changes) :
    Own context entity declaration trail span change ∨
      ∃ index part, Part context entity declaration trail span index part ∧
        change ∈ part := by
  cases revise_revised h with
  | @comment documents kind =>
      cases documents with
      | false => cases hchange
      | true =>
          obtain rfl := List.mem_singleton.mp hchange
          exact .inl (.comment kind)
  | unbound kind nothing => cases hchange
  | bound kind found bracketed revised written =>
      rw [reviseArguments_eq] at revised
      rcases List.mem_append.mp hchange with hchange | hchange
      · obtain ⟨index, part, hpart, hmem⟩ := mem_gather revised hchange
        exact .inr ⟨index, part, gathered_arguments kind found bracketed hpart, hmem⟩
      · exact .inl (.replaced kind hchange)
  | opened noComment noImport atSpan below =>
      rw [reviseChildren_eq] at below
      rcases List.mem_append.mp hchange with hchange | hchange
      · exact .inl (.opened ⟨noComment, noImport⟩ atSpan hchange)
      · obtain ⟨index, part, hpart, hmem⟩ := mem_gather below hchange
        exact .inr ⟨index, part, gathered_children ⟨noComment, noImport⟩ hpart, hmem⟩

theorem revise_split
    (h : revise context entity declaration trail span = .ok changes)
    (hchild : span.children[index]? = some child)
    (hgoes : Opened span ∨ TakesArgument context.surface span index) :
    ∃ before part after, changes = before ++ part ++ after ∧
      Part context entity declaration trail span index part ∧
      ∀ change ∈ before ++ after, Own context entity declaration trail span change ∨
        ∃ other part', other ≠ index ∧
          Part context entity declaration trail span other part' ∧ change ∈ part' := by
  cases revise_revised h with
  | comment kind =>
      rcases hgoes with hopened | htakes
      · exact absurd kind hopened.1
      · simp [htakes.kind] at kind
  | unbound kind nothing =>
      rcases hgoes with hopened | ⟨_, ⟨imported, hbound⟩, _⟩
      · exact absurd kind hopened.2
      · simp [hbound] at nothing
  | @bound _ _ _ _ _ _ kind found bracketed revised written =>
      rw [reviseArguments_eq] at revised
      obtain ⟨before, part, after, rfl, hpart, hothers⟩ := gather_split revised hchild
      refine ⟨before, part, after ++ replaceWhole trail.path _,
        List.append_assoc _ _ _,
        gathered_arguments kind found bracketed hpart, fun change hchange => ?_⟩
      rw [← List.append_assoc] at hchange
      rcases List.mem_append.mp hchange with hchange | hchange
      · obtain ⟨other, part', hother, hpart', hmem⟩ := hothers change hchange
        exact .inr ⟨other, part', hother,
          gathered_arguments kind found bracketed hpart', hmem⟩
      · exact .inl (.replaced kind hchange)
  | @opened own _ noComment noImport atSpan below =>
      rw [reviseChildren_eq] at below
      obtain ⟨before, part, after, rfl, hpart, hothers⟩ := gather_split below hchild
      refine ⟨own ++ before, part, after, by simp,
        gathered_children ⟨noComment, noImport⟩ hpart, fun change hchange => ?_⟩
      rw [List.append_assoc] at hchange
      rcases List.mem_append.mp hchange with hchange | hchange
      · exact .inl (.opened ⟨noComment, noImport⟩ atSpan hchange)
      · obtain ⟨other, part', hother, hpart', hmem⟩ := hothers change hchange
        exact .inr ⟨other, part', hother,
          gathered_children ⟨noComment, noImport⟩ hpart', hmem⟩

namespace Step

variable {next : Declaration}

theorem stands (h : Step context declaration span index child next) :
    span.children[index]? = some child := by
  cases h <;> assumption

theorem goes (h : Step context declaration span index child next) :
    Opened span ∨ TakesArgument context.surface span index := by
  cases h with
  | through opened _ _ => exact .inl opened
  | member opened _ _ _ _ _ => exact .inl opened
  | argument takes _ _ => exact .inr takes
  | declared takes _ _ _ => exact .inr takes

theorem way (h : Step context declaration span index child next) :
    ∃ chain, Way declaration span [index] chain child ∧
      chain.getLastD declaration = next := by
  cases h with
  | through _ stands transparent => exact ⟨[], .through stands transparent .here, rfl⟩
  | member _ stands declares found _ _ =>
      exact ⟨[next], .member stands declares found .here, rfl⟩
  | argument _ stands transparent => exact ⟨[], .through stands transparent .here, rfl⟩
  | declared _ stands declares found =>
      exact ⟨[next], .member stands declares found .here, rfl⟩

theorem member_kept {member : Declaration} (h : Step context declaration span index child next)
    (opened : Opened span) (declares : child.kind.isDeclaration = true)
    (found : Surface.member declaration child.node = .ok member) :
    context.plan.isKept member.id = true ∧ context.surface.isStub member = false := by
  cases h with
  | through _ _ transparent => simp [transparent] at declares
  | member _ _ _ found' kept whole =>
      obtain rfl := Except.ok.inj (found.symm.trans found')
      exact ⟨kept, whole⟩
  | argument takes _ _ => exact absurd takes.kind opened.2
  | declared takes _ _ _ => exact absurd takes.kind opened.2

end Step

theorem Part.revised {next : Declaration} {part : Changes}
    (h : Part context entity declaration trail span index part)
    (step : Step context declaration span index child next) :
    revise context entity next (trail.step span index) child = .ok part := by
  cases h with
  | goes step' revised =>
      obtain ⟨chain, hway, rfl⟩ := step.way
      obtain ⟨chain', hway', rfl⟩ := step'.way
      obtain ⟨rfl, rfl⟩ := hway.unique hway'
      exact revised
  | trimmed opened stands declares found unkept =>
      obtain rfl := Option.some.inj (stands.symm.trans step.stands)
      simp [(step.member_kept opened declares found).1] at unkept
  | stubbed opened stands declares found _ bodiless =>
      obtain rfl := Option.some.inj (stands.symm.trans step.stands)
      simp [(step.member_kept opened declares found).2] at bodiless
  | nothing closed outside =>
      rcases step.goes with opened | takes
      · exact absurd opened closed
      · exact absurd takes outside

theorem Part.eq_trimMember {member : Declaration} {part : Changes}
    (h : Part context entity declaration trail span index part) (opened : Opened span)
    (stands : span.children[index]? = some child)
    (declares : child.kind.isDeclaration = true)
    (found : Surface.member declaration child.node = .ok member)
    (unkept : context.plan.isKept member.id = false) :
    part = trimMember context (trail.step span index) child member := by
  cases h with
  | goes step revised =>
      obtain rfl := Option.some.inj (stands.symm.trans step.stands)
      simp [(step.member_kept opened declares found).1] at unkept
  | trimmed _ stands' _ found' _ =>
      obtain rfl := Option.some.inj (stands.symm.trans stands')
      obtain rfl := Except.ok.inj (found.symm.trans found')
      rfl
  | stubbed _ stands' _ found' kept _ =>
      obtain rfl := Option.some.inj (stands.symm.trans stands')
      obtain rfl := Except.ok.inj (found.symm.trans found')
      simp [kept] at unkept
  | nothing closed _ => exact absurd opened closed

/-! ## The whole walk -/

inductive Visits (context : Context) :
    Declaration → Span → Path → Declaration → Span → Prop
  | here {declaration : Declaration} {span : Span} :
      Visits context declaration span [] declaration span
  | step {declaration next inner : Declaration} {span child target : Span} {index : Nat}
      {path : Path} (goes : Step context declaration span index child next)
      (rest : Visits context next child path inner target) :
      Visits context declaration span (index :: path) inner target

/-- What is changed at a span that the walk has come to: by the span itself, and
in place of members that the walk does not go into. -/
inductive Effect (context : Context) (entity : Entity) (declaration : Declaration)
    (trail : Trail) (span : Span) : Path × Change → Prop
  | own {change : Path × Change} (made : Own context entity declaration trail span change) :
      Effect context entity declaration trail span change
  | trimmed {index : Nat} {child : Span} {member : Declaration} {change : Path × Change}
      (opened : Opened span) (stands : span.children[index]? = some child)
      (declares : child.kind.isDeclaration = true)
      (found : Surface.member declaration child.node = .ok member)
      (unkept : context.plan.isKept member.id = false)
      (made : change ∈ trimMember context (trail.step span index) child member) :
      Effect context entity declaration trail span change
  | stubbed {index : Nat} {child : Span} {member : Declaration} {change : Path × Change}
      (opened : Opened span) (stands : span.children[index]? = some child)
      (declares : child.kind.isDeclaration = true)
      (found : Surface.member declaration child.node = .ok member)
      (bodiless : context.surface.isStub member = true)
      (made : change ∈ stub [] (trail.step span index).path child) :
      Effect context entity declaration trail span change

/-- The change is an effect at a visited span, at an address of some kind. -/
def Caused (context : Context) (entity : Entity) (declaration : Declaration)
    (trail : Trail) (span : Span) (place : Path → Prop) (change : Path × Change) : Prop :=
  ∃ path inner target, place path ∧ Visits context declaration span path inner target ∧
    Effect context entity inner (trail.down span path) target change

theorem Own.caused {place : Path → Prop} {change : Path × Change}
    (h : Own context entity declaration trail span change) (hplace : place []) :
    Caused context entity declaration trail span place change :=
  ⟨[], declaration, span, hplace, .here, .own h⟩

theorem Caused.below {place : Path → Prop} {next : Declaration} {change : Path × Change}
    (step : Step context declaration span index child next)
    (h : Caused context entity next (trail.step span index) child
      (fun path => place (index :: path)) change) :
    Caused context entity declaration trail span place change := by
  obtain ⟨path, inner, target, hplace, hvisits, heffect⟩ := h
  rw [← Trail.down_cons step.stands] at heffect
  exact ⟨index :: path, inner, target, hplace, .step step hvisits, heffect⟩

theorem Part.caused {place : Path → Prop} {part : Changes} {change : Path × Change}
    (h : Part context entity declaration trail span index part) (hchange : change ∈ part)
    (hplace : place [])
    (hbelow : ∀ child next, Step context declaration span index child next →
      revise context entity next (trail.step span index) child = .ok part →
      Caused context entity next (trail.step span index) child
        (fun path => place (index :: path)) change) :
    Caused context entity declaration trail span place change := by
  cases h with
  | goes step revised => exact (hbelow _ _ step revised).below step
  | trimmed opened stands declares found unkept =>
      exact ⟨[], declaration, span, hplace, .here,
        .trimmed opened stands declares found unkept hchange⟩
  | stubbed opened stands declares found _ bodiless =>
      exact ⟨[], declaration, span, hplace, .here,
        .stubbed opened stands declares found bodiless hchange⟩
  | nothing => cases hchange

theorem revise_caused {change : Path × Change}
    (h : revise context entity declaration trail span = .ok changes)
    (hchange : change ∈ changes) :
    Caused context entity declaration trail span (fun _ => True) change := by
  induction span using Span.inductionOnChildren
    generalizing declaration trail changes with
  | step span ih =>
      rcases mem_revise h hchange with hown | ⟨index, part, hpart, hmem⟩
      · exact hown.caused trivial
      · refine hpart.caused hmem trivial fun child next step revised => ?_
        exact ih child (List.mem_of_getElem? step.stands) revised hmem

/-- The changes at and below a visited span stand together; all others are
effects at addresses that are not below it. -/
theorem revise_visited {path : Path} {inner : Declaration} {target : Span}
    (hvisits : Visits context declaration span path inner target)
    (h : revise context entity declaration trail span = .ok changes) :
    ∃ before part after, changes = before ++ part ++ after ∧
      revise context entity inner (trail.down span path) target = .ok part ∧
      ∀ change ∈ before ++ after,
        Caused context entity declaration trail span (fun other => ¬ path <+: other)
          change := by
  induction hvisits generalizing trail changes with
  | here => exact ⟨[], changes, [], by simp, h, by simp⟩
  | @step declaration next inner span child target index path goes rest ih =>
      obtain ⟨before, part, after, rfl, hpart, hothers⟩ :=
        revise_split h goes.stands goes.goes
      obtain ⟨first, whole, last, rfl, hwhole, hinner⟩ := ih (hpart.revised goes)
      rw [← Trail.down_cons goes.stands] at hwhole
      refine ⟨before ++ first, whole, last ++ after, by simp, hwhole, ?_⟩
      intro change hchange
      have hmem : change ∈ first ++ last ∨ change ∈ before ++ after := by
        simp only [List.mem_append] at hchange ⊢
        tauto
      rcases hmem with hmem | hmem
      · apply Caused.below goes
        simpa only [List.cons_prefix_cons, true_and] using hinner change hmem
      · rcases hothers change hmem with hown | ⟨other, part', hother, hpart', hmem'⟩
        · exact hown.caused (by simp)
        · refine hpart'.caused hmem' (by simp) fun sibling member step revised => ?_
          obtain ⟨path', inner', target', _, hvisits', heffect⟩ :=
            revise_caused revised hmem'
          refine ⟨path', inner', target', ?_, hvisits', heffect⟩
          simp [List.cons_prefix_cons, hother.symm]

end ApiSurface.Rollup
