import ApiSurface.Proofs.Rollup.Origins

/-!
# Modifiers of a declaration

A declaration starts with a comment and a list of modifiers, each of which may be
missing, and with its keyword.  Revising it drops some modifiers where they stand and
writes others in front of the list, or in front of the keyword if there is no list.
From these changes at different spans follows the text before the keyword.
-/

namespace ApiSurface

/-! ## Siblings and the gaps after them -/

namespace Span

variable {edits : Edits} {start : Nat} {source gap : Text}

theorem renderAll_append (first second : List Span) :
    renderAll edits start (first ++ second) =
      renderAll edits start first ++ renderAll edits (start + first.length) second := by
  induction first generalizing start with
  | nil => simp [renderAll]
  | cons span rest ih =>
      rw [List.cons_append, renderAll, renderAll, ih, List.length_cons, Nat.add_right_comm]
      simp [Nat.add_assoc]

theorem renderAll_eq_flatMap {α : Type} {entries : List α} (span : α → Span) (text : α → Text)
    (h : ∀ index entry, entries[index]? = some entry →
      (span entry).render (edits.below (start + index)) = text entry) :
    renderAll edits start (entries.map span) = entries.flatMap text := by
  induction entries generalizing start with
  | nil => rfl
  | cons entry rest ih =>
      have hfirst := h 0 entry rfl
      rw [List.map_cons, renderAll, List.flatMap_cons, ← hfirst, Nat.add_zero]
      congr 1
      apply ih
      intro index other hother
      rw [Nat.add_assoc, Nat.add_comm 1]
      exact h (index + 1) other (by simpa using hother)

private theorem render_of_skip {span : Span} (h : edits [] = Change.skip {}) :
    span.render edits = [] := by
  simp [render, draw_eq, h, Change.skip, closing]

/-- Nodes with the gaps after them; the last gap reaches up to a position. -/
def gapsUpTo (source : Text) (stop : Int) : List Node → List (Node × Text)
  | [] => []
  | node :: rest =>
      (node, source.slice node.stop ((rest.head?.map Node.start).getD stop)) ::
        gapsUpTo source stop rest

def layoutEntry (source : Text) (entry : Node × Text) : Span :=
  layoutWith source entry.2 entry.1

theorem map_fst_gapsUpTo (source : Text) (stop : Int) (nodes : List Node) :
    (gapsUpTo source stop nodes).map Prod.fst = nodes := by
  induction nodes with
  | nil => rfl
  | cons node rest ih => rw [gapsUpTo, List.map_cons, ih]

theorem length_gapsUpTo (source : Text) (stop : Int) (nodes : List Node) :
    (gapsUpTo source stop nodes).length = nodes.length := by
  rw [← List.length_map, map_fst_gapsUpTo]

theorem layoutAllWith_cons (node : Node) (rest : List Node) :
    ∃ own later, layoutAllWith source gap (node :: rest) =
      layoutWith source own node :: later := by
  cases rest with
  | nil => exact ⟨gap, [], rfl⟩
  | cons second rest => exact ⟨_, _, rfl⟩

theorem layoutAllWith_upTo (nodes : List Node) (next : Node) (rest : List Node) :
    layoutAllWith source gap (nodes ++ next :: rest) =
      (gapsUpTo source next.start nodes).map (layoutEntry source) ++
        layoutAllWith source gap (next :: rest) := by
  induction nodes with
  | nil => rfl
  | cons node others ih =>
      rw [gapsUpTo, List.map_cons, List.cons_append, List.cons_append, ← ih]
      cases others <;> rfl

theorem layoutAllWith_of_last {stop : Int} {last : Node} :
    ∀ nodes : List Node, nodes.getLast? = some last →
      layoutAllWith source (source.slice last.stop stop) nodes =
        (gapsUpTo source stop nodes).map (layoutEntry source)
  | [], h => by cases h
  | [node], h => by
      obtain rfl : node = last := by simpa using h
      rfl
  | node :: second :: rest, h => by
      rw [layoutAllWith, layoutAllWith_of_last (second :: rest) (by simpa using h)]
      rfl

theorem layoutWith_leaf {node : Node} (h : node.children = []) :
    (layoutWith source gap node).children = [] ∧
      (layoutWith source gap node).lead = node.text source ∧
      (layoutWith source gap node).tail = [] ∧ (layoutWith source gap node).separator = gap := by
  cases node with
  | mk kind start stop id label children =>
      obtain rfl : children = [] := h
      exact ⟨rfl, rfl, rfl, rfl⟩

theorem lead_layoutWith {node first : Node} (hfirst : node.children.head? = some first)
    (hstart : node.start = first.start) : (layoutWith source gap node).lead = [] := by
  cases node with
  | mk kind start stop id label children =>
      obtain rfl : start = first.start := hstart
      cases children with
      | nil => cases hfirst
      | cons head rest =>
          cases hfirst
          simp [layoutWith, lead, leadOf, Text.slice]

theorem layoutWith_covered {node first last : Node} (hfirst : node.children.head? = some first)
    (hlast : node.children.getLast? = some last) (hstart : node.start = first.start)
    (hstop : node.stop = last.stop) :
    (layoutWith source gap node).lead = [] ∧ (layoutWith source gap node).tail = [] ∧
      (layoutWith source gap node).separator = [] ∧
      (layoutWith source gap node).children = layoutAllWith source gap node.children := by
  refine ⟨lead_layoutWith hfirst hstart, ?_⟩
  cases node with
  | mk kind start stop id label children =>
      obtain rfl : stop = last.stop := hstop
      have hlast : children.getLast? = some last := hlast
      have hdown : handsDown last.stop children = true := by simp [handsDown, hlast]
      refine ⟨?_, ?_, ?_⟩
      · simp [layoutWith, tail, tailOf, hlast, Text.slice]
      · simp [layoutWith, separator, hdown]
      · simp [layoutWith, Span.children, Node.children, hdown]

end Span

namespace Rollup

open Emit

/-! ## The start of a declaration -/

/-- The start of a declaration: a comment and a list of modifiers, which may be missing,
the keyword, and what follows it. -/
structure Heading where
  comment : Option Node
  list : Option Node
  keyword : Node
  rest : List Node

namespace Heading

def before (heading : Heading) : List Node := heading.comment.toList ++ heading.list.toList

def tokens (heading : Heading) : List Node := (heading.list.map Node.children).getD []

def modifiersStart (heading : Heading) : Int :=
  (heading.tokens.head?.map Node.start).getD heading.keyword.start

end Heading

def isModifier (kind : NodeKind) : Bool :=
  isSecluded kind && !(kind.isDeclarationKeyword || kind = .docComment || kind = .importType ||
    kind = .identifier)

/-- A declaration starts with a heading, without anything else before the keyword. -/
structure Heading.Heads (heading : Heading) (source : Text) (node : Node) : Prop where
  children : node.children = heading.before ++ heading.keyword :: heading.rest
  starts : ∀ first, node.children.head? = some first → node.start = first.start
  comment : ∀ comment ∈ heading.comment, comment.kind = .docComment ∧ Span.Fits source comment
  list : ∀ list ∈ heading.list, list.kind = .syntaxList ∧ ∃ first last,
    list.children.head? = some first ∧ list.children.getLast? = some last ∧
      list.start = first.start ∧ list.stop = last.stop
  tokens : ∀ token ∈ heading.tokens, isModifier token.kind = true ∧ token.children = []
  keyword : heading.keyword.kind.isDeclarationKeyword = true ∧ heading.keyword.children = []

/-- The text of a node with the gap after it, unless the node is left out. -/
def textUnless (source : Text) (omitted : Node → Bool) (entry : Node × Text) : Text :=
  if omitted entry.1 then [] else entry.1.text source ++ entry.2

/-- The text before the keyword: the comment, unless it documents the package, the given
modifiers, and the own modifiers that are not dropped. -/
def Heading.text (heading : Heading) (source modifiers : Text) : Text :=
  (Span.gapsUpTo source heading.modifiersStart heading.comment.toList).flatMap
      (textUnless source fun comment => documentsPackage (comment.text source)) ++
    modifiers ++
    (Span.gapsUpTo source heading.keyword.start heading.tokens).flatMap
      (textUnless source fun token => isDropped token.kind)

def Heading.remainder (heading : Heading) (edits : Edits) (root : Span) : Text :=
  (root.children[heading.before.length]?.map Span.separator).getD [] ++
    Span.renderAll edits (heading.before.length + 1)
      (root.children.drop (heading.before.length + 1)) ++
    Span.ending edits root

/-- What stands before a variable: the comment of its statement, the modifiers, and the
keyword of its list. -/
def variableOpening (entity : Entity) (declaration : Declaration) : Text :=
  if declaration.node.kind = .variableDeclaration then
    match variableList declaration.site with
    | .ok (list, keyword) =>
        statementComment list ++ (if entity.exportsInline then "export ".toList else []) ++
          "declare ".toList ++ keyword
    | .error _ => []
  else []

variable {context : Context} {entity : Entity} {outer inner : Declaration}
  {root span child : Span} {path : Path} {index : Nat} {changes : Changes}
  {change : Path × Change} {source gap : Text} {node : Node}

/-! ## Changes at the start -/

theorem address_of_reviseChildren (hdeclares : root.kind.isDeclaration = true)
    (h : reviseChildren context entity outer {} root 0 none root.children = .ok changes)
    (hchange : change ∈ changes) : change.1 ≠ [] := by
  obtain ⟨hopened, _, hstatement, hcomma⟩ := opened_of_declares hdeclares
  have hstays : ¬ GoesWithMember context outer root [] :=
    not_goesWithMember rfl hstatement hcomma
  -- From below, only a member that is not kept reaches above its own address and list.
  intro haddress
  rw [reviseChildren_eq] at h
  obtain ⟨index, part, hpart, hmem⟩ := mem_gather h hchange
  cases gathered_children hopened hpart with
  | goes step revised =>
      obtain ⟨path, declaration, target, _, hvisits, heffect⟩ := revise_caused revised hmem
      have hvisits := Visits.step step hvisits
      have htrail : trailTo root (index :: path) =
          (({} : Trail).step root index).down _ path := Trail.down_cons step.stands
      rw [← htrail] at heffect
      have hroot : Visits context outer root change.1 outer root := haddress ▸ .here
      have hown := heffect.own_of_visited hvisits hroot (haddress ▸ hstays)
      rcases hown.address_trailTo hvisits.descendant? with hself | ⟨_, _, _, _, hlist, _, _⟩
      · simp [haddress] at hself
      · simp [haddress] at hlist
  | trimmed opened stands declares found unkept =>
      have hmeets := Meets.mk .here opened stands declares found unkept
      rw [← trailTo_child stands] at hmem
      rcases hmeets.address hmem with hself | hgoes
      · simp [haddress] at hself
      · exact hstays (haddress ▸ hgoes)
  | stubbed _ _ _ _ _ _ =>
      obtain ⟨_, _, _, hbelow⟩ := mem_stubChildren hmem
      simp [haddress] at hbelow
  | nothing => cases hmem

private theorem edits_declaration (hdeclares : root.kind.isDeclaration = true)
    (hnode : root.node = outer.node) (hlead : root.lead = [])
    (h : revise context entity outer {} root = .ok changes) :
    (changes.edits []).omitChildren = false ∧
      (changes.edits []).lead.getD root.lead = variableOpening entity outer := by
  have hkinds : ∀ kind ∈ NodeKind.declarationKinds, isDropped kind = false ∧
      kind.isDeclarationKeyword = false ∧ kind ≠ .identifier := by decide
  obtain ⟨hdropped, hkeyword, hidentifier⟩ :=
    hkinds root.kind (by simpa [NodeKind.isDeclaration] using hdeclares)
  obtain ⟨hopened, _, _, _⟩ := opened_of_declares hdeclares
  cases revise_revised h with
  | comment hkind => exact absurd hkind hopened.1
  | unbound hkind => exact absurd hkind hopened.2
  | bound hkind => exact absurd hkind hopened.2
  | @opened own below _ _ atSpan hbelow =>
      have hedits : Changes.edits (own ++ below) [] = Changes.edits own [] :=
        @Changes.edits_of_apart [] [] own below (by simp) fun change hmem =>
          address_of_reviseChildren hdeclares hbelow hmem
      rw [hedits]
      unfold ownChanges at atSpan
      rw [← isDropped, hdropped, hkeyword, if_neg Bool.false_ne_true,
        if_neg Bool.false_ne_true] at atSpan
      by_cases hvariable : root.kind = .variableDeclaration
      · simp only [hvariable, writeVariable, List.isEmpty_nil, decide_true, Bool.and_self,
          if_true, bind_eq_ok, pure_eq_ok] at atSpan
        obtain ⟨⟨list, keyword⟩, hlist, rfl⟩ := atSpan
        have hkind : outer.node.kind = .variableDeclaration := hnode ▸ hvariable
        have hopening : variableOpening entity outer = statementComment list ++
            (if entity.exportsInline then "export ".toList else []) ++ "declare ".toList ++
            keyword := by
          rw [variableOpening, if_pos hkind, hlist]
        rw [← hopening]
        simp [Changes.edits, Edits.apply, Edits.none, Change.prepend, Change.setTail, hlead]
      · have hkind : outer.node.kind ≠ .variableDeclaration := hnode ▸ hvariable
        simp only [hvariable, hidentifier, decide_false, Bool.false_and, Bool.false_eq_true,
          if_false, pure_eq_ok] at atSpan
        subst atSpan
        simp [Changes.edits, Edits.apply, Edits.none, variableOpening, hkind, hlead]

/-! ## Comments and tokens -/

/-- A visited comment is drawn with the gap after it, unless it documents the package. -/
theorem comment_drawn (h : revise context entity outer {} root = .ok changes)
    (hvisits : Visits context outer root path inner
      (Span.layoutWith inner.site.file.text gap node))
    (hkind : node.kind = .docComment) (hfits : Span.Fits inner.site.file.text node) :
    (Span.layoutWith inner.site.file.text gap node).render (changes.edits.within path) =
      textUnless inner.site.file.text
        (fun comment => documentsPackage (comment.text inner.site.file.text)) (node, gap) := by
  have hspan : (Span.layoutWith inner.site.file.text gap node).kind = .docComment := by
    rw [Span.kind, Span.node_layoutWith, hkind]
  obtain ⟨part, hpart, hedits⟩ := edits_of_secluded h hvisits (by rw [hspan]; rfl)
  rw [revise_comment hspan, Span.node_layoutWith, path_trailTo hvisits.descendant?] at hpart
  cases hpart
  cases hdocuments : documentsPackage (node.text inner.site.file.text) with
  | true =>
      rw [textUnless, hdocuments, if_pos rfl]
      apply Span.render_of_skip
      rw [Edits.within, hedits, hdocuments, if_pos rfl, List.append_nil]
      simp [Changes.edits, Edits.apply, Edits.none]
  | false =>
      have hnone : changes.edits.within path = Edits.none := by
        funext rest
        rw [Edits.within, hedits, hdocuments]
        rfl
      rw [textUnless, hdocuments, if_neg Bool.false_ne_true, hnone, Span.render, Span.draw_none,
        Span.text_layoutWith _ _ _ hfits, Node.text,
        Text.slice_eq_between hfits.start_nonneg hfits.start_le_stop]

theorem isModifier_iff {kind : NodeKind} : isModifier kind = true ↔
    isSecluded kind = true ∧ kind.isDeclarationKeyword = false ∧ kind ≠ .docComment ∧
      kind ≠ .importType ∧ kind ≠ .identifier := by
  simp [isModifier, and_assoc]

theorem not_isDeclaration_of_isSecluded {kind : NodeKind} (h : isSecluded kind = true) :
    kind.isDeclaration = false := by
  simp only [isSecluded, Bool.not_eq_true', Bool.or_eq_false_iff] at h
  exact h.1.1

/-- A visited modifier is drawn with the gap after it, unless it is dropped. -/
theorem token_drawn (h : revise context entity outer {} root = .ok changes)
    (hvisits : Visits context outer root path inner (Span.layoutWith source gap node))
    (hkind : isModifier node.kind = true) (hleaf : node.children = []) :
    (Span.layoutWith source gap node).render (changes.edits.within path) =
      textUnless source (fun token => isDropped token.kind) (node, gap) := by
  obtain ⟨hsecluded, hkeyword, hcomment, himport, hidentifier⟩ := isModifier_iff.mp hkind
  obtain ⟨hchildren, hlead, htail, hgap⟩ :=
    @Span.layoutWith_leaf source gap node hleaf
  have hspan : (Span.layoutWith source gap node).kind = node.kind := by
    rw [Span.kind, Span.node_layoutWith]
  obtain ⟨part, hpart, hedits⟩ := edits_of_secluded h hvisits (by rw [hspan, hsecluded])
  have hhere := hedits []
  rw [List.append_nil] at hhere
  rw [Span.render_leaf hchildren, Span.ending, Edits.within, List.append_nil, hhere, hlead,
    htail, hgap]
  have hown := ownChanges_of_leaf (by rw [Opened, hspan]; exact ⟨hcomment, himport⟩) hchildren hpart
  have hplain := not_isDeclaration_of_isSecluded hsecluded
  have hvariable : node.kind ≠ .variableDeclaration := by
    intro hkind
    rw [hkind] at hplain
    cases hplain
  rw [hspan, ownChanges, ← isDropped, path_trailTo hvisits.descendant?] at hown
  cases hdropped : isDropped node.kind with
  | true =>
      rw [hdropped, if_pos rfl, pure_eq_ok] at hown
      subst hown
      simp [textUnless, hdropped, Changes.edits, Edits.apply, Edits.none, Change.skip]
  | false =>
      simp only [hdropped, hkeyword, hvariable, hidentifier, decide_false, Bool.false_and,
        Bool.false_eq_true, if_false, pure_eq_ok] at hown
      subst hown
      simp [textUnless, hdropped, Changes.edits, Edits.apply, Edits.none]

/-! ## The keyword and the list before it -/

theorem plain_of_keyword {kind : NodeKind} (h : kind.isDeclarationKeyword = true) :
    isSecluded kind = true ∧ isDropped kind = false ∧ kind ≠ .docComment ∧
      kind ≠ .importType := by
  revert h
  cases kind <;> decide

theorem revise_keyword {trail : Trail} (hkind : span.kind.isDeclarationKeyword = true)
    (hleaf : span.children = []) (h : revise context entity inner trail span = .ok changes) :
    changes = writeModifiers (modifiers entity inner) trail span := by
  obtain ⟨_, hdropped, hcomment, himport⟩ := plain_of_keyword hkind
  have hown := ownChanges_of_leaf ⟨hcomment, himport⟩ hleaf h
  rw [ownChanges, ← isDropped, hdropped, hkind, if_neg Bool.false_ne_true, if_pos rfl,
    pure_eq_ok] at hown
  exact hown.symm

private theorem not_own_of_list {trail : Trail} (hkind : span.kind = .syntaxList) :
    ¬ Own context entity inner trail span change := by
  intro hown
  cases hown with
  | comment hcomment => simp [hkind] at hcomment
  | replaced himport => simp [hkind] at himport
  | opened _ atSpan made =>
      rw [hkind] at atSpan
      cases atSpan
      cases made

/-- The list before the keyword is given the modifiers in front, and nothing else; the
keyword itself stays as it is. -/
theorem edits_list {list keyword : Span} (h : revise context entity outer {} root = .ok changes)
    (hdeclares : root.kind.isDeclaration = true)
    (hlist : root.children[index]? = some list) (hlistKind : list.kind = .syntaxList)
    (hkeyword : root.children[index + 1]? = some keyword)
    (hkind : keyword.kind.isDeclarationKeyword = true) (hleaf : keyword.children = []) :
    changes.edits [index] = Change.prepend (modifiers entity outer) list {} ∧
      changes.edits [index + 1] = {} := by
  obtain ⟨hopened, _, _, _⟩ := opened_of_declares hdeclares
  obtain ⟨hsecluded, _, _, _⟩ := plain_of_keyword hkind
  have hvisits : Visits context outer root [index + 1] outer keyword :=
    .step (.through hopened hkeyword (not_isDeclaration_of_isSecluded hsecluded)) .here
  have hcomes : Visits context outer root [index] outer list :=
    .step (.through hopened hlist (by rw [hlistKind]; rfl)) .here
  have hstays : ¬ GoesWithMember context outer root [index] :=
    not_goesWithMember hcomes.descendant? (by simp [hlistKind]) (by simp [hlistKind])
  have hmade : ∀ part, revise context entity outer (trailTo root [index + 1]) keyword = .ok part →
      part = [([index], Change.prepend (modifiers entity outer) list)] := by
    intro part hpart
    rw [revise_keyword hkind hleaf hpart, trailTo_child hkeyword]
    simp [writeModifiers, Trail.step, Trail.child, siblingBefore, hlist, hlistKind, sibling]
  obtain ⟨before, part, after, rfl, hpart, hothers⟩ := revise_visited hvisits h
  constructor
  · -- Whatever else the walk does, it does not do it to the list.
    have hapart : ∀ change ∈ before ++ after, change.1 ≠ [index] := by
      intro change hmem haddress
      obtain ⟨place, other, target, hplace, hother, heffect⟩ := hothers change hmem
      have hown := heffect.own_of_visited hother (haddress ▸ hcomes) (haddress ▸ hstays)
      rcases hown.address_trailTo hother.descendant? with hself |
        ⟨parent, position, _, rfl, hsame, _, _⟩
      · have htarget : root.descendant? [index] = some target :=
          haddress ▸ hself ▸ hother.descendant?
        obtain rfl := Option.some.inj (hcomes.descendant?.symm.trans htarget)
        exact not_own_of_list hlistKind hown
      · rw [haddress] at hsame
        obtain ⟨rfl, rfl⟩ : parent = [] ∧ position = index := by
          simpa using List.append_eq_singleton_iff.mp hsame.symm
        exact hplace List.prefix_rfl
    rw [Changes.edits_of_apart (fun change hmem => hapart change (by simp [hmem]))
      (fun change hmem => hapart change (by simp [hmem])), hmade part hpart]
    simp [Changes.edits, Edits.apply, Edits.none]
  · obtain ⟨own, hown, hedits⟩ := edits_of_secluded h hvisits hsecluded
    have hhere := hedits []
    rw [List.append_nil, hmade own hown] at hhere
    rw [hhere]
    simp [Changes.edits, Edits.apply, Edits.none]

theorem edits_keyword {keyword : Span} (h : revise context entity outer {} root = .ok changes)
    (hdeclares : root.kind.isDeclaration = true)
    (hbefore : ∀ list, siblingBefore none root.children index = some list →
      list.kind ≠ .syntaxList)
    (hkeyword : root.children[index]? = some keyword)
    (hkind : keyword.kind.isDeclarationKeyword = true) (hleaf : keyword.children = []) :
    changes.edits [index] = Change.prepend (modifiers entity outer) keyword {} := by
  obtain ⟨hopened, _, _, _⟩ := opened_of_declares hdeclares
  obtain ⟨hsecluded, _, _, _⟩ := plain_of_keyword hkind
  have hvisits : Visits context outer root [index] outer keyword :=
    .step (.through hopened hkeyword (not_isDeclaration_of_isSecluded hsecluded)) .here
  obtain ⟨part, hpart, hedits⟩ := edits_of_secluded h hvisits hsecluded
  have hmade : part = [([index], Change.prepend (modifiers entity outer) keyword)] := by
    rw [revise_keyword hkind hleaf hpart, trailTo_child hkeyword]
    cases hprevious : siblingBefore none root.children index with
    | none => simp [writeModifiers, Trail.step, Trail.child, hprevious]
    | some list =>
        simp [writeModifiers, Trail.step, Trail.child, hprevious, hbefore list hprevious]
  have hhere := hedits []
  rw [List.append_nil, hmade] at hhere
  rw [hhere]
  simp [Changes.edits, Edits.apply, Edits.none]

/-! ## The text before the keyword -/

theorem comments_drawn {comments : List Node} {stop : Int} {later : List Span}
    (h : revise context entity outer {} root = .ok changes) (hopened : Opened root)
    (hchildren : root.children =
      (Span.gapsUpTo outer.site.file.text stop comments).map
        (Span.layoutEntry outer.site.file.text) ++ later)
    (hcomments : ∀ comment ∈ comments,
      comment.kind = .docComment ∧ Span.Fits outer.site.file.text comment) :
    Span.renderAll changes.edits 0
        ((Span.gapsUpTo outer.site.file.text stop comments).map
          (Span.layoutEntry outer.site.file.text)) =
      (Span.gapsUpTo outer.site.file.text stop comments).flatMap
        (textUnless outer.site.file.text
          fun comment => documentsPackage (comment.text outer.site.file.text)) := by
  apply Span.renderAll_eq_flatMap
  intro index entry hentry
  have hmem : entry.1 ∈ comments := by
    rw [← Span.map_fst_gapsUpTo outer.site.file.text stop comments]
    exact List.mem_map_of_mem (List.mem_of_getElem? hentry)
  obtain ⟨hkind, hfits⟩ := hcomments entry.1 hmem
  have hstands : root.children[index]? =
      some (Span.layoutWith outer.site.file.text entry.2 entry.1) := by
    rw [hchildren, List.getElem?_append_left, List.getElem?_map, hentry]
    · rfl
    · rw [List.length_map]
      exact (List.getElem?_eq_some_iff.mp hentry).1
  have htransparent : (Span.layoutWith outer.site.file.text entry.2 entry.1).kind.isDeclaration =
      false := by
    rw [Span.kind, Span.node_layoutWith, hkind]
    rfl
  rw [Nat.zero_add]
  exact comment_drawn h (.step (.through hopened hstands htransparent) .here) hkind hfits

private theorem list_drawn {list first last : Node} {stop : Int} {text : Text}
    (h : revise context entity outer {} root = .ok changes) (hopened : Opened root)
    (hstands : root.children[index]? =
      some (Span.layoutWith source (source.slice last.stop stop) list))
    (hkind : list.kind = .syntaxList) (hfirst : list.children.head? = some first)
    (hlast : list.children.getLast? = some last) (hstart : list.start = first.start)
    (hstop : list.stop = last.stop)
    (htokens : ∀ token ∈ list.children, isModifier token.kind = true ∧ token.children = [])
    (hedit : changes.edits [index] = Change.prepend text
      (Span.layoutWith source (source.slice last.stop stop) list) {}) :
    (Span.layoutWith source (source.slice last.stop stop) list).render
        (changes.edits.below index) =
      text ++ (Span.gapsUpTo source stop list.children).flatMap
        (textUnless source fun token => isDropped token.kind) := by
  obtain ⟨hlead, htail, hseparator, hchildren⟩ := @Span.layoutWith_covered source
    (source.slice last.stop stop) list first last hfirst hlast hstart hstop
  have hspan : (Span.layoutWith source (source.slice last.stop stop) list).kind =
      .syntaxList := by
    rw [Span.kind, Span.node_layoutWith, hkind]
  rw [Span.layoutAllWith_of_last _ hlast] at hchildren
  have hdrawn : Span.renderAll (changes.edits.below index) 0
      ((Span.gapsUpTo source stop list.children).map (Span.layoutEntry source)) =
      (Span.gapsUpTo source stop list.children).flatMap
        (textUnless source fun token => isDropped token.kind) := by
    apply Span.renderAll_eq_flatMap
    intro position entry hentry
    have hmem : entry.1 ∈ list.children := by
      rw [← Span.map_fst_gapsUpTo source stop list.children]
      exact List.mem_map_of_mem (List.mem_of_getElem? hentry)
    obtain ⟨hmodifier, hleaf⟩ := htokens entry.1 hmem
    have hvisits : Visits context outer root [index, position] outer
        (Span.layoutWith source entry.2 entry.1) := by
      apply Visits.step (.through hopened hstands (by rw [hspan]; rfl))
      refine .step (.through (by simp [Opened, hspan]) ?_ ?_) .here
      · rw [hchildren, List.getElem?_map, hentry]
        rfl
      · rw [Span.kind, Span.node_layoutWith]
        exact not_isDeclaration_of_isSecluded (isModifier_iff.mp hmodifier).1
    rw [Nat.zero_add]
    exact token_drawn h hvisits hmodifier hleaf
  have hhere : changes.edits.below index [] = changes.edits [index] := rfl
  rw [Span.render_eq, hchildren, hdrawn, Span.ending, hhere, hedit, htail, hseparator]
  · simp [Change.prepend, hlead]
  · rw [hhere, hedit]
    rfl
  · exact edits_unsorted h [index]

theorem keyword_drawn {text : Text} (hleaf : node.children = [])
    (hedit : changes.edits [index] = {} ∧ text = [] ∨
      changes.edits [index] = Change.prepend text (Span.layoutWith source gap node) {}) :
    (Span.layoutWith source gap node).render (changes.edits.below index) =
      text ++ node.text source ++ gap := by
  obtain ⟨hchildren, hlead, htail, hseparator⟩ := @Span.layoutWith_leaf source gap node hleaf
  rw [Span.render_leaf hchildren, Span.ending, Edits.below, htail, hseparator, hlead]
  rcases hedit with ⟨hedit, rfl⟩ | hedit
  · simp [hedit]
  · simp [hedit, Change.prepend, hlead]

def Heading.Drawn (heading : Heading) (source modifiers : Text) (edits : Edits)
    (root : Span) : Prop :=
  ∃ front own later,
    root.children = front ++ Span.layoutWith source own heading.keyword :: later ∧
    front.length = heading.before.length ∧
    Span.renderAll edits 0 front ++
        (Span.layoutWith source own heading.keyword).render (edits.below front.length) =
      heading.text source modifiers ++ heading.keyword.text source ++ own

section

variable {heading : Heading} (hheads : heading.Heads outer.site.file.text outer.node)
  (hchildren : root.children = Span.layoutAllWith outer.site.file.text gap outer.node.children)
  (hdeclares : root.kind.isDeclaration = true)
  (h : revise context entity outer {} root = .ok changes)
include hheads hchildren hdeclares h

private theorem Heading.Heads.drawn_without_list (hnone : heading.list = none) :
    heading.Drawn outer.site.file.text (modifiers entity outer) changes.edits root := by
  obtain ⟨hopened, _, _, _⟩ := opened_of_declares hdeclares
  obtain ⟨hkind, hleaf⟩ := hheads.keyword
  obtain ⟨own, later, hlater⟩ :=
    @Span.layoutAllWith_cons outer.site.file.text gap heading.keyword heading.rest
  have hlength : heading.before.length = heading.comment.toList.length := by
    simp [Heading.before, hnone]
  rw [hheads.children, Heading.before, hnone, Option.toList_none, List.append_nil,
    Span.layoutAllWith_upTo, hlater] at hchildren
  have hstands : root.children[heading.comment.toList.length]? =
      some (Span.layoutWith outer.site.file.text own heading.keyword) := by
    simp [hchildren, Span.length_gapsUpTo]
  have hbefore : ∀ list,
      siblingBefore none root.children heading.comment.toList.length = some list →
        list.kind ≠ .syntaxList := by
    intro list hlist
    cases hcomment : heading.comment with
    | none =>
        rw [hcomment] at hlist
        cases hlist
    | some comment =>
        obtain ⟨hcommentKind, _⟩ := hheads.comment comment hcomment
        simp only [hchildren, hcomment, Option.toList_some, Span.gapsUpTo, List.length_singleton,
          siblingBefore, List.map_cons, List.cons_append, List.getElem?_cons_zero,
          Option.some.injEq] at hlist
        rw [← hlist, Span.kind, Span.layoutEntry, Span.node_layoutWith, hcommentKind]
        simp
  have hedit := edits_keyword h hdeclares hbefore hstands
    (by rw [Span.kind, Span.node_layoutWith, hkind]) (Span.layoutWith_leaf hleaf).1
  have hcomments := comments_drawn h hopened hchildren (by simpa using hheads.comment)
  refine ⟨_, own, later, hchildren, by simp [hlength, Span.length_gapsUpTo], ?_⟩
  rw [hcomments, List.length_map, Span.length_gapsUpTo, keyword_drawn hleaf (.inr hedit)]
  simp [Heading.text, Heading.modifiersStart, Heading.tokens, hnone, Span.gapsUpTo]

theorem Heading.Heads.drawn_with_list {list : Node} (hsome : heading.list = some list) :
    heading.Drawn outer.site.file.text (modifiers entity outer) changes.edits root := by
  obtain ⟨hopened, _, _, _⟩ := opened_of_declares hdeclares
  obtain ⟨hkind, hleaf⟩ := hheads.keyword
  obtain ⟨hlistKind, first, last, hfirst, hlast, hstart, hstop⟩ := hheads.list list hsome
  obtain ⟨own, later, hlater⟩ :=
    @Span.layoutAllWith_cons outer.site.file.text gap heading.keyword heading.rest
  have htokens : heading.tokens = list.children := by simp [Heading.tokens, hsome]
  have hlength : heading.before.length = heading.comment.toList.length + 1 := by
    simp [Heading.before, hsome]
  rw [hheads.children, Heading.before, hsome, Option.toList_some, List.append_assoc,
    List.singleton_append, Span.layoutAllWith_upTo, Span.layoutAllWith, hlater, hstop] at hchildren
  have hstands : root.children[heading.comment.toList.length]? = some (Span.layoutWith
      outer.site.file.text (outer.site.file.text.slice last.stop heading.keyword.start)
      list) := by
    simp [hchildren, Span.length_gapsUpTo]
  have hnext : root.children[heading.comment.toList.length + 1]? =
      some (Span.layoutWith outer.site.file.text own heading.keyword) := by
    simp [hchildren, Span.length_gapsUpTo]
  obtain ⟨hedit, hplain⟩ := edits_list h hdeclares hstands
    (by rw [Span.kind, Span.node_layoutWith, hlistKind]) hnext
    (by rw [Span.kind, Span.node_layoutWith, hkind]) (Span.layoutWith_leaf hleaf).1
  have hcomments := comments_drawn h hopened hchildren (by simpa using hheads.comment)
  have hmodifiers := list_drawn h hopened hstands hlistKind hfirst hlast hstart hstop
    (htokens ▸ hheads.tokens) hedit
  have hkeyword := @keyword_drawn (heading.comment.toList.length + 1) changes
    outer.site.file.text own heading.keyword [] hleaf (.inl ⟨hplain, rfl⟩)
  rw [List.append_cons] at hchildren
  refine ⟨_, own, later, hchildren, by simp [hlength, Span.length_gapsUpTo], ?_⟩
  rw [Span.renderAll_append, hcomments, List.length_append, List.length_map,
    Span.length_gapsUpTo, Nat.zero_add, List.length_singleton, hkeyword, Span.renderAll,
    hmodifiers, Span.renderAll]
  simp [Heading.text, Heading.modifiersStart, htokens, hfirst, hstart]

private theorem Heading.Heads.renderAll_eq :
    Span.renderAll changes.edits 0 root.children ++ Span.ending changes.edits root =
      heading.text outer.site.file.text (modifiers entity outer) ++
        heading.keyword.text outer.site.file.text ++ heading.remainder changes.edits root := by
  obtain ⟨front, own, later, hsplit, hlength, hdrawn⟩ :
      heading.Drawn outer.site.file.text (modifiers entity outer) changes.edits root := by
    cases hlist : heading.list with
    | none => exact hheads.drawn_without_list hchildren hdeclares h hlist
    | some list => exact hheads.drawn_with_list hchildren hdeclares h hlist
  have hseparator := (@Span.layoutWith_leaf outer.site.file.text own heading.keyword
    hheads.keyword.2).2.2.2
  have hremainder : heading.remainder changes.edits root =
      own ++ Span.renderAll changes.edits (front.length + 1) later ++
        Span.ending changes.edits root := by
    rw [Heading.remainder, ← hlength, hsplit, List.append_cons front, List.drop_left']
    · simp [hseparator]
    · simp
  rw [hremainder, hsplit, Span.renderAll_append, Nat.zero_add, Span.renderAll,
    ← List.append_assoc, hdrawn]
  simp

end

/-- A declaration is drawn with its heading: what a variable starts with, the text of the
heading with the modifiers of the entity, the keyword, and the rest. -/
theorem Heading.Heads.render_eq {heading : Heading}
    (hheads : heading.Heads outer.site.file.text outer.node)
    (hroot : Span.ofNode outer.site.file.text outer.node = .ok root)
    (hdeclares : outer.node.kind.isDeclaration = true)
    (h : revise context entity outer {} root = .ok changes) :
    root.render changes.edits =
      variableOpening entity outer ++
        heading.text outer.site.file.text (modifiers entity outer) ++
        heading.keyword.text outer.site.file.text ++ heading.remainder changes.edits root := by
  obtain ⟨⟨gap, hspan⟩, hnode⟩ := Span.ofNode_spec hroot
  rw [hnode] at hspan
  have hkind : root.kind.isDeclaration = true := by
    rw [Span.kind, hnode]
    exact hdeclares
  have hchildren := @Span.children_layoutWith outer.site.file.text gap outer.node
  rw [← hspan] at hchildren
  have hlead : root.lead = [] := by
    obtain ⟨first, others, hfirst⟩ := List.exists_cons_of_ne_nil
      (show outer.node.children ≠ [] by rw [hheads.children]; simp)
    have hhead : outer.node.children.head? = some first := by rw [hfirst]; rfl
    rw [hspan]
    exact Span.lead_layoutWith hhead (hheads.starts first hhead)
  obtain ⟨hshown, hopening⟩ := edits_declaration hkind hnode hlead h
  rw [Span.render_eq hshown (edits_unsorted h []), hopening, List.append_assoc,
    hheads.renderAll_eq hchildren hkind h]
  simp

end Rollup

open Emit Rollup

/-- Every kept declaration that has a body and no parent starts with its comment, unless
that documents the package, with `export` if its entity is exported inline, with `declare`,
and with its own modifiers in order, without those that are dropped; the keyword follows.
Each of them stands with the gap after it.  A variable has the start of its own statement
in front of all this. -/
theorem rollup_writes_modifiers {graph : ModuleGraph} {router : Router} {surface : Surface}
    {plan : TrimPlan} {omitComments : Bool} {newline : Newline} {document : Text}
    (hanalyze : Surface.analyze graph router = .ok surface)
    (hrollup : surface.rollup plan omitComments newline = .ok document) :
    ∃ raw kind, newline.ending? = some kind ∧
      document = Text.convertNewlines kind raw ∧
      ∀ entity ∈ surface.entities, ∀ outer ∈ surface.declarationsOfEntity entity,
        plan.isKept outer.id = true → surface.isStub outer = false → outer.parent = none →
        ∀ heading : Heading, heading.Heads outer.site.file.text outer.node →
          ∃ root changes,
            declarationChanges ⟨surface, plan, omitComments⟩ entity outer =
              .ok (root, changes) ∧
            Text.line (root.render changes.edits) <:+: raw ∧
            root.render changes.edits =
              variableOpening entity outer ++
                heading.text outer.site.file.text
                  ((if entity.exportsInline then "export ".toList else []) ++
                    "declare ".toList) ++
                heading.keyword.text outer.site.file.text ++
                heading.remainder changes.edits root := by
  obtain ⟨raw, kind, hkind, rfl, -, hcomposed⟩ := rollup_composed hanalyze hrollup
  refine ⟨raw, kind, hkind, rfl, ?_⟩
  intro entity hentity outer houter hkept hwhole hparent heading hheads
  obtain ⟨root, changes, hchanges, hinside⟩ := hcomposed.written hentity houter hkept
  obtain ⟨hroot, -, hrevise⟩ := declarationChanges_eq_ok hchanges
  obtain ⟨_, _, _, hsteps⟩ := Surface.analyze_steps hanalyze
  have hdeclares : outer.node.kind.isDeclaration = true :=
    ((Inventory.ofGraph_forest hsteps.declared).nested
      (Surface.mem_allDeclarations_of_entity houter)).1
  have hdrawn := hheads.render_eq hroot hdeclares (hrevise hwhole)
  rw [modifiers, hparent, Option.isNone_none, if_pos rfl] at hdrawn
  exact ⟨root, changes, hchanges, hinside, hdrawn⟩

def modifiedFile : SourceFile where
  path := .text "index.d.ts"
  text := "//c\nexport abstract  declare class A".toList
  root := .mk .sourceFile 0 36 0 .null
    [.mk .classDeclaration 0 36 1 .null
      [.mk .docComment 0 3 2 .null [],
      .mk .syntaxList 4 28 3 .null
        [.mk .exportKeyword 4 10 4 .null [], .mk .abstractKeyword 11 19 5 .null [],
        .mk .declareKeyword 21 28 6 .null []],
      .mk .classKeyword 29 34 7 .null [], .mk .identifier 35 36 8 .null []]]

def modifiedPackage : ModuleGraph where
  packageName := .text "modified"
  files := [modifiedFile]
  symbols := modifiedFile.root.children.map fun node =>
    { key := .text "A"
      localName := .text "A"
      declarations := [⟨modifiedFile, [modifiedFile.root], node⟩] }
  exports := [(.text "A", .text "A")]
  docFlags := [(1, { releaseTag := .public })]

def modifiedHeading : Heading where
  comment := some (.mk .docComment 0 3 2 .null [])
  list := some (.mk .syntaxList 4 28 3 .null
    [.mk .exportKeyword 4 10 4 .null [], .mk .abstractKeyword 11 19 5 .null [],
    .mk .declareKeyword 21 28 6 .null []])
  keyword := .mk .classKeyword 29 34 7 .null []
  rest := [.mk .identifier 35 36 8 .null []]

private theorem heads_modifiedHeading :
    modifiedHeading.Heads modifiedFile.text (.mk .classDeclaration 0 36 1 .null
      (modifiedHeading.before ++ modifiedHeading.keyword :: modifiedHeading.rest)) where
  children := rfl
  starts := by
    rintro first hfirst
    cases hfirst
    rfl
  comment := by
    rintro comment hcomment
    cases hcomment
    refine ⟨rfl, ?_, ?_, by decide, by decide⟩
    · exact Node.placed_iff.mpr ⟨by simp [Node.not_misplaced_iff, Node.children], by
        simp [Node.children]⟩
    · simp [Node.walk, Node.walkAll, Node.start, Node.stop]
  list := by
    rintro list hlist
    cases hlist
    exact ⟨rfl, _, _, rfl, rfl, rfl, rfl⟩
  tokens := by decide
  keyword := ⟨rfl, rfl⟩

/-- What the source has of the modifiers is written once, and the others stay in order. -/
theorem rollup_writes_modifiers_class :
    ∃ surface plan document entity outer root changes,
    Surface.analyze modifiedPackage {} = .ok surface ∧
    TrimPlan.make surface .public = .ok plan ∧
    surface.rollup plan true ⟨.text "lf", .lf⟩ = .ok document ∧
    document = ("\n//c\nexport declare abstract  class A\n\n" ++
      "export \x7b \x7d\n").toList ∧
    entity ∈ surface.entities ∧ outer ∈ surface.declarationsOfEntity entity ∧
    modifiedHeading.Heads outer.site.file.text outer.node ∧
    declarationChanges ⟨surface, plan, true⟩ entity outer = .ok (root, changes) ∧
    root.render changes.edits =
      "//c\nexport declare abstract  class".toList ++
        modifiedHeading.remainder changes.edits root := by
  have hrun : (do
      let surface ← Surface.analyze modifiedPackage {}
      let plan ← TrimPlan.make surface .public
      let document ← surface.rollup plan true ⟨.text "lf", .lf⟩
      let entity ← pick surface.entities 0
      let outer ← pick (surface.declarationsOfEntity entity) 0
      pure (document, plan.isKept outer.id, surface.isStub outer, outer.parent, outer.node,
        outer.site.file.text, variableOpening entity outer, entity.exportsInline,
        modifiedHeading.text outer.site.file.text "export declare ".toList,
        modifiedHeading.keyword.text outer.site.file.text)) =
        .ok (("\n//c\nexport declare abstract  class A\n\n" ++
            "export \x7b \x7d\n").toList, true, false, none,
          .mk .classDeclaration 0 36 1 .null
            (modifiedHeading.before ++ modifiedHeading.keyword :: modifiedHeading.rest),
          modifiedFile.text, [], true, "//c\nexport declare abstract  ".toList,
          "class".toList) := by
    cbv
  simp only [bind_eq_ok, pure_eq_ok, pick_eq_ok, Prod.mk.injEq] at hrun
  obtain ⟨surface, hanalyze, plan, hplan, document, hrollup, entity, hentity, outer, houter,
    hdocument, hkept, hwhole, hparent, hnode, hsource, hopening, hinline, htext, hkeyword⟩ := hrun
  have hentity := List.mem_of_getElem? hentity
  have houter := List.mem_of_getElem? houter
  have hheads : modifiedHeading.Heads outer.site.file.text outer.node := by
    rw [hnode, hsource]
    exact heads_modifiedHeading
  obtain ⟨raw, kind, _, _, hwritten⟩ := rollup_writes_modifiers hanalyze hrollup
  obtain ⟨root, changes, hchanges, _, hdrawn⟩ :=
    hwritten entity hentity outer houter hkept hwhole hparent modifiedHeading hheads
  refine ⟨surface, plan, document, entity, outer, root, changes, hanalyze, hplan, hrollup,
    hdocument, hentity, houter, hheads, hchanges, ?_⟩
  have hmodifiers : "export ".toList ++ "declare ".toList = "export declare ".toList := rfl
  rw [hdrawn, hopening, hinline, if_pos rfl, hmodifiers, htext, hkeyword]
  rfl

def variableNode : Node :=
  .mk .variableDeclaration 6 13 4 .null
    [.mk .classKeyword 6 11 5 .null [], .mk .identifier 12 13 6 .null []]

def variableListNode : Node :=
  .mk .variableDeclarationList 0 13 2 .null [.mk .constKeyword 0 5 3 .null [], variableNode]

def keywordVariableFile : SourceFile where
  path := .text "index.d.ts"
  text := "const class X".toList
  root := .mk .sourceFile 0 13 0 .null [.mk .variableStatement 0 13 1 .null [variableListNode]]

def keywordVariablePackage : ModuleGraph where
  packageName := .text "variable"
  files := [keywordVariableFile]
  symbols := [{ key := .text "X"
                localName := .text "X"
                declarations := [⟨keywordVariableFile,
                  variableListNode :: keywordVariableFile.root.children ++
                    [keywordVariableFile.root], variableNode⟩] }]
  exports := [(.text "X", .text "X")]
  docFlags := [(4, { releaseTag := .public })]

def variableHeading : Heading where
  comment := none
  list := none
  keyword := .mk .classKeyword 6 11 5 .null []
  rest := [.mk .identifier 12 13 6 .null []]

private theorem heads_variableHeading :
    variableHeading.Heads keywordVariableFile.text variableNode where
  children := rfl
  starts := by
    rintro first hfirst
    cases hfirst
    rfl
  comment := by
    rintro comment hcomment
    cases hcomment
  list := by
    rintro list hlist
    cases hlist
  tokens := by
    rintro token htoken
    cases htoken
  keyword := ⟨rfl, rfl⟩

/-- The modifiers of a variable are written twice, before its statement and before its own
keyword. -/
theorem rollup_repeats_modifiers :
    ∃ surface plan document entity outer root changes,
    Surface.analyze keywordVariablePackage {} = .ok surface ∧
    TrimPlan.make surface .public = .ok plan ∧
    surface.rollup plan true ⟨.text "lf", .lf⟩ = .ok document ∧
    document = ("\nexport declare const export declare class X;\n\n" ++
      "export \x7b \x7d\n").toList ∧
    entity ∈ surface.entities ∧ outer ∈ surface.declarationsOfEntity entity ∧
    plan.isKept outer.id = true ∧ surface.isStub outer = false ∧ outer.parent = none ∧
    variableHeading.Heads outer.site.file.text outer.node ∧ entity.exportsInline = true ∧
    declarationChanges ⟨surface, plan, true⟩ entity outer = .ok (root, changes) ∧
    variableHeading.text outer.site.file.text "export declare ".toList ++
        variableHeading.keyword.text outer.site.file.text = "export declare class".toList ∧
    ¬ "export declare class".toList <+: root.render changes.edits := by
  have hrun : (do
      let surface ← Surface.analyze keywordVariablePackage {}
      let plan ← TrimPlan.make surface .public
      let document ← surface.rollup plan true ⟨.text "lf", .lf⟩
      let entity ← pick surface.entities 0
      let outer ← pick (surface.declarationsOfEntity entity) 0
      let made ← declarationChanges ⟨surface, plan, true⟩ entity outer
      pure (document, plan.isKept outer.id, surface.isStub outer, outer.parent, outer.node,
        outer.site.file.text, entity.exportsInline,
        variableHeading.text outer.site.file.text "export declare ".toList ++
          variableHeading.keyword.text outer.site.file.text,
        "export declare class".toList.isPrefixOf (made.1.render made.2.edits))) =
        .ok (("\nexport declare const export declare class X;\n\n" ++
            "export \x7b \x7d\n").toList, true, false, none, variableNode,
          keywordVariableFile.text, true, "export declare class".toList, false) := by
    cbv
  simp only [bind_eq_ok, pure_eq_ok, pick_eq_ok, Prod.mk.injEq] at hrun
  obtain ⟨surface, hanalyze, plan, hplan, document, hrollup, entity, hentity, outer, houter,
    ⟨root, changes⟩, hchanges, hdocument, hkept, hwhole, hparent, hnode, hsource, hinline, htext,
    hdrawn⟩ := hrun
  refine ⟨surface, plan, document, entity, outer, root, changes, hanalyze, hplan, hrollup,
    hdocument, List.mem_of_getElem? hentity, List.mem_of_getElem? houter, hkept, hwhole, hparent,
    ?_, hinline, hchanges, htext, ?_⟩
  · rw [hnode, hsource]
    exact heads_variableHeading
  · rw [← List.isPrefixOf_iff_prefix, hdrawn]
    exact Bool.false_ne_true

end ApiSurface
