import ApiSurface.Proofs.Rollup.Walk

/-!
# Effects of a revision

A revision that starts at the span of a declaration changes spans near the walk:
the visited span itself, the list of modifiers before it, a member that is taken
out with the comma after it or with the variable statement around it, and the
children of a stub.  Only some of these changes leave anything out.
-/

namespace ApiSurface

/-! ## Kinds of changes -/

namespace Change

/-- The change never gives back what another one has taken away, and sorts nothing. -/
structure Steady (change : Change) : Prop where
  omitted : ∀ edit, edit.omitChildren = true → (change edit).omitChildren = true
  led : ∀ edit, edit.lead.isSome = true → (change edit).lead.isSome = true
  tailed : ∀ edit, edit.tail.isSome = true → (change edit).tail.isSome = true
  unsorted : ∀ edit, edit.sortChildren = false → (change edit).sortChildren = false

def KeepsChildren (change : Change) : Prop :=
  ∀ edit, (change edit).omitChildren = edit.omitChildren

theorem steady_skip : Steady skip := by
  constructor <;> simp [skip]

private theorem steady_omitChildren : Steady omitChildren := by
  constructor <;> simp [omitChildren]

theorem steady_setLead (text : Text) : Steady (setLead text) := by
  constructor <;> simp [setLead]

theorem steady_setTail (text : Text) : Steady (setTail text) := by
  constructor <;> simp [setTail]

theorem steady_prepend (text : Text) (span : Span) : Steady (prepend text span) := by
  constructor <;> simp [prepend]

private theorem steady_omitSeparator : Steady omitSeparator := by
  constructor <;> simp [omitSeparator]

private theorem steady_giveLead {value : Datum} (hvalue : value.present = true) :
    Steady (giveLead value) := by
  cases value with
  | null => cases hvalue
  | text text => exact steady_setLead text.toList
  | _ => constructor <;> simp [giveLead]

theorem keepsChildren_giveLead (value : Datum) : KeepsChildren (giveLead value) := by
  intro edit
  cases value <;> rfl

end Change

namespace Emit

def trailTo (root : Span) (path : Path) : Trail := ({} : Trail).down root path

variable {root span child : Span} {path : Path} {index : Nat}

theorem path_trailTo (h : root.descendant? path = some span) :
    (trailTo root path).path = path := by
  simp [trailTo, Trail.path_down h]

theorem exists_parent {index : Nat} (h : root.descendant? (path ++ [index]) = some child) :
    ∃ parent, root.descendant? path = some parent ∧ parent.children[index]? = some child := by
  induction path generalizing root with
  | nil =>
      cases hchild : root.children[index]? with
      | none => simp [Span.descendant?, hchild] at h
      | some found =>
          obtain rfl : found = child := by simpa [Span.descendant?, hchild] using h
          exact ⟨root, rfl, hchild⟩
  | cons first path ih =>
      cases hfirst : root.children[first]? with
      | none => simp [Span.descendant?, hfirst] at h
      | some found =>
          rw [List.cons_append, Span.descendant?_cons hfirst] at h
          obtain ⟨parent, hparent, hchild⟩ := ih h
          exact ⟨parent, by rwa [Span.descendant?_cons hfirst], hchild⟩

theorem descendant?_concat (h : root.descendant? path = some span)
    (hchild : span.children[index]? = some child) :
    root.descendant? (path ++ [index]) = some child := by
  rw [Span.descendant?_append h, Span.descendant?_cons hchild]
  rfl

theorem trailTo_concat (h : root.descendant? path = some span)
    (hchild : span.children[index]? = some child) :
    trailTo root (path ++ [index]) = (trailTo root path).step span index :=
  Trail.down_concat h hchild

theorem previous_trailTo {before : Span} (h : root.descendant? path = some span)
    (hbefore : (trailTo root path).previous = some before) :
    root.descendant? (sibling path Nat.pred) = some before ∧
      ∃ parent index, path = parent ++ [index] := by
  induction path using List.reverseRecOn with
  | nil => simp [trailTo, Trail.down] at hbefore
  | append_singleton path index _ =>
      obtain ⟨parent, hparent, hchild⟩ := exists_parent h
      rw [trailTo_concat hparent hchild] at hbefore
      refine ⟨?_, path, index, rfl⟩
      rw [sibling_concat]
      cases index with
      | zero => simp [Trail.step, Trail.child, siblingBefore] at hbefore
      | succ index =>
          exact descendant?_concat hparent hbefore

private theorem next_trailTo {after : Span} (h : root.descendant? path = some span)
    (hafter : (trailTo root path).next = some after) :
    root.descendant? (sibling path Nat.succ) = some after ∧
      ∃ parent index, path = parent ++ [index] := by
  induction path using List.reverseRecOn with
  | nil => simp [trailTo, Trail.down] at hafter
  | append_singleton path index _ =>
      obtain ⟨parent, hparent, hchild⟩ := exists_parent h
      rw [trailTo_concat hparent hchild] at hafter
      refine ⟨?_, path, index, rfl⟩
      rw [sibling_concat]
      exact descendant?_concat hparent hafter

theorem mem_above_trailTo {frame : Frame} (h : root.descendant? path = some span)
    (hframe : frame ∈ (trailTo root path).above) :
    root.descendant? frame.path = some frame.span ∧ frame.path <+: path ∧
      frame.next = (trailTo root frame.path).next := by
  rcases Trail.mem_above_down h hframe with
    hnone | ⟨first, index, last, hpath, hspan, haddress, hnext⟩
  · cases hnone
  · rw [List.nil_append] at haddress
    subst haddress
    exact ⟨hspan, ⟨index :: last, hpath.symm⟩, hnext⟩

end Emit

namespace Rollup

open Emit

variable {context : Context} {entity : Entity} {declaration : Declaration}
  {trail : Trail} {root span child : Span} {change : Path × Change} {path : Path}

/-! ## Members taken out -/

/-- What is taken out with a member: the variable statement around a variable, and
otherwise the member alone. -/
def taken (trail : Trail) (span : Span) : Frame :=
  match if span.kind = .variableDeclaration then trail.find? .variableStatement else none with
  | some statement => statement
  | none => ⟨trail.path, span, trail.next⟩

theorem trimMember_eq (member : Declaration) :
    trimMember context trail span member =
      takeOut (if context.omitComments then [] else excludedComment member.symbol.name)
        (taken trail span).path (taken trail span).span (taken trail span).next := by
  unfold trimMember taken
  cases if span.kind = .variableDeclaration then trail.find? .variableStatement else none
    <;> rfl

theorem taken_spec (h : root.descendant? path = some span) :
    root.descendant? (taken (trailTo root path) span).path =
        some (taken (trailTo root path) span).span ∧
      (taken (trailTo root path) span).path <+: path ∧
      (taken (trailTo root path) span).next =
        (trailTo root (taken (trailTo root path) span).path).next ∧
      ((taken (trailTo root path) span).span = span ∨
        (taken (trailTo root path) span).span.kind = .variableStatement) := by
  cases hfound : if span.kind = .variableDeclaration then
      (trailTo root path).find? .variableStatement else none with
  | none =>
      have htaken : taken (trailTo root path) span =
          ⟨(trailTo root path).path, span, (trailTo root path).next⟩ := by
        simp [taken, hfound]
      rw [htaken, path_trailTo h]
      exact ⟨h, List.prefix_rfl, rfl, .inl rfl⟩
  | some statement =>
      have htaken : taken (trailTo root path) span = statement := by
        simp [taken, hfound]
      rw [htaken]
      have hfind : (trailTo root path).find? .variableStatement = some statement := by
        split at hfound
        · exact hfound
        · cases hfound
      have hmem := List.mem_of_find?_eq_some hfind
      have hkind : statement.span.kind = .variableStatement := by
        simpa using List.find?_some hfind
      obtain ⟨hspan, hpath, hnext⟩ := mem_above_trailTo h hmem
      exact ⟨hspan, hpath, hnext, .inr hkind⟩

theorem mem_takeOut {comment : Text} {next : Option Span}
    (h : change ∈ takeOut comment path span next) :
    change.2.Steady ∧ (change.1 = path ∨
      ∃ comma, next = some comma ∧ comma.kind = .commaToken ∧
        change.1 = sibling path Nat.succ) := by
  unfold takeOut at h
  rcases List.mem_append.mp h with h | h
  · simp only [List.mem_cons, List.not_mem_nil, or_false] at h
    rcases h with rfl | rfl | rfl
    · exact ⟨Change.steady_omitChildren, .inl rfl⟩
    · exact ⟨Change.steady_setLead _, .inl rfl⟩
    · exact ⟨Change.steady_setTail _, .inl rfl⟩
  · cases hcomma : next.filter fun sibling => sibling.kind = .commaToken with
    | none => simp [hcomma] at h
    | some comma =>
        obtain ⟨hnext, hkind⟩ := Option.filter_eq_some_iff.mp hcomma
        simp only [hcomma, Option.isSome_some, if_true, List.mem_singleton] at h
        subst h
        exact ⟨Change.steady_skip, .inr ⟨comma, hnext, by simpa using hkind, rfl⟩⟩

private theorem edits_of_takeOut {comment : Text} {next : Option Span} {changes : Changes}
    (hsteady : ∀ change ∈ changes, change.2.Steady)
    (hmade : takeOut comment path span next ⊆ changes) :
    (changes.edits path).omitChildren = true ∧ (changes.edits path).lead.isSome = true ∧
      (changes.edits path).tail.isSome = true := by
  refine ⟨?_, ?_, ?_⟩
  · apply Changes.edits_of_mem (fun edit => edit.omitChildren = true)
      (hmade (List.mem_append_left _ (.head _))) rfl (fun _ => rfl)
    exact fun change hmem _ => (hsteady change hmem).omitted
  · apply Changes.edits_of_mem (fun edit => edit.lead.isSome = true)
      (hmade (List.mem_append_left _ (.tail _ (.head _)))) rfl (fun _ => rfl)
    exact fun change hmem _ => (hsteady change hmem).led
  · apply Changes.edits_of_mem (fun edit => edit.tail.isSome = true)
      (hmade (List.mem_append_left _ (.tail _ (.tail _ (.head _))))) rfl (fun _ => rfl)
    exact fun change hmem _ => (hsteady change hmem).tailed

/-! ## Stubs -/

theorem mem_stubChildren {modifiers : Text} {index : Nat} {afterName : Bool}
    {children : List Span} (h : change ∈ stubChildren modifiers path index afterName children) :
    change.2.Steady ∧ ∃ position, index ≤ position ∧ change.1 = path ++ [position] := by
  induction children generalizing index afterName with
  | nil => cases h
  | cons first rest ih =>
      rw [stubChildren] at h
      rcases List.mem_append.mp h with h | h
      · unfold stubChild at h
        rcases List.mem_append.mp h with h | h
        · split_ifs at h
          · obtain rfl := List.mem_singleton.mp h
            exact ⟨Change.steady_skip, index, le_rfl, rfl⟩
          · obtain rfl := List.mem_singleton.mp h
            exact ⟨Change.steady_prepend _ _, index, le_rfl, rfl⟩
          · cases h
        · split_ifs at h
          · simp only [List.mem_cons, List.not_mem_nil, or_false] at h
            rcases h with rfl | rfl
            · exact ⟨Change.steady_omitSeparator, index, le_rfl, rfl⟩
            · exact ⟨Change.steady_setTail _, index, le_rfl, rfl⟩
          · cases h
      · obtain ⟨hsteady, position, hposition, haddress⟩ := ih h
        exact ⟨hsteady, position, Nat.le_of_succ_le hposition, haddress⟩

/-! ## Changes of a span itself -/

def isDropped (kind : NodeKind) : Bool :=
  kind = .exportKeyword || kind = .defaultKeyword || kind = .declareKeyword

theorem mem_writeModifiers {text : Text} (h : change ∈ writeModifiers text trail span) :
    (∃ other, change.2 = Change.prepend text other) ∧ (change.1 = trail.path ∨
      ∃ list, trail.previous = some list ∧ list.kind = .syntaxList ∧
        change.1 = sibling trail.path Nat.pred) := by
  unfold writeModifiers at h
  split at h
  · rename_i list hprevious
    split at h
    · rename_i hkind
      obtain rfl := List.mem_singleton.mp h
      exact ⟨⟨list, rfl⟩, .inr ⟨list, hprevious, hkind, rfl⟩⟩
    · obtain rfl := List.mem_singleton.mp h
      exact ⟨⟨span, rfl⟩, .inl rfl⟩
  · obtain rfl := List.mem_singleton.mp h
    exact ⟨⟨span, rfl⟩, .inl rfl⟩

theorem renameIdentifier_eq_ok {surface : Surface} {node : Node} {own : Changes}
    (h : renameIdentifier surface path node = .ok own) :
    (surface.entityForNode node = .ok none ∧ own = []) ∨
      ∃ bound, surface.entityForNode node = .ok (some bound) ∧ bound.name.present = true ∧
        own = [(path, Change.giveLead bound.name)] := by
  simp only [renameIdentifier, bind_eq_ok] at h
  obtain ⟨found, hfound, h⟩ := h
  cases found with
  | none =>
      cases h
      exact .inl ⟨hfound, rfl⟩
  | some bound =>
      simp only [bind_eq_ok, pure_eq_ok] at h
      obtain ⟨name, hname, rfl⟩ := h
      unfold Surface.writtenName at hname
      split at hname
      · rename_i hpresent
        cases hname
        exact .inr ⟨bound, hfound, hpresent, rfl⟩
      · simp only [bind_eq_ok] at hname
        obtain ⟨_, _, hthrow⟩ := hname
        cases hthrow

theorem mem_ownChanges {kind : NodeKind} {own : Changes}
    (h : ownChanges context entity declaration trail span kind = .ok own)
    (hchange : change ∈ own) :
    (isDropped kind = true ∧ change = (trail.path, Change.skip)) ∨
      change.2.Steady ∧ change.2.KeepsChildren ∧ (change.1 = trail.path ∨
        ∃ list, trail.previous = some list ∧ list.kind = .syntaxList ∧
          change.1 = sibling trail.path Nat.pred) := by
  unfold ownChanges at h
  split_ifs at h with hkeyword hmodified hvariable hidentifier
  · rw [pure_eq_ok] at h
    subst h
    exact .inl ⟨hkeyword, List.mem_singleton.mp hchange⟩
  · rw [pure_eq_ok] at h
    subst h
    obtain ⟨⟨other, hprepend⟩, haddress⟩ := mem_writeModifiers hchange
    rw [hprepend]
    exact .inr ⟨Change.steady_prepend _ _, fun _ => rfl, haddress⟩
  · simp only [writeVariable, bind_eq_ok, pure_eq_ok] at h
    obtain ⟨list, _, rfl⟩ := h
    simp only [List.mem_cons, List.not_mem_nil, or_false] at hchange
    rcases hchange with rfl | rfl
    · exact .inr ⟨Change.steady_prepend _ _, fun _ => rfl, .inl rfl⟩
    · exact .inr ⟨Change.steady_setTail _, fun _ => rfl, .inl rfl⟩
  · rcases renameIdentifier_eq_ok h with ⟨_, rfl⟩ | ⟨bound, _, hpresent, rfl⟩
    · cases hchange
    · obtain rfl := List.mem_singleton.mp hchange
      exact .inr ⟨Change.steady_giveLead hpresent,
        Change.keepsChildren_giveLead _, .inl rfl⟩
  · rw [pure_eq_ok] at h
    subst h
    cases hchange

/-! ## Effects from the root -/

theorem Visits.way {inner : Declaration}
    (h : Visits context declaration root path inner span) :
    ∃ chain, Way declaration root path chain span ∧ chain.getLastD declaration = inner := by
  induction h with
  | here => exact ⟨[], .here, rfl⟩
  | step goes _ ih =>
      obtain ⟨first, hfirst, rfl⟩ := goes.way
      obtain ⟨rest, hrest, rfl⟩ := ih
      refine ⟨first ++ rest, hfirst.append hrest, ?_⟩
      cases rest using List.reverseRecOn with
      | nil => simp
      | append_singleton rest last => simp [← List.append_assoc]

theorem Visits.descendant? {inner : Declaration}
    (h : Visits context declaration root path inner span) :
    root.descendant? path = some span := by
  obtain ⟨chain, hway, _⟩ := h.way
  exact hway.descendant?

theorem Visits.unique {inner other : Declaration} {target : Span}
    (h : Visits context declaration root path inner span)
    (h' : Visits context declaration root path other target) :
    inner = other ∧ span = target := by
  obtain ⟨chain, hway, rfl⟩ := h.way
  obtain ⟨chain', hway', rfl⟩ := h'.way
  obtain ⟨rfl, rfl⟩ := hway.unique hway'
  exact ⟨rfl, rfl⟩

theorem Visits.split {rest : Path} {inner : Declaration}
    (h : Visits context declaration root (path ++ rest) inner span) :
    ∃ middle between, Visits context declaration root path middle between ∧
      Visits context middle between rest inner span := by
  induction path generalizing declaration root with
  | nil => exact ⟨declaration, root, .here, h⟩
  | cons index path ih =>
      cases h with
      | step goes rest =>
          obtain ⟨middle, between, hfirst, hlast⟩ := ih rest
          exact ⟨middle, between, .step goes hfirst, hlast⟩

theorem Visits.member_kept {place rest : Path} {index : Nat} {middle inner member : Declaration}
    {between : Span} (h : Visits context declaration root (place ++ index :: rest) inner span)
    (hplace : Visits context declaration root place middle between) (opened : Opened between)
    (stands : between.children[index]? = some child)
    (declares : child.kind.isDeclaration = true)
    (found : Surface.member middle child.node = .ok member) :
    context.plan.isKept member.id = true ∧ context.surface.isStub member = false := by
  obtain ⟨other, visited, hfirst, hrest⟩ := h.split
  obtain ⟨rfl, rfl⟩ := hfirst.unique hplace
  cases hrest with
  | step goes _ =>
      obtain rfl := Option.some.inj (stands.symm.trans goes.stands)
      exact goes.member_kept opened declares found

theorem Own.steady (h : Own context entity declaration trail span change) :
    change.2.Steady := by
  cases h with
  | comment => exact Change.steady_skip
  | replaced _ made =>
      simp only [replaceWhole, List.mem_cons, List.not_mem_nil, or_false] at made
      rcases made with rfl | rfl
      · exact Change.steady_skip
      · exact Change.steady_setLead _
  | opened _ atSpan made =>
      rcases mem_ownChanges atSpan made with ⟨_, rfl⟩ | ⟨hsteady, _⟩
      · exact Change.steady_skip
      · exact hsteady

theorem Own.address (h : Own context entity declaration trail span change) :
    change.1 = trail.path ∨ ∃ list, trail.previous = some list ∧
      list.kind = .syntaxList ∧ change.1 = sibling trail.path Nat.pred := by
  cases h with
  | comment => exact .inl rfl
  | replaced _ made =>
      simp only [replaceWhole, List.mem_cons, List.not_mem_nil, or_false] at made
      rcases made with rfl | rfl <;> exact .inl rfl
  | opened _ atSpan made =>
      rcases mem_ownChanges atSpan made with ⟨_, rfl⟩ | ⟨_, _, haddress⟩
      · exact .inl rfl
      · exact haddress

private theorem Own.kind_of_omits (h : Own context entity declaration trail span change)
    (homits : ¬ change.2.KeepsChildren) :
    change.1 = trail.path ∧
      (span.kind = .docComment ∨ span.kind = .importType ∨ isDropped span.kind = true) := by
  cases h with
  | comment kind => exact ⟨rfl, .inl kind⟩
  | replaced kind made =>
      simp only [replaceWhole, List.mem_cons, List.not_mem_nil, or_false] at made
      rcases made with rfl | rfl <;> exact ⟨rfl, .inr (.inl kind)⟩
  | opened _ atSpan made =>
      rcases mem_ownChanges atSpan made with ⟨hkeyword, rfl⟩ | ⟨_, hkeeps, _⟩
      · exact ⟨rfl, .inr (.inr hkeyword)⟩
      · exact absurd hkeeps homits

theorem Effect.steady (h : Effect context entity declaration trail span change) :
    change.2.Steady := by
  cases h with
  | own made => exact made.steady
  | trimmed _ _ _ _ _ made =>
      rw [trimMember_eq] at made
      exact (mem_takeOut made).1
  | stubbed _ _ _ _ _ made => exact (mem_stubChildren made).1

theorem steady_of_revise {changes : Changes}
    (h : revise context entity declaration trail root = .ok changes)
    (hchange : change ∈ changes) : change.2.Steady := by
  obtain ⟨_, _, _, _, _, heffect⟩ := revise_caused h hchange
  exact heffect.steady

/-- The addresses near a visited span that an effect there can change. -/
inductive Nearby (context : Context) (declaration : Declaration) (root : Span)
    (path : Path) (span : Span) : Path → Prop
  | above {address : Path} (onTheWay : address <+: path) :
      Nearby context declaration root path span address
  | beside {parent : Path} {index : Nat} {other : Span}
      (stands : root.descendant? (parent ++ [index]) = some other)
      (kind : other.kind = .syntaxList ∨ other.kind = .commaToken)
      (onTheWay : parent <+: path) :
      Nearby context declaration root path span (parent ++ [index])
  | member {index : Nat} {child : Span} (stands : span.children[index]? = some child)
      (declares : child.kind.isDeclaration = true) :
      Nearby context declaration root path span (path ++ [index])
  | inStub {index position : Nat} {child : Span} {member : Declaration}
      (opened : Opened span) (stands : span.children[index]? = some child)
      (declares : child.kind.isDeclaration = true)
      (found : Surface.member declaration child.node = .ok member)
      (bodiless : context.surface.isStub member = true) :
      Nearby context declaration root path span (path ++ [index, position])

inductive LeavesOut (context : Context) (declaration : Declaration) (root : Span)
    (path : Path) (span : Span) : Path → Prop
  | self (kind : span.kind = .docComment ∨ span.kind = .importType ∨
      isDropped span.kind = true) : LeavesOut context declaration root path span path
  | member {index : Nat} {child : Span} {member : Declaration} (opened : Opened span)
      (stands : span.children[index]? = some child)
      (declares : child.kind.isDeclaration = true)
      (found : Surface.member declaration child.node = .ok member)
      (unkept : context.plan.isKept member.id = false) :
      LeavesOut context declaration root path span
        (taken (trailTo root (path ++ [index])) child).path
  | comma {index : Nat} {child comma : Span} {member : Declaration} (opened : Opened span)
      (stands : span.children[index]? = some child)
      (declares : child.kind.isDeclaration = true)
      (found : Surface.member declaration child.node = .ok member)
      (unkept : context.plan.isKept member.id = false)
      (follows : (taken (trailTo root (path ++ [index])) child).next = some comma)
      (kind : comma.kind = .commaToken) :
      LeavesOut context declaration root path span
        (sibling (taken (trailTo root (path ++ [index])) child).path Nat.succ)
  | inStub {index position : Nat} {child : Span} {member : Declaration}
      (opened : Opened span) (stands : span.children[index]? = some child)
      (declares : child.kind.isDeclaration = true)
      (found : Surface.member declaration child.node = .ok member)
      (bodiless : context.surface.isStub member = true) :
      LeavesOut context declaration root path span (path ++ [index, position])

private theorem prefix_of_prefix_concat {first second : Path} {index : Nat}
    (h : first ++ [index] <+: second) : first <+: second :=
  (List.prefix_append first [index]).trans h

theorem mem_trimMember {index : Nat} {member : Declaration}
    (hspan : root.descendant? path = some span)
    (hchild : span.children[index]? = some child)
    (h : change ∈ trimMember context ((trailTo root path).step span index) child member) :
    change.1 = (taken (trailTo root (path ++ [index])) child).path ∨
      ∃ comma, (taken (trailTo root (path ++ [index])) child).next = some comma ∧
        comma.kind = .commaToken ∧
        change.1 = sibling (taken (trailTo root (path ++ [index])) child).path Nat.succ := by
  rw [← trailTo_concat hspan hchild, trimMember_eq] at h
  exact (mem_takeOut h).2

theorem taken_comma {comma : Span} (h : root.descendant? path = some span)
    (hcomma : (taken (trailTo root path) span).next = some comma) :
    ∃ parent position, sibling (taken (trailTo root path) span).path Nat.succ =
        parent ++ [position] ∧
      root.descendant? (parent ++ [position]) = some comma ∧
      ∃ index, parent ++ [index] <+: path := by
  obtain ⟨hstands, hway, hnext, _⟩ := taken_spec h
  rw [hnext] at hcomma
  obtain ⟨hfound, parent, index, hpath⟩ := next_trailTo hstands hcomma
  rw [hpath, sibling_concat] at hfound
  rw [hpath] at hway ⊢
  exact ⟨parent, _, sibling_concat _ _ _, hfound, index, hway⟩

theorem Effect.nearby (hspan : root.descendant? path = some span)
    (h : Effect context entity declaration (trailTo root path) span change) :
    Nearby context declaration root path span change.1 := by
  have hpath := path_trailTo hspan
  cases h with
  | own made =>
      rcases made.address with haddress | ⟨list, hlist, hkind, haddress⟩
      · rw [haddress, hpath]
        exact .above List.prefix_rfl
      · obtain ⟨hfound, parent, index, rfl⟩ := previous_trailTo hspan hlist
        rw [sibling_concat] at hfound
        rw [haddress, hpath, sibling_concat]
        exact .beside hfound (.inl hkind) (List.prefix_append _ _)
  | trimmed _ stands declares _ _ made =>
      rcases mem_trimMember hspan stands made with
        haddress | ⟨comma, hcomma, hkind, haddress⟩
      · obtain ⟨_, hway, _, _⟩ := taken_spec (descendant?_concat hspan stands)
        rw [haddress]
        rcases List.prefix_concat_iff.mp hway with hself | hway
        · rw [hself]
          exact .member stands declares
        · exact .above hway
      · obtain ⟨parent, position, hpath, hfound, other, hway⟩ :=
          taken_comma (descendant?_concat hspan stands) hcomma
        rw [haddress, hpath]
        refine .beside hfound (.inr hkind) ?_
        rcases List.prefix_concat_iff.mp hway with heq | hway
        · exact (List.append_inj_left' heq rfl) ▸ List.prefix_rfl
        · exact prefix_of_prefix_concat hway
  | stubbed opened stands declares found bodiless made =>
      obtain ⟨_, position, _, haddress⟩ := mem_stubChildren made
      rw [haddress, ← trailTo_concat hspan stands,
        path_trailTo (descendant?_concat hspan stands), List.append_assoc]
      exact .inStub opened stands declares found bodiless

private theorem Effect.leavesOut (hspan : root.descendant? path = some span)
    (h : Effect context entity declaration (trailTo root path) span change)
    (homits : ¬ change.2.KeepsChildren) :
    LeavesOut context declaration root path span change.1 := by
  cases h with
  | own made =>
      obtain ⟨haddress, hkind⟩ := made.kind_of_omits homits
      rw [haddress, path_trailTo hspan]
      exact .self hkind
  | trimmed opened stands declares found unkept made =>
      rcases mem_trimMember hspan stands made with
        haddress | ⟨comma, hcomma, hkind, haddress⟩
      · rw [haddress]
        exact .member opened stands declares found unkept
      · rw [haddress]
        exact .comma opened stands declares found unkept hcomma hkind
  | stubbed opened stands declares found bodiless made =>
      obtain ⟨_, position, _, haddress⟩ := mem_stubChildren made
      rw [haddress, ← trailTo_concat hspan stands,
        path_trailTo (descendant?_concat hspan stands), List.append_assoc]
      exact .inStub opened stands declares found bodiless

def isSecluded (kind : NodeKind) : Bool :=
  !(kind.isDeclaration || kind = .syntaxList || kind = .commaToken)

theorem Nearby.not_below {place address : Path} {inner other : Declaration}
    {target : Span} (h : Nearby context inner root place target address)
    (hplace : Visits context declaration root place inner target)
    (hvisits : Visits context declaration root path other span)
    (hsecluded : isSecluded span.kind = true) (hapart : ¬ path <+: place) :
    ¬ path <+: address := by
  intro hbelow
  obtain ⟨⟨hplain, hlist⟩, hcomma⟩ : (span.kind.isDeclaration = false ∧
      span.kind ≠ .syntaxList) ∧ span.kind ≠ .commaToken := by
    simpa [isSecluded] using hsecluded
  -- The secluded span is no member of the visited span.
  have hmember : ∀ {index child}, target.children[index]? = some child →
      child.kind.isDeclaration = true → ¬ path <+: place ++ [index] := by
    intro index child stands declares hbelow
    rcases List.prefix_concat_iff.mp hbelow with rfl | hbelow
    · have hchild := descendant?_concat hplace.descendant? stands
      obtain rfl := Option.some.inj (hchild.symm.trans hvisits.descendant?)
      simp [hplain] at declares
    · exact hapart hbelow
  cases h with
  | above onTheWay => exact hapart (hbelow.trans onTheWay)
  | beside stands hkind onTheWay =>
      rcases List.prefix_concat_iff.mp hbelow with rfl | hbelow
      · obtain rfl := Option.some.inj (stands.symm.trans hvisits.descendant?)
        exact hkind.elim hlist hcomma
      · exact hapart (hbelow.trans onTheWay)
  | member stands declares => exact hmember stands declares hbelow
  | @inStub index position child _ opened stands declares found bodiless =>
      rw [List.append_cons] at hbelow
      rcases List.prefix_concat_iff.mp hbelow with rfl | hbelow
      · -- The walk does not go into a stub.
        rw [← List.append_cons] at hvisits
        simp [(hvisits.member_kept hplace opened stands declares found).2] at bodiless
      · exact hmember stands declares hbelow

/-! ## The edits of a revised declaration -/

section Edits

variable {changes : Changes}

theorem edits_unsorted (h : revise context entity declaration {} root = .ok changes)
    (path : Path) : (changes.edits path).sortChildren = false :=
  Changes.edits_of_keeps (fun edit => edit.sortChildren = false) rfl
    fun _ hmem _ => (steady_of_revise h hmem).unsorted

theorem exists_leavesOut (h : revise context entity declaration {} root = .ok changes)
    (homitted : (changes.edits path).omitChildren = true) :
    ∃ place inner target, Visits context declaration root place inner target ∧
      LeavesOut context inner root place target path := by
  obtain ⟨change, hmem, rfl, edit, hbefore, hafter⟩ :=
    Changes.exists_of_edits (fun edit => edit.omitChildren = true) (by simp) homitted
  obtain ⟨place, inner, target, _, hvisits, heffect⟩ := revise_caused h hmem
  refine ⟨place, inner, target, hvisits, heffect.leavesOut hvisits.descendant? ?_⟩
  intro hkeeps
  rw [hkeeps edit] at hafter
  exact hbefore hafter

theorem edits_taken {inner member : Declaration} {index : Nat}
    (h : revise context entity declaration {} root = .ok changes)
    (hvisits : Visits context declaration root path inner span) (opened : Opened span)
    (stands : span.children[index]? = some child)
    (declares : child.kind.isDeclaration = true)
    (found : Surface.member inner child.node = .ok member)
    (unkept : context.plan.isKept member.id = false) :
    (changes.edits (taken (trailTo root (path ++ [index])) child).path).omitChildren = true ∧
      (changes.edits (taken (trailTo root (path ++ [index])) child).path).lead.isSome = true ∧
      (changes.edits (taken (trailTo root (path ++ [index])) child).path).tail.isSome =
        true := by
  have hsteady := fun change hmem => @steady_of_revise _ _ _ _ _ change _ h hmem
  obtain ⟨before, part, after, rfl, hpart, _⟩ := revise_visited hvisits h
  obtain ⟨first, whole, last, rfl, hwhole, _⟩ := revise_split hpart stands (.inl opened)
  have htrim := hwhole.eq_trimMember opened stands declares found unkept
  rw [show Trail.down {} root path = trailTo root path from rfl,
    ← trailTo_concat hvisits.descendant? stands, trimMember_eq] at htrim
  apply edits_of_takeOut hsteady
  rw [← htrim]
  intro change hmem
  simp [hmem]

theorem edits_of_secluded {inner : Declaration}
    (h : revise context entity declaration {} root = .ok changes)
    (hvisits : Visits context declaration root path inner span)
    (hsecluded : isSecluded span.kind = true) :
    ∃ part, revise context entity inner (trailTo root path) span = .ok part ∧
      ∀ rest, changes.edits (path ++ rest) = part.edits (path ++ rest) := by
  obtain ⟨before, part, after, rfl, hpart, hothers⟩ := revise_visited hvisits h
  -- No change from elsewhere has an address at or below the span.
  have hapart : ∀ rest, ∀ change ∈ before ++ after, change.1 ≠ path ++ rest := by
    intro rest change hmem haddress
    obtain ⟨place, other, target, hplace, hother, heffect⟩ := hothers change hmem
    have hnear := heffect.nearby hother.descendant?
    exact hnear.not_below hother hvisits hsecluded hplace
      (haddress ▸ List.prefix_append _ _)
  exact ⟨part, hpart, fun rest => Changes.edits_of_apart
    (fun change hmem => hapart rest change (by simp [hmem]))
    fun change hmem => hapart rest change (by simp [hmem])⟩

theorem importTypeText_append (source : Text) (imported : Entity) (name : Datum) (node : Node)
    (arguments : Text) :
    importTypeText source imported name node arguments =
      importTypeText source imported name node [] ++ arguments := by
  unfold importTypeText
  split
  · split <;> simp
  · simp

theorem edits_replaceWhole (changes : Changes) (path : Path) (text : Text) :
    Changes.edits (changes ++ replaceWhole path text) path =
      Change.setLead text (Change.skip (changes.edits path)) := by
  simp [replaceWhole, Changes.edits_append]

private theorem edits_replaceWhole_below (changes : Changes) (path : Path) (text : Text)
    (index : Nat) (rest : Path) :
    Changes.edits (changes ++ replaceWhole path text) (path ++ index :: rest) =
      changes.edits (path ++ index :: rest) := by
  simp [replaceWhole, Changes.edits_append]

section Replaced

variable {nested : Changes} {text : Text}
  (hedits : ∀ rest, changes.edits (path ++ rest) =
    Changes.edits (nested ++ replaceWhole path text) (path ++ rest))
include hedits

theorem render_replaced : span.render (changes.edits.within path) = text := by
  have hhere := hedits []
  rw [List.append_nil, edits_replaceWhole] at hhere
  rw [Span.render, Span.draw_eq, Edits.within, List.append_nil, hhere]
  simp [Change.skip, Change.setLead, Span.closing]

theorem argumentText_replaced {argument : Path × Span} (hargument : argument ∈ argumentsOf span) :
    argumentText (nested.edits.within path) argument =
      argumentText (changes.edits.within path) argument := by
  obtain ⟨index, rest, haddress⟩ := address_of_argument hargument
  have hsame : (nested.edits.within path).within argument.1 =
      (changes.edits.within path).within argument.1 := by
    funext inner
    simp only [Edits.within, haddress, hedits, List.cons_append, edits_replaceWhole_below]
  rw [argumentText, argumentText, hsame]

end Replaced

/-- A bound import type is drawn as a text that ends with its arguments, which are
drawn with the edits of the whole declaration. -/
theorem importType_drawn {inner : Declaration}
    (h : revise context entity declaration {} root = .ok changes)
    (hvisits : Visits context declaration root path inner span)
    (kind : span.kind = .importType)
    (bound : ∃ imported, context.surface.entityForNode span.node = .ok (some imported))
    {argument : Path × Span} (hargument : argument ∈ argumentsOf span) :
    ∃ head, span.render (changes.edits.within path) =
      head ++ ['<'] ++ Text.join [',', ' ']
        ((argumentsOf span).map (argumentText (changes.edits.within path))) ++ ['>'] := by
  obtain ⟨part, hpart, hedits⟩ := edits_of_secluded h hvisits (by rw [kind]; rfl)
  cases revise_revised hpart with
  | comment hkind => simp [kind] at hkind
  | unbound _ nothing =>
      obtain ⟨imported, bound⟩ := bound
      simp [bound] at nothing
  | opened _ noImport _ _ => exact absurd kind noImport
  | @bound source imported name bounds nested arguments _ _ bracketed _ written =>
      rw [path_trailTo hvisits.descendant?] at written hedits
      obtain ⟨_, _, hbetween, _⟩ := mem_argumentsOf.mp hargument
      obtain ⟨brackets, rfl, _, _⟩ := (isArgument_iff bracketed).mp hbetween
      simp only [argumentsText, bind_eq_ok, pure_eq_ok] at written
      obtain ⟨texts, htexts, rfl⟩ := written
      have htexts := argumentTexts_eq htexts
      rw [← argumentsOf_eq bracketed,
        List.map_congr_left fun argument hmem => argumentText_replaced hedits hmem] at htexts
      refine ⟨importTypeText source imported name span.node [], ?_⟩
      rw [render_replaced hedits, importTypeText_append, htexts]
      simp only [List.append_assoc]

end Edits

end Rollup

end ApiSurface
