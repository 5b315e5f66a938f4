import ApiSurface.Proofs.Rollup.Effects

/-!
# What a revised declaration shows

A member at some address below a declaration is shown if nothing on the way to it
is left out.  That is so exactly if the plan keeps the member and everything on the
way to it, and if no variable statement around it goes with a variable that the
plan does not keep.
-/

namespace ApiSurface

open Emit

namespace Emit

variable {declaration : Declaration} {span target : Span} {path : Path}
  {chain : List Declaration}

theorem Way.chain_ne_nil (h : Way declaration span path chain target)
    (hpath : path ≠ []) (hend : target.kind.isDeclaration = true) : chain ≠ [] := by
  induction h with
  | here => contradiction
  | @through _ _ child _ _ rest _ _ transparent below ih =>
      apply ih _ hend
      rintro rfl
      cases below
      simp [transparent] at hend
  | member => exact List.cons_ne_nil _ _

end Emit

namespace Rollup

/-! ## Ways that a plan decides about -/

/-- Comments, commas and dropped keywords hold no declarations of their own. -/
def isOrdinary (kind : NodeKind) : Bool :=
  !(kind = .docComment || kind = .commaToken || isDropped kind)

theorem isOrdinary_of_isDeclaration {kind : NodeKind} (h : kind.isDeclaration = true) :
    isOrdinary kind = true := by
  have hall : ∀ kind ∈ NodeKind.declarationKinds, isOrdinary kind = true := by decide
  exact hall kind (by simpa [NodeKind.isDeclaration] using h)

/-- A way may lead through an ordinary span to its child at a position.  The plan is
asked about the members in an argument of an import type only if the import type is
bound and the argument is not a member itself. -/
structure Passable (surface : Surface) (span : Span) (index : Nat) : Prop where
  ordinary : isOrdinary span.kind = true
  argument : span.kind = .importType →
    (∃ imported, surface.entityForNode span.node = .ok (some imported)) ∧
      IsArgument span index ∧
      ∀ child, span.children[index]? = some child → child.kind.isDeclaration = false

def Plain (surface : Surface) (span : Span) : Path → Prop
  | [] => True
  | index :: rest => Passable surface span index ∧
      ∀ child, span.children[index]? = some child → Plain surface child rest

/-- Nothing on the way to an address is left out.  Import types are written anew,
with their arguments. -/
def Shown (edits : Edits) (root : Span) (path : Path) : Prop :=
  ∀ address span, address <+: path → root.descendant? address = some span →
    (edits address).omitChildren = true → span.kind = .importType

/-- The walk from a declaration comes to a member at an address, which the plan does
not keep. -/
inductive Meets (context : Context) (declaration : Declaration) (root : Span) :
    Path → Span → Prop
  | mk {inner member : Declaration} {span child : Span} {path : Path} {index : Nat}
      (visits : Visits context declaration root path inner span) (opened : Opened span)
      (stands : span.children[index]? = some child)
      (declares : child.kind.isDeclaration = true)
      (found : Surface.member inner child.node = .ok member)
      (unkept : context.plan.isKept member.id = false) :
      Meets context declaration root (path ++ [index]) child

/-- The variable statement at an address goes with a variable that is not kept. -/
def GoesWithVariable (context : Context) (declaration : Declaration) (root : Span)
    (address : Path) : Prop :=
  ∃ path child statement, Meets context declaration root path child ∧
    child.kind = .variableDeclaration ∧
    (trailTo root path).find? .variableStatement = some statement ∧
    statement.path = address

variable {context : Context} {entity : Entity} {outer declaration : Declaration}
  {root span target child : Span} {path front rest : Path} {chain : List Declaration}
  {changes : Changes}

variable {index : Nat} {address : Path} {inner : Declaration}

theorem Plain.passable (h : Plain context.surface root (front ++ index :: rest))
    (hspan : root.descendant? front = some span) : Passable context.surface span index := by
  induction front generalizing root with
  | nil =>
      obtain rfl : root = span := by simpa [Span.descendant?] using hspan
      exact h.1
  | cons first front ih =>
      cases hchild : root.children[first]? with
      | none => simp [Span.descendant?, hchild] at hspan
      | some child =>
          rw [Span.descendant?_cons hchild] at hspan
          exact ih (h.2 child hchild) hspan

theorem Plain.ordinary (h : Plain context.surface root path)
    (hpath : root.descendant? path = some target) (hend : target.kind.isDeclaration = true)
    (haddress : address <+: path) (hspan : root.descendant? address = some span) :
    isOrdinary span.kind = true := by
  obtain ⟨rest, rfl⟩ := haddress
  cases rest with
  | nil =>
      rw [List.append_nil] at hpath
      obtain rfl := Option.some.inj (hspan.symm.trans hpath)
      exact isOrdinary_of_isDeclaration hend
  | cons index rest => exact (h.passable hspan).ordinary

theorem Passable.of_kind {surface : Surface} {kind : NodeKind} (h : span.kind = kind)
    (hordinary : isOrdinary kind = true) (hkind : kind ≠ .importType) :
    Passable surface span index :=
  ⟨h ▸ hordinary, fun himport => absurd (h.symm.trans himport) hkind⟩

theorem Passable.opened (h : Passable context.surface span index)
    (hkind : span.kind ≠ .importType) : Opened span := by
  refine ⟨fun hcomment => ?_, hkind⟩
  have hordinary := h.ordinary
  rw [hcomment] at hordinary
  cases hordinary

theorem Visits.append {last : Declaration} {rest : Path}
    (h : Visits context declaration root path inner span)
    (hrest : Visits context inner span rest last target) :
    Visits context declaration root (path ++ rest) last target := by
  induction h with
  | here => exact hrest
  | step goes _ ih => exact .step goes (ih hrest)

theorem Visits.concat {next : Declaration} (h : Visits context declaration root path inner span)
    (goes : Step context inner span index child next) :
    Visits context declaration root (path ++ [index]) next child :=
  h.append (.step goes .here)

def VisitsBefore (context : Context) (outer : Declaration) (root : Span)
    (front path : Path) : Prop :=
  ∀ rest, rest <+: path → rest ≠ path →
    ∃ inner between, Visits context outer root (front ++ rest) inner between

theorem visitsBefore_nil : VisitsBefore context outer root front [] :=
  fun _ hrest hne => absurd (List.prefix_nil.mp hrest) hne

theorem visitsBefore_cons (hvisits : Visits context outer root front declaration span)
    (hbelow : VisitsBefore context outer root (front ++ [index]) path) :
    VisitsBefore context outer root front (index :: path) := by
  intro rest hrest hne
  cases rest with
  | nil => exact ⟨declaration, span, by simpa using hvisits⟩
  | cons first rest =>
      obtain ⟨rfl, htail⟩ := List.cons_prefix_cons.mp hrest
      obtain ⟨inner, between, h⟩ := hbelow rest htail fun heq => hne (heq ▸ rfl)
      exact ⟨inner, between, by simpa using h⟩

theorem kept_or_meets (hvisits : Visits context outer root front declaration span)
    (hway : Way declaration span path chain target)
    (hplain : Plain context.surface span path)
    (hend : target.kind.isDeclaration = true)
    (hwhole : ∀ member ∈ chain.dropLast, context.surface.isStub member = false) :
    ((∀ member ∈ chain, context.plan.isKept member.id = true) ∧
        VisitsBefore context outer root front path) ∨
      ∃ address child, Meets context outer root address child ∧
        address <+: front ++ path := by
  induction hway generalizing front with
  | here => exact .inl ⟨by simp, visitsBefore_nil⟩
  | @through declaration span child target index path chain stands transparent below ih =>
      obtain ⟨hpassable, hbelow⟩ := hplain
      have hgoes : Step context declaration span index child declaration := by
        by_cases hkind : span.kind = .importType
        · obtain ⟨hbound, hargument, _⟩ := hpassable.argument hkind
          exact .argument ⟨hkind, hbound, hargument⟩ stands transparent
        · exact .through (hpassable.opened hkind) stands transparent
      rcases ih (hvisits.concat hgoes) (hbelow child stands) hend hwhole with
        ⟨hkept, hall⟩ | ⟨address, found, hmeets, haddress⟩
      · exact .inl ⟨hkept, visitsBefore_cons hvisits hall⟩
      · exact .inr ⟨address, found, hmeets, by simpa using haddress⟩
  | @member declaration member span child target index path chain stands declares found
      below ih =>
      obtain ⟨hpassable, hbelow⟩ := hplain
      have hkind : span.kind ≠ .importType := by
        intro hkind
        have htransparent := (hpassable.argument hkind).2.2 child stands
        simp [declares] at htransparent
      have hopened : Opened span := hpassable.opened hkind
      cases hkept : context.plan.isKept member.id with
      | false =>
          refine .inr ⟨front ++ [index], child,
            .mk hvisits hopened stands declares found hkept, ?_⟩
          simp
      | true =>
          by_cases hpath : path = []
          · subst hpath
            cases below
            exact .inl ⟨by simpa using hkept, visitsBefore_cons hvisits visitsBefore_nil⟩
          · -- More declarations follow, so that the member has to have a body.
            have hchain := below.chain_ne_nil hpath hend
            rw [List.dropLast_cons_of_ne_nil hchain, List.forall_mem_cons] at hwhole
            have hgoes : Step context declaration span index child member :=
              .member hopened stands declares found hkept hwhole.1
            rcases ih (hvisits.concat hgoes) (hbelow child stands) hend hwhole.2 with
              ⟨hchain, hall⟩ | ⟨address, found, hmeets, haddress⟩
            · exact .inl ⟨List.forall_mem_cons.mpr ⟨hkept, hchain⟩,
                visitsBefore_cons hvisits hall⟩
            · exact .inr ⟨address, found, hmeets, by simpa using haddress⟩

/-! ## Shown and hidden -/

theorem mem_chain {member : Declaration} (hway : Way outer root path chain target)
    (hend : target.kind.isDeclaration = true)
    (hvisits : Visits context outer root front inner span)
    (stands : span.children[index]? = some child) (declares : child.kind.isDeclaration = true)
    (found : Surface.member inner child.node = .ok member)
    (hpath : path = front ++ index :: rest) :
    member ∈ chain ∧ (rest ≠ [] → member ∈ chain.dropLast) := by
  subst hpath
  obtain ⟨earlier, later, between, rfl, hfirst, hlast⟩ := hway.split
  obtain ⟨chain', hway', rfl⟩ := hvisits.way
  obtain ⟨rfl, rfl⟩ := hfirst.unique hway'
  cases hlast with
  | through stands' transparent _ =>
      obtain rfl := Option.some.inj (stands.symm.trans stands')
      simp [transparent] at declares
  | member stands' _ found' below =>
      obtain rfl := Option.some.inj (stands.symm.trans stands')
      obtain rfl := Except.ok.inj (found.symm.trans found')
      refine ⟨by simp, fun hrest => ?_⟩
      have hchain := below.chain_ne_nil hrest hend
      rw [List.dropLast_append_of_ne_nil (List.cons_ne_nil _ _),
        List.dropLast_cons_of_ne_nil hchain]
      simp

theorem Meets.edits (h : revise context entity outer {} root = .ok changes)
    (hmeets : Meets context outer root path child) :
    (changes.edits (taken (trailTo root path) child).path).omitChildren = true ∧
      (changes.edits (taken (trailTo root path) child).path).lead.isSome = true ∧
      (changes.edits (taken (trailTo root path) child).path).tail.isSome = true := by
  obtain ⟨visits, opened, stands, declares, found, unkept⟩ := hmeets
  exact edits_taken h visits opened stands declares found unkept

theorem Meets.descendant? (hmeets : Meets context outer root path child) :
    root.descendant? path = some child := by
  obtain ⟨visits, _, stands, _, _, _⟩ := hmeets
  exact descendant?_concat visits.descendant? stands

private theorem Meets.kind_taken (hmeets : Meets context outer root path child) :
    (taken (trailTo root path) child).span.kind ≠ .importType := by
  have hchild := hmeets.descendant?
  obtain ⟨_, _, _, hself | hstatement⟩ := taken_spec hchild
  · rw [hself]
    obtain ⟨_, _, _, declares, _, _⟩ := hmeets
    intro hkind
    rw [hkind] at declares
    cases declares
  · simp [hstatement]

/-- The text at an address is the same whatever span stands there. -/
def Hidden (edits : Edits) (root : Span) (address : Path) : Prop :=
  ∃ span, root.descendant? address = some span ∧ ∀ other : Span,
    other.separator = span.separator →
      other.render (edits.within address) = span.render (edits.within address)

theorem Meets.hidden (h : revise context entity outer {} root = .ok changes)
    (hmeets : Meets context outer root path child) :
    Hidden changes.edits root (taken (trailTo root path) child).path := by
  obtain ⟨hstands, _, _, _⟩ := taken_spec hmeets.descendant?
  obtain ⟨homitted, hlead, htail⟩ := hmeets.edits h
  refine ⟨_, hstands, fun other hseparator => ?_⟩
  apply Span.render_eq_of_replaced _ _ _ hseparator
  all_goals
    rw [Edits.within, List.append_nil]
    assumption

theorem Meets.not_shown (h : revise context entity outer {} root = .ok changes)
    (hmeets : Meets context outer root front child)
    (haddress : (taken (trailTo root front) child).path <+: path) :
    ¬ Shown changes.edits root path ∧
      ∃ address, address <+: path ∧ Hidden changes.edits root address := by
  obtain ⟨hstands, _, _, _⟩ := taken_spec hmeets.descendant?
  refine ⟨fun hshown => ?_, _, haddress, hmeets.hidden h⟩
  exact hmeets.kind_taken (hshown _ _ haddress hstands (hmeets.edits h).1)

theorem GoesWithVariable.not_shown (h : revise context entity outer {} root = .ok changes)
    (hgoes : GoesWithVariable context outer root address) (haddress : address <+: path) :
    ¬ Shown changes.edits root path ∧
      ∃ address, address <+: path ∧ Hidden changes.edits root address := by
  obtain ⟨front, child, statement, hmeets, hkind, hfind, rfl⟩ := hgoes
  apply hmeets.not_shown h
  simpa [taken, hkind, hfind] using haddress

theorem GoesWithVariable.statement {address : Path}
    (hgoes : GoesWithVariable context outer root address) :
    ∃ span, root.descendant? address = some span ∧ span.kind = .variableStatement := by
  obtain ⟨path, child, statement, hmeets, _, hfind, rfl⟩ := hgoes
  obtain ⟨hspan, _, _⟩ :=
    mem_above_trailTo hmeets.descendant? (List.mem_of_find?_eq_some hfind)
  exact ⟨statement.span, hspan, by simpa using List.find?_some hfind⟩

theorem Meets.taken_cases (hmeets : Meets context outer root path child) :
    (taken (trailTo root path) child).path = path ∨
      GoesWithVariable context outer root (taken (trailTo root path) child).path := by
  have hpath := path_trailTo hmeets.descendant?
  by_cases hkind : child.kind = .variableDeclaration
  · cases hfind : (trailTo root path).find? .variableStatement with
    | none => exact .inl (by simp [taken, hkind, hfind, hpath])
    | some statement =>
        refine .inr ⟨path, child, statement, hmeets, hkind, hfind, ?_⟩
        simp [taken, hkind, hfind]
  · exact .inl (by simp [taken, hkind, hpath])

theorem shown_of_kept (h : revise context entity outer {} root = .ok changes)
    (hway : Way outer root path chain target) (hplain : Plain context.surface root path)
    (hend : target.kind.isDeclaration = true)
    (hwhole : ∀ member ∈ chain.dropLast, context.surface.isStub member = false)
    (hkept : ∀ member ∈ chain, context.plan.isKept member.id = true)
    (hstays : ∀ address, address <+: path →
      ¬ GoesWithVariable context outer root address) :
    Shown changes.edits root path := by
  intro address span haddress hspan homitted
  have hordinary := hplain.ordinary hway.descendant? hend haddress hspan
  obtain ⟨place, inner, visited, hvisits, hleaves⟩ := exists_leavesOut h homitted
  cases hleaves with
  | self kind =>
      obtain rfl := Option.some.inj (hspan.symm.trans hvisits.descendant?)
      rcases kind with hcomment | himport | hkeyword
      · simp [isOrdinary, hcomment] at hordinary
      · exact himport
      · simp [isOrdinary, hkeyword] at hordinary
  | @member index _ _ opened stands declares found unkept =>
      have hmeets := Meets.mk hvisits opened stands declares found unkept
      rcases hmeets.taken_cases with hself | hgoes
      · rw [hself] at haddress
        obtain ⟨rest, rfl⟩ := haddress
        have hpath : place ++ [index] ++ rest = place ++ index :: rest := by simp
        have hmember := (mem_chain hway hend hvisits stands declares found hpath).1
        simp [hkept _ hmember] at unkept
      · exact absurd hgoes (hstays _ haddress)
  | comma opened stands declares found unkept follows kind =>
      obtain ⟨parent, position, hcomma, hfound, _⟩ :=
        taken_comma (descendant?_concat hvisits.descendant? stands) follows
      rw [hcomma] at hspan
      obtain rfl := Option.some.inj (hspan.symm.trans hfound)
      simp [isOrdinary, kind] at hordinary
  | @inStub index position _ _ opened stands declares found bodiless =>
      obtain ⟨rest, rfl⟩ := haddress
      have hpath : place ++ [index, position] ++ rest =
          place ++ index :: position :: rest := by simp
      have hmember := (mem_chain hway hend hvisits stands declares found hpath).2
        (List.cons_ne_nil _ _)
      simp [hwhole _ hmember] at bodiless

/-! ## Texts along a way -/

theorem argumentText_infix {argument : Path × Span}
    (h : revise context entity outer {} root = .ok changes)
    (hvisits : Visits context outer root front inner span) (hkind : span.kind = .importType)
    (hbound : ∃ imported, context.surface.entityForNode span.node = .ok (some imported))
    (hargument : argument ∈ argumentsOf span) :
    argumentText (changes.edits.within front) argument <:+:
      span.render (changes.edits.within front) := by
  obtain ⟨head, hdrawn⟩ := importType_drawn h hvisits hkind hbound hargument
  have hjoined := Text.infix_join [',', ' ']
    (List.mem_map_of_mem (f := argumentText (changes.edits.within front)) hargument)
  rw [hdrawn]
  exact hjoined.trans (List.infix_append _ _ _)

/-- A plain way to a declaration, which the walk takes, and on which nothing is left
out. -/
structure Displayed (context : Context) (outer : Declaration) (root : Span)
    (edits : Edits) (path : Path) (target : Span) : Prop where
  stands : root.descendant? path = some target
  declares : target.kind.isDeclaration = true
  plain : Plain context.surface root path
  visits : VisitsBefore context outer root [] path
  shown : Shown edits root path

theorem Displayed.ne_comma {edits : Edits} (h : Displayed context outer root edits path target)
    (haddress : address <+: path) (hspan : root.descendant? address = some span) :
    span.kind ≠ .commaToken := by
  intro hcomma
  have hordinary := h.plain.ordinary h.stands h.declares haddress hspan
  rw [hcomma] at hordinary
  cases hordinary

theorem exists_child (h : root.descendant? (front ++ index :: rest) = some target)
    (hspan : root.descendant? front = some span) :
    ∃ child, span.children[index]? = some child := by
  rw [Span.descendant?_append hspan] at h
  cases hchild : span.children[index]? with
  | none => simp [Span.descendant?, hchild] at h
  | some child => exact ⟨child, rfl⟩

/-- The way goes on at a later span whose trimmed texts stand in the text of this
one.  From an import type it goes on at an argument or an item of a list of them. -/
theorem Displayed.step (h : revise context entity outer {} root = .ok changes)
    (hdisplayed : Displayed context outer root changes.edits (front ++ index :: rest) target)
    (hspan : root.descendant? front = some span) :
    ∃ next later below, front ++ index :: rest = next ++ later ∧
      later.length ≤ rest.length ∧ root.descendant? next = some below ∧
      ∀ text : Text, text.trim <:+: below.render (changes.edits.within next) →
        text.trim <:+: span.render (changes.edits.within front) := by
  have hpassable := hdisplayed.plain.passable hspan
  obtain ⟨inner, visited, hvisited⟩ := hdisplayed.visits front (List.prefix_append _ _)
    (by simp)
  rw [List.nil_append] at hvisited
  obtain rfl := Option.some.inj (hspan.symm.trans hvisited.descendant?)
  obtain ⟨child, stands⟩ := exists_child hdisplayed.stands hspan
  have hchild := descendant?_concat hspan stands
  by_cases hkind : span.kind = .importType
  · obtain ⟨hbound, hbetween, htransparent⟩ := hpassable.argument hkind
    have htransparent := htransparent child stands
    -- The argument is no declaration, so that the way goes on in it.
    obtain ⟨position, rest, rfl⟩ : ∃ position later, rest = position :: later := by
      cases rest with
      | nil =>
          obtain rfl := Option.some.inj (hchild.symm.trans hdisplayed.stands)
          simp [hdisplayed.declares] at htransparent
      | cons position later => exact ⟨position, later, rfl⟩
    obtain ⟨address, later, item, hmem, hpath, hlater⟩ : ∃ address later item,
        (address, item) ∈ argumentsOf span ∧
          index :: position :: rest = address ++ later ∧ later.length ≤ rest.length + 1 := by
      by_cases hlist : child.kind = .syntaxList
      · have hstands := hdisplayed.stands
        rw [List.append_cons] at hstands
        obtain ⟨item, hitem⟩ := exists_child hstands hchild
        have hcomma := hdisplayed.ne_comma ⟨rest, by simp⟩ (descendant?_concat hchild hitem)
        refine ⟨[index, position], rest, item, ?_, rfl, Nat.le_succ _⟩
        refine mem_argumentsOf.mpr ⟨index, child, hbetween, stands, ?_⟩
        rw [if_pos hlist]
        exact mem_items.mpr ⟨position, hitem, hcomma, by simp⟩
      · have hcomma := hdisplayed.ne_comma ⟨position :: rest, by simp⟩ hchild
        refine ⟨[index], position :: rest, child, ?_, rfl, le_rfl⟩
        refine mem_argumentsOf.mpr ⟨index, child, hbetween, stands, ?_⟩
        rw [if_neg hlist]
        exact mem_items.mpr ⟨0, rfl, hcomma, rfl⟩
    have hdrawn := argumentText_infix h hvisited hkind hbound hmem
    rw [argumentText, Edits.within_within] at hdrawn
    refine ⟨front ++ address, later, item, by rw [hpath, List.append_assoc], hlater, ?_,
      fun text htext => (Text.trim_infix_trim htext).trans hdrawn⟩
    rw [Span.descendant?_append hspan]
    exact descendant?_argument hmem
  · refine ⟨front ++ [index], rest, child, by simp, le_rfl, hchild, fun text htext => ?_⟩
    have homitted : (changes.edits.within front []).omitChildren = false := by
      apply Bool.eq_false_iff.mpr
      intro homitted
      rw [Edits.within, List.append_nil] at homitted
      exact hkind (hdisplayed.shown front span (List.prefix_append _ _) hspan homitted)
    have hunsorted : (changes.edits.within front []).sortChildren = false := by
      rw [Edits.within, List.append_nil]
      exact edits_unsorted h front
    have hbelow := Span.render_infix_render homitted hunsorted stands
    rw [Edits.below_within] at hbelow
    exact htext.trans hbelow

theorem Displayed.trim_infix (h : revise context entity outer {} root = .ok changes)
    (hdisplayed : Displayed context outer root changes.edits path target)
    (hpath : path = front ++ rest) (hspan : root.descendant? front = some span) :
    Text.trim (target.render (changes.edits.within path)) <:+:
      span.render (changes.edits.within front) := by
  induction hlength : rest.length using Nat.strong_induction_on
    generalizing front rest span with
  | _ length ih =>
      subst hpath
      cases rest with
      | nil =>
          have hstands := hdisplayed.stands
          rw [List.append_nil] at hstands ⊢
          obtain rfl := Option.some.inj (hspan.symm.trans hstands)
          exact Text.trim_infix _
      | cons index rest =>
          obtain ⟨next, later, below, hnext, hlater, hbelow, hheld⟩ :=
            hdisplayed.step h hspan
          apply hheld
          refine ih later.length ?_ hnext hbelow rfl
          rw [← hlength, List.length_cons]
          omega

end Rollup

end ApiSurface
