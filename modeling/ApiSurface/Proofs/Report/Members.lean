import ApiSurface.Proofs.Report.Lines
import ApiSurface.Proofs.Rollup.Effects

/-!
# Members that a report introduces

The lines of a member are put in front of its span.  They are written if nothing
around the member is left out and if the member itself is not left out as private.
-/

namespace ApiSurface

open Emit

def Edit.Leads (edit : Edit) (text : Text) : Prop :=
  ∃ lead, edit.lead = some lead ∧ text <:+: lead

namespace Change

/-- The change takes away neither children nor a part of the lead. -/
structure Gentle (change : Change) : Prop where
  children : change.KeepsChildren
  leads : ∀ edit text, edit.Leads text → (change edit).Leads text

theorem leads_prepend {text part : Text} (span : Span) (edit : Edit) (h : part <:+: text) :
    (prepend text span edit).Leads part :=
  ⟨_, rfl, h.trans (List.prefix_append _ _).isInfix⟩

theorem gentle_prepend (text : Text) (span : Span) : Gentle (prepend text span) := by
  refine ⟨fun _ => rfl, fun edit part hpart => ?_⟩
  obtain ⟨lead, hlead, hpart⟩ := hpart
  refine ⟨_, rfl, ?_⟩
  rw [hlead, Option.getD_some]
  exact hpart.trans (List.suffix_append _ _).isInfix

private theorem gentle_setTail (text : Text) : Gentle (setTail text) :=
  ⟨fun _ => rfl, fun _ _ h => h⟩

private theorem gentle_sortChildren : Gentle sortChildren :=
  ⟨fun _ => rfl, fun _ _ h => h⟩

private theorem gentle_setSortKey (key : Text) : Gentle (setSortKey key) :=
  ⟨fun _ => rfl, fun _ _ h => h⟩

end Change

namespace Report

variable {surface : Surface} {entity : Entity} {declaration : Declaration}
  {inside sorted : Bool} {trail : Trail} {span child : Span} {changes part : Changes}
  {change : Path × Change} {index : Nat} {path : Path}

/-! ## One span -/

def modifiers (entity : Entity) : Text :=
  if entity.exportsInline then "export ".toList else []

def ownChanges (surface : Surface) (entity : Entity) (declaration : Declaration)
    (trail : Trail) (span : Span) (kind : NodeKind) : Except Fault Changes :=
  if kind = .exportKeyword || kind = .defaultKeyword || kind = .declareKeyword then
    pure [(trail.path, Change.skip)]
  else if kind.isDeclarationKeyword then
    pure (writeModifiers (modifiers entity) trail span)
  else if kind = .variableDeclaration && trail.above.isEmpty then
    writeVariable entity declaration trail.path span
  else if kind = .identifier then renameIdentifier surface trail.path span.node
  else pure []

def childChanges (surface : Surface) (entity : Entity) (declaration : Declaration)
    (inside sorted : Bool) (parent : Path) (here : Trail) (child : Span) :
    Except Fault Changes :=
  if child.kind.isDeclaration then do
    let member ← Surface.member declaration child.node
    let intro ← introduceMember surface declaration.site.file.text sorted inside parent
      here.path child member
    if (← surface.item member.id).isPreapproved then pure (intro ++ stub [] here.path child)
    else
      let inner ← revise surface entity member inside here child
      pure (intro ++ inner)
  else revise surface entity declaration inside here child

def argumentChanges (surface : Surface) (entity : Entity) (declaration : Declaration)
    (inside : Bool) (here : Trail) (child : Span) : Except Fault Changes :=
  if child.kind.isDeclaration then do
    let member ← Surface.member declaration child.node
    revise surface entity member inside here child
  else revise surface entity declaration inside here child

theorem reviseChildren_eq (start : Nat) (previous : Option Span) (spans : List Span) :
    reviseChildren surface entity declaration inside sorted trail span start previous spans =
      gather (fun index previous next child =>
          childChanges surface entity declaration inside sorted trail.path
            (trail.child span index previous next) child)
        start previous spans := by
  induction spans generalizing start previous with
  | nil => rfl
  | cons first rest ih =>
      simp only [reviseChildren, gather, childChanges, ih]
      split <;> simp only [bind_assoc]
      congr! 4 with member intro
      congr! 2 with item
      split
      · rfl
      · simp only [bind_assoc]

theorem reviseArguments_eq (bounds : Option (Nat × Nat)) (start : Nat)
    (previous : Option Span) (spans : List Span) :
    reviseArguments surface entity declaration inside trail span bounds start previous spans =
      gather (fun index previous next child =>
          if (bounds.map fun bounds => decide (bounds.1 < index && index < bounds.2)).getD
              false then
            argumentChanges surface entity declaration inside
              (trail.child span index previous next) child
          else pure [])
        start previous spans := by
  induction spans generalizing start previous with
  | nil => rfl
  | cons first rest ih =>
      simp only [reviseArguments, gather, argumentChanges, ih]
      split
      · split <;> simp only [bind_assoc]
      · rfl

/-- What revising a span comes down to.  Spans that are left out or replaced make
changes at their own address, or inside the arguments of an import type. -/
inductive Revised (surface : Surface) (entity : Entity) (declaration : Declaration)
    (inside : Bool) (trail : Trail) (span : Span) : Changes → Prop
  | skipped (cause : declaration.isPrivate = true ∨ span.kind = .docComment) :
      Revised surface entity declaration inside trail span [(trail.path, Change.skip)]
  | unbound (kind : span.kind = .importType) :
      Revised surface entity declaration inside trail span []
  | bound {bounds : Option (Nat × Nat)} {inner : Changes} {text : Text}
      (kind : span.kind = .importType)
      (revised : reviseArguments surface entity declaration inside trail span bounds 0 none
        span.children = .ok inner) :
      Revised surface entity declaration inside trail span
        (inner ++ replaceWhole trail.path text)
  | opened {own inner : Changes} (visible : declaration.isPrivate = false)
      (noComment : span.kind ≠ .docComment) (noImport : span.kind ≠ .importType)
      (atSpan : ownChanges surface entity declaration trail span span.kind = .ok own)
      (below : reviseChildren surface entity declaration
        (inside || span.kind = NodeKind.typeLiteral) (listsMembers trail span.kind) trail span 0
          none span.children = .ok inner) :
      Revised surface entity declaration inside trail span (own ++ inner)

theorem revise_revised
    (h : revise surface entity declaration inside trail span = .ok changes) :
    Revised surface entity declaration inside trail span changes := by
  cases span with
  | mk node lead tail separator children =>
      simp only [revise] at h
      split at h
      · rename_i hprivate
        rw [pure_eq_ok] at h
        exact h ▸ .skipped (.inl hprivate)
      · rename_i hvisible
        split at h
        · rename_i hkind
          rw [pure_eq_ok] at h
          exact h ▸ .skipped (.inr hkind)
        · rename_i hkind
          simp only [bind_eq_ok] at h
          obtain ⟨found, hfound, h⟩ := h
          cases found with
          | none =>
              cases h
              exact .unbound hkind
          | some imported =>
              simp only [bind_eq_ok, pure_eq_ok] at h
              obtain ⟨name, hname, bounds, hbounds, inner, hinner, arguments,
                harguments, rfl⟩ := h
              exact .bound hkind hinner
        · rename_i hcomment himport
          have hsplit : (do
              let own ← ownChanges surface entity declaration trail
                (.mk node lead tail separator children) node.kind
              let inner ← reviseChildren surface entity declaration
                (inside || node.kind = NodeKind.typeLiteral) (listsMembers trail node.kind) trail
                (.mk node lead tail separator children) 0 none children
              pure (own ++ inner)) = .ok changes := by
            rw [← h]
            unfold ownChanges modifiers
            split_ifs <;> rfl
          simp only [bind_eq_ok, pure_eq_ok] at hsplit
          obtain ⟨own, hown, inner, hinner, rfl⟩ := hsplit
          exact .opened (Bool.eq_false_iff.mpr hvisible) hcomment himport hown hinner

/-! ## Where changes are made -/

/-- The change is made at or below an address, or it takes nothing away. -/
def Confined (address : Path) (change : Path × Change) : Prop :=
  address <+: change.1 ∨ change.2.Gentle

theorem Confined.above {address : Path} {position : Nat}
    (h : Confined (address ++ [position]) change) : Confined address change :=
  h.imp (fun hbelow => (List.prefix_append _ _).trans hbelow) id

theorem Confined.gentle {address : Path} {position : Nat}
    (h : Confined (address ++ [position]) change) (haddress : change.1 = address) :
    change.2.Gentle := by
  refine h.resolve_left fun hbelow => ?_
  have hlength := hbelow.length_le
  rw [haddress, List.length_append, List.length_singleton] at hlength
  omega

/-- What a span itself changes, unless it is a dropped keyword, leaves its children. -/
theorem mem_ownChanges {kind : NodeKind} {own : Changes}
    (h : ownChanges surface entity declaration trail span kind = .ok own)
    (hchange : change ∈ own) :
    (change.1 = trail.path ∧ (Rollup.isDropped kind = false → change.2.KeepsChildren)) ∨
      change.2.Gentle := by
  unfold ownChanges at h
  split_ifs at h with hkeyword hmodified hvariable hidentifier
  · rw [pure_eq_ok] at h
    subst h
    obtain rfl := List.mem_singleton.mp hchange
    refine .inl ⟨rfl, fun hdropped => ?_⟩
    simp [Rollup.isDropped, hkeyword] at hdropped
  · rw [pure_eq_ok] at h
    subst h
    obtain ⟨⟨other, hprepend⟩, _⟩ := Rollup.mem_writeModifiers hchange
    rw [hprepend]
    exact .inr (Change.gentle_prepend _ _)
  · simp only [writeVariable, bind_eq_ok, pure_eq_ok] at h
    obtain ⟨list, _, rfl⟩ := h
    simp only [List.mem_cons, List.not_mem_nil, or_false] at hchange
    rcases hchange with rfl | rfl
    · exact .inr (Change.gentle_prepend _ _)
    · exact .inr (Change.gentle_setTail _)
  · simp only [renameIdentifier, bind_eq_ok] at h
    obtain ⟨found, _, h⟩ := h
    cases found with
    | none =>
        cases h
        cases hchange
    | some bound =>
        simp only [bind_eq_ok, pure_eq_ok] at h
        obtain ⟨name, _, rfl⟩ := h
        obtain rfl := List.mem_singleton.mp hchange
        exact .inl ⟨rfl, fun _ => Change.keepsChildren_giveLead name⟩
  · rw [pure_eq_ok] at h
    subst h
    cases hchange

def orderMember (sorted : Bool) (parent path : Path) (member : Declaration) :
    Except Fault Changes :=
  if sorted then do
    let key ← sortKeyOf member.symbol.name
    pure [(parent, Change.sortChildren), (path, Change.setSortKey key)]
  else pure []

variable {source : Text} {parent : Path} {member : Declaration} {target : Span}

theorem introduceMember_split :
    introduceMember surface source sorted inside parent path span member = (do
      let order ← orderMember sorted parent path member
      if inside then pure order
      else
        let messages ← surface.reviewMessages (.int member.id)
        let lines ← synopsis surface member.id messages
        pure (order ++ [(path, Change.prepend
          (indentLines (Span.indentAt source span.node.start) lines) span)])) := by
  unfold introduceMember orderMember
  split_ifs <;> simp only [bind_assoc, pure_bind]

/-- What introduces a member: its order, and its lines unless it belongs to a type
literal. -/
theorem introduceMember_eq
    (h : introduceMember surface source sorted inside parent path span member = .ok changes) :
    ∃ order, orderMember sorted parent path member = .ok order ∧
      (inside = true ∧ changes = order ∨
        inside = false ∧ ∃ messages lines,
          surface.reviewMessages (.int member.id) = .ok messages ∧
          synopsis surface member.id messages = .ok lines ∧
          changes = order ++ [(path, Change.prepend
            (indentLines (Span.indentAt source span.node.start) lines) span)]) := by
  rw [introduceMember_split, bind_eq_ok] at h
  obtain ⟨order, horder, hrest⟩ := h
  refine ⟨order, horder, ?_⟩
  cases inside with
  | true => exact .inl ⟨rfl, (pure_eq_ok.mp hrest).symm⟩
  | false =>
      simp only [Bool.false_eq_true, if_false, bind_eq_ok, pure_eq_ok] at hrest
      obtain ⟨messages, hmessages, lines, hlines, rfl⟩ := hrest
      exact .inr ⟨rfl, messages, lines, hmessages, hlines, rfl⟩

theorem gentle_introduceMember
    (h : introduceMember surface source sorted inside parent path span member = .ok changes) :
    ∀ change ∈ changes, change.2.Gentle := by
  obtain ⟨order, horder, hchanges⟩ := introduceMember_eq h
  have hgentle : ∀ change ∈ order, change.2.Gentle := by
    intro change hchange
    unfold orderMember at horder
    split at horder
    · simp only [bind_eq_ok, pure_eq_ok] at horder
      obtain ⟨key, _, rfl⟩ := horder
      simp only [List.mem_cons, List.not_mem_nil, or_false] at hchange
      rcases hchange with rfl | rfl
      · exact Change.gentle_sortChildren
      · exact Change.gentle_setSortKey key
    · rw [pure_eq_ok] at horder
      subst horder
      cases hchange
  rcases hchanges with ⟨_, rfl⟩ | ⟨_, _, _, _, _, rfl⟩
  · exact hgentle
  · intro change hchange
    rcases List.mem_append.mp hchange with hchange | hchange
    · exact hgentle change hchange
    · obtain rfl := List.mem_singleton.mp hchange
      exact Change.gentle_prepend _ _

/-! ## One child -/

/-- What a child adds to the changes.  A member is introduced before it becomes a stub
or is revised itself. -/
inductive Part (surface : Surface) (entity : Entity) (declaration : Declaration)
    (inside sorted : Bool) (parent : Path) (here : Trail) (child : Span) : Changes → Prop
  | through {inner : Changes} (transparent : child.kind.isDeclaration = false)
      (revised : revise surface entity declaration inside here child = .ok inner) :
      Part surface entity declaration inside sorted parent here child inner
  | stubbed {member : Declaration} {intro : Changes}
      (declares : child.kind.isDeclaration = true)
      (found : Surface.member declaration child.node = .ok member)
      (introduced : introduceMember surface declaration.site.file.text sorted inside parent
        here.path child member = .ok intro)
      (bodiless : surface.isStub member = true) :
      Part surface entity declaration inside sorted parent here child
        (intro ++ stub [] here.path child)
  | member {member : Declaration} {intro inner : Changes}
      (declares : child.kind.isDeclaration = true)
      (found : Surface.member declaration child.node = .ok member)
      (introduced : introduceMember surface declaration.site.file.text sorted inside parent
        here.path child member = .ok intro)
      (whole : surface.isStub member = false)
      (revised : revise surface entity member inside here child = .ok inner) :
      Part surface entity declaration inside sorted parent here child (intro ++ inner)

theorem childChanges_part {here : Trail}
    (h : childChanges surface entity declaration inside sorted parent here child = .ok part) :
    Part surface entity declaration inside sorted parent here child part := by
  unfold childChanges at h
  split at h
  · rename_i declares
    simp only [bind_eq_ok] at h
    obtain ⟨member, found, intro, introduced, item, hitem, h⟩ := h
    have hstub := Surface.isStub_eq hitem
    split at h
    · rename_i bodiless
      rw [pure_eq_ok] at h
      exact h ▸ .stubbed declares found introduced (hstub.trans bodiless)
    · rename_i whole
      simp only [bind_eq_ok, pure_eq_ok] at h
      obtain ⟨inner, hinner, rfl⟩ := h
      have hwhole := hstub.trans (Bool.eq_false_iff.mpr whole)
      exact .member declares found introduced hwhole hinner
  · rename_i transparent
    exact .through (Bool.eq_false_iff.mpr transparent) h

theorem Part.confined {here : Trail}
    (h : Part surface entity declaration inside sorted parent here child part)
    (hrevised : ∀ declaration changes,
      revise surface entity declaration inside here child = .ok changes →
      ∀ change ∈ changes, Confined here.path change) :
    ∀ change ∈ part, Confined here.path change := by
  intro change hchange
  cases h with
  | through _ revised => exact hrevised _ _ revised change hchange
  | stubbed _ _ introduced _ =>
      rcases List.mem_append.mp hchange with hchange | hchange
      · exact .inr (gentle_introduceMember introduced change hchange)
      · obtain ⟨_, position, _, haddress⟩ := Rollup.mem_stubChildren hchange
        exact .inl (haddress ▸ List.prefix_append _ _)
  | member _ _ introduced _ revised =>
      rcases List.mem_append.mp hchange with hchange | hchange
      · exact .inr (gentle_introduceMember introduced change hchange)
      · exact hrevised _ _ revised change hchange

theorem gathered_part {part : Changes}
    (h : Gathered (fun index previous next child =>
        childChanges surface entity declaration inside sorted trail.path
          (trail.child span index previous next) child) 0 none span.children index part) :
    ∃ child, span.children[index]? = some child ∧
      Part surface entity declaration inside sorted trail.path (trail.step span index)
        child part := by
  obtain ⟨child, stands, hpart⟩ := h
  rw [Nat.zero_add] at hpart
  exact ⟨child, stands, childChanges_part hpart⟩

theorem revise_confined
    (h : revise surface entity declaration inside trail span = .ok changes) :
    ∀ change ∈ changes, Confined trail.path change := by
  induction span using Span.inductionOnChildren
    generalizing declaration inside trail changes with
  | step span ih =>
      intro change hchange
      cases revise_revised h with
      | skipped =>
          obtain rfl := List.mem_singleton.mp hchange
          exact .inl List.prefix_rfl
      | unbound => cases hchange
      | bound _ revised =>
          rcases List.mem_append.mp hchange with hchange | hchange
          · rw [reviseArguments_eq] at revised
            obtain ⟨index, part, ⟨child, stands, hpart⟩, hmem⟩ := mem_gather revised hchange
            have hchild := List.mem_of_getElem? stands
            simp only [Nat.zero_add] at hpart
            split at hpart
            · unfold argumentChanges at hpart
              split at hpart
              · simp only [bind_eq_ok] at hpart
                obtain ⟨member, _, hpart⟩ := hpart
                exact (ih child hchild hpart change hmem).above
              · exact (ih child hchild hpart change hmem).above
            · rw [pure_eq_ok] at hpart
              subst hpart
              cases hmem
          · simp only [replaceWhole, List.mem_cons, List.not_mem_nil, or_false] at hchange
            rcases hchange with rfl | rfl <;> exact .inl List.prefix_rfl
      | opened _ _ _ atSpan below =>
          rcases List.mem_append.mp hchange with hchange | hchange
          · rcases mem_ownChanges atSpan hchange with ⟨haddress, _⟩ | hgentle
            · exact .inl (haddress ▸ List.prefix_rfl)
            · exact .inr hgentle
          · rw [reviseChildren_eq] at below
            obtain ⟨index, part, hgathered, hmem⟩ := mem_gather below hchange
            obtain ⟨child, stands, hpart⟩ := gathered_part hgathered
            have hconfined := hpart.confined fun _ _ hrevised =>
              ih child (List.mem_of_getElem? stands) hrevised
            exact (hconfined change hmem).above

/-! ## Members that are introduced -/

/-- The members below a span are introduced: no comment, import type, type literal or
dropped keyword is on the way to them, and the declaration around them is not private. -/
def Opens (declaration : Declaration) (span : Span) : Prop :=
  declaration.isPrivate = false ∧ span.kind ≠ .docComment ∧ span.kind ≠ .importType ∧
    span.kind ≠ .typeLiteral ∧ Rollup.isDropped span.kind = false

inductive Introduces (surface : Surface) :
    Declaration → Span → Path → Declaration → Span → Prop
  | member {declaration member : Declaration} {span child : Span} {index : Nat}
      (opens : Opens declaration span) (stands : span.children[index]? = some child)
      (declares : child.kind.isDeclaration = true)
      (found : Surface.member declaration child.node = .ok member)
      (visible : member.isPrivate = false ∨ surface.isStub member = true) :
      Introduces surface declaration span [index] member child
  | through {declaration inner : Declaration} {span child target : Span} {index : Nat}
      {path : Path} (opens : Opens declaration span)
      (stands : span.children[index]? = some child)
      (transparent : child.kind.isDeclaration = false)
      (below : Introduces surface declaration child path inner target) :
      Introduces surface declaration span (index :: path) inner target
  | inside {declaration member inner : Declaration} {span child target : Span}
      {index : Nat} {path : Path} (opens : Opens declaration span)
      (stands : span.children[index]? = some child)
      (declares : child.kind.isDeclaration = true)
      (found : Surface.member declaration child.node = .ok member)
      (whole : surface.isStub member = false)
      (below : Introduces surface member child path inner target) :
      Introduces surface declaration span (index :: path) inner target

theorem Introduces.descendant? {inner : Declaration}
    (h : Introduces surface declaration span path inner target) :
    span.descendant? path = some target := by
  induction h with
  | member _ stands => exact Span.descendant?_cons stands
  | through _ stands _ _ ih => rwa [Span.descendant?_cons stands]
  | inside _ stands _ _ _ _ ih => rwa [Span.descendant?_cons stands]

/-- The changes put the lines of a declaration in front of the span at an address below
another one, and take nothing away on the way there. -/
structure Prepared (surface : Surface) (declaration : Declaration) (base path : Path)
    (changes : Changes) : Prop where
  written : ∀ messages, surface.reviewMessages (.int declaration.id) = .ok messages →
    ∀ message ∈ messages, ∃ indent, IsIndent indent ∧ ∃ change ∈ changes,
      change.1 = base ++ path ∧ ∀ edit, (change.2 edit).Leads (messageLines indent message)
  led : ∀ change ∈ changes, change.1 = base ++ path →
    ∀ edit text, edit.Leads text → (change.2 edit).Leads text
  shown : ∀ front, front <+: path → front ≠ path → ∀ change ∈ changes,
    change.1 = base ++ front → change.2.KeepsChildren

variable {inner : Declaration} {base : Path}

theorem Prepared.append {intro : Changes} (hgentle : ∀ change ∈ intro, change.2.Gentle)
    (h : Prepared surface inner base path changes) :
    Prepared surface inner base path (intro ++ changes) := by
  refine ⟨fun messages hmessages message hmessage => ?_, ?_, ?_⟩
  · obtain ⟨indent, hindent, change, hchange, hplace⟩ :=
      h.written messages hmessages message hmessage
    exact ⟨indent, hindent, change, List.mem_append_right _ hchange, hplace⟩
  · intro change hchange haddress
    rcases List.mem_append.mp hchange with hchange | hchange
    · exact (hgentle change hchange).leads
    · exact h.led change hchange haddress
  · intro front hfront hne change hchange haddress
    rcases List.mem_append.mp hchange with hchange | hchange
    · exact (hgentle change hchange).children
    · exact h.shown front hfront hne change hchange haddress

/-- What a change outside a child may be: gentle, harmless to the children of the
parent, or confined to another child. -/
def Outside (base : Path) (index : Nat) (change : Path × Change) : Prop :=
  change.2.Gentle ∨ change.1 = base ∧ change.2.KeepsChildren ∨
    ∃ other, other ≠ index ∧ base ++ [other] <+: change.1

theorem Outside.gentle {rest : Path} (h : Outside base index change)
    (haddress : change.1 = base ++ index :: rest) : change.2.Gentle := by
  rcases h with hgentle | ⟨hbase, _⟩ | ⟨other, hother, hbelow⟩
  · exact hgentle
  · simp [hbase] at haddress
  · rw [haddress, List.append_cons, List.append_cons base index] at hbelow
    exact absurd (by simpa using hbelow) hother

theorem Prepared.below {before after : Changes}
    (h : Prepared surface inner (base ++ [index]) path part)
    (hpart : ∀ change ∈ part, Confined (base ++ [index]) change)
    (hothers : ∀ change ∈ before ++ after, Outside base index change) :
    Prepared surface inner base (index :: path) (before ++ part ++ after) := by
  have hcases : ∀ change ∈ before ++ part ++ after,
      change ∈ part ∨ Outside base index change := by
    intro change hchange
    simp only [List.mem_append] at hchange hothers
    rcases hchange with (hchange | hchange) | hchange
    · exact .inr (hothers change (.inl hchange))
    · exact .inl hchange
    · exact .inr (hothers change (.inr hchange))
  have haddress : ∀ rest, base ++ [index] ++ rest = base ++ index :: rest := by simp
  refine ⟨fun messages hmessages message hmessage => ?_, ?_, ?_⟩
  · obtain ⟨indent, hindent, change, hchange, hplace, hleads⟩ :=
      h.written messages hmessages message hmessage
    exact ⟨indent, hindent, change, by simp [hchange], hplace.trans (haddress path), hleads⟩
  · intro change hchange hplace
    rcases hcases change hchange with hmem | houtside
    · exact h.led change hmem (hplace.trans (haddress path).symm)
    · exact (houtside.gentle hplace).leads
  · intro front hfront hne change hchange hplace
    cases front with
    | nil =>
        rw [List.append_nil] at hplace
        rcases hcases change hchange with hmem | hgentle | ⟨_, hkeeps⟩ | ⟨other, _, hbelow⟩
        · exact ((hpart change hmem).gentle hplace).children
        · exact hgentle.children
        · exact hkeeps
        · exact (Confined.gentle (.inl hbelow) hplace).children
    | cons first front =>
        obtain ⟨rfl, htail⟩ := List.cons_prefix_cons.mp hfront
        rcases hcases change hchange with hmem | houtside
        · exact h.shown front htail (fun heq => hne (heq ▸ rfl)) change hmem
            (hplace.trans (haddress front).symm)
        · exact (houtside.gentle hplace).children

theorem revise_split (opens : Opens declaration span)
    (stands : span.children[index]? = some child)
    (h : revise surface entity declaration false trail span = .ok changes) :
    ∃ before part after, changes = before ++ part ++ after ∧
      Part surface entity declaration false (listsMembers trail span.kind) trail.path
        (trail.step span index) child part ∧
      ∀ change ∈ before ++ after, Outside trail.path index change := by
  obtain ⟨hvisible, hcomment, himport, hliteral, hdropped⟩ := opens
  cases revise_revised h with
  | skipped cause =>
      rcases cause with hprivate | hkind
      · simp [hvisible] at hprivate
      · exact absurd hkind hcomment
  | unbound kind => exact absurd kind himport
  | bound kind => exact absurd kind himport
  | @opened own inner _ _ _ atSpan below =>
      rw [Bool.false_or, decide_eq_false hliteral, reviseChildren_eq] at below
      obtain ⟨before, part, after, rfl, hpart, hothers⟩ := gather_split below stands
      obtain ⟨child', stands', hpart⟩ := gathered_part hpart
      obtain rfl := Option.some.inj (stands.symm.trans stands')
      refine ⟨own ++ before, part, after, by simp, hpart, fun change hchange => ?_⟩
      rw [List.append_assoc] at hchange
      rcases List.mem_append.mp hchange with hchange | hchange
      · rcases mem_ownChanges atSpan hchange with ⟨haddress, hkeeps⟩ | hgentle
        · exact .inr (.inl ⟨haddress, hkeeps hdropped⟩)
        · exact .inl hgentle
      · obtain ⟨other, part', hother, hgathered, hmem⟩ := hothers change hchange
        obtain ⟨sibling, _, hpart'⟩ := gathered_part hgathered
        rcases hpart'.confined (fun _ _ => revise_confined) change hmem with hbelow | hgentle
        · exact .inr (.inr ⟨other, hother, hbelow⟩)
        · exact .inl hgentle

private theorem introduceMember_written
    (h : introduceMember surface source sorted false parent path span member = .ok changes)
    {messages : List Message}
    (hmessages : surface.reviewMessages (.int member.id) = .ok messages) {message : Message}
    (hmessage : message ∈ messages) :
    ∃ indent, IsIndent indent ∧ ∃ change ∈ changes, change.1 = path ∧
      ∀ edit, (change.2 edit).Leads (messageLines indent message) := by
  obtain ⟨order, _, hchanges⟩ := introduceMember_eq h
  rcases hchanges with ⟨hinside, _⟩ | ⟨_, found, lines, hfound, hlines, rfl⟩
  · cases hinside
  · obtain rfl := Except.ok.inj (hfound.symm.trans hmessages)
    simp only [synopsis, bind_eq_ok, pure_eq_ok] at hlines
    obtain ⟨parts, _, rfl⟩ := hlines
    refine ⟨_, isIndent_indentAt source span.node.start, _,
      List.mem_append_right _ (List.mem_singleton.mpr rfl), rfl, fun edit => ?_⟩
    exact Change.leads_prepend span edit (messageLines_within _ hmessage _)

private theorem ownChanges_eq_nil {kind : NodeKind} {own : Changes}
    (hkind : kind.isDeclaration = true) (habove : trail.above ≠ [])
    (h : ownChanges surface entity declaration trail span kind = .ok own) : own = [] := by
  have hall : ∀ kind ∈ NodeKind.declarationKinds,
      Rollup.isDropped kind = false ∧ kind.isDeclarationKeyword = false ∧
        kind ≠ .identifier := by decide
  obtain ⟨hdropped, hkeyword, hidentifier⟩ :=
    hall kind (by simpa [NodeKind.isDeclaration] using hkind)
  have htop : ¬ (kind = .variableDeclaration && trail.above.isEmpty) = true := by
    simp [habove]
  unfold ownChanges at h
  unfold Rollup.isDropped at hdropped
  rw [if_neg (Bool.eq_false_iff.mp hdropped), if_neg (Bool.eq_false_iff.mp hkeyword),
    if_neg htop, if_neg hidentifier, pure_eq_ok] at h
  exact h.symm

private theorem revise_member_gentle (hvisible : member.isPrivate = false)
    (hdeclares : child.kind.isDeclaration = true) (habove : trail.above ≠ [])
    (h : revise surface entity member inside trail child = .ok changes)
    (hchange : change ∈ changes) (haddress : change.1 = trail.path) : change.2.Gentle := by
  cases revise_revised h with
  | skipped cause =>
      rcases cause with hprivate | hkind
      · simp [hvisible] at hprivate
      · rw [hkind] at hdeclares
        cases hdeclares
  | unbound => cases hchange
  | bound kind =>
      rw [kind] at hdeclares
      cases hdeclares
  | opened _ _ _ atSpan below =>
      rw [ownChanges_eq_nil hdeclares habove atSpan, List.nil_append] at hchange
      rw [reviseChildren_eq] at below
      obtain ⟨index, part, hgathered, hmem⟩ := mem_gather below hchange
      obtain ⟨inner, _, hpart⟩ := gathered_part hgathered
      exact (hpart.confined (fun _ _ => revise_confined) change hmem).gentle haddress

theorem prepared_of_introduced {intro : Changes}
    (introduced : introduceMember surface source sorted false parent path child member =
      .ok intro)
    (hrest : ∀ change ∈ changes, change.1 = path → change.2.Gentle) :
    Prepared surface member path [] (intro ++ changes) := by
  refine ⟨?_, ?_, fun front hfront hne => absurd (List.prefix_nil.mp hfront) hne⟩
  · intro messages hmessages message hmessage
    obtain ⟨indent, hindent, change, hchange, hplace, hleads⟩ :=
      introduceMember_written introduced hmessages hmessage
    exact ⟨indent, hindent, change, List.mem_append_left _ hchange,
      hplace.trans (List.append_nil _).symm, hleads⟩
  · intro change hchange haddress
    rw [List.append_nil] at haddress
    rcases List.mem_append.mp hchange with hchange | hchange
    · exact (gentle_introduceMember introduced change hchange).leads
    · exact (hrest change hchange haddress).leads

private theorem Part.prepared
    (h : Part surface entity declaration false sorted trail.path (trail.step span index)
      child part) (declares : child.kind.isDeclaration = true)
    (found : Surface.member declaration child.node = .ok member)
    (visible : member.isPrivate = false ∨ surface.isStub member = true) :
    Prepared surface member (trail.path ++ [index]) [] part := by
  cases h with
  | through transparent => simp [transparent] at declares
  | stubbed _ found' introduced bodiless =>
      obtain rfl := Except.ok.inj (found.symm.trans found')
      apply prepared_of_introduced introduced
      intro change hchange haddress
      -- A stub changes only the children of its span.
      obtain ⟨_, position, _, hbelow⟩ := Rollup.mem_stubChildren hchange
      have hlength := congrArg List.length (haddress.symm.trans hbelow)
      simp at hlength
  | member _ found' introduced whole revised =>
      obtain rfl := Except.ok.inj (found.symm.trans found')
      have hvisible : member.isPrivate = false := by
        rcases visible with hvisible | hstub
        · exact hvisible
        · simp [whole] at hstub
      apply prepared_of_introduced introduced
      intro change hchange haddress
      exact revise_member_gentle hvisible declares (List.cons_ne_nil _ _) revised hchange
        haddress

theorem revise_prepared (hintroduces : Introduces surface declaration span path inner target)
    (h : revise surface entity declaration false trail span = .ok changes) :
    Prepared surface inner trail.path path changes := by
  induction hintroduces generalizing trail changes with
  | @member declaration member span child index opens stands declares found visible =>
      obtain ⟨before, part, after, rfl, hpart, hothers⟩ := revise_split opens stands h
      exact (hpart.prepared declares found visible).below
        (hpart.confined fun _ _ => revise_confined) hothers
  | @through declaration inner span child target index path opens stands transparent _ ih =>
      obtain ⟨before, part, after, rfl, hpart, hothers⟩ := revise_split opens stands h
      have hconfined := hpart.confined fun _ _ => revise_confined
      cases hpart with
      | through _ revised => exact (ih revised).below hconfined hothers
      | stubbed declares => simp [transparent] at declares
      | member declares => simp [transparent] at declares
  | @inside declaration member inner span child target index path opens stands declares
      found whole _ ih =>
      obtain ⟨before, part, after, rfl, hpart, hothers⟩ := revise_split opens stands h
      have hconfined := hpart.confined fun _ _ => revise_confined
      cases hpart with
      | through transparent => simp [transparent] at declares
      | stubbed _ found' _ bodiless =>
          obtain rfl := Except.ok.inj (found.symm.trans found')
          simp [whole] at bodiless
      | member _ found' introduced _ revised =>
          obtain rfl := Except.ok.inj (found.symm.trans found')
          exact ((ih revised).append (gentle_introduceMember introduced)).below hconfined hothers

theorem messageLines_within_render {root : Span} {messages : List Message} {message : Message}
    (hintroduces : Introduces surface declaration root path inner target)
    (h : revise surface entity declaration false {} root = .ok changes)
    (hmessages : surface.reviewMessages (.int inner.id) = .ok messages)
    (hmessage : message ∈ messages) :
    ∃ indent, IsIndent indent ∧
      messageLines indent message <:+: root.render changes.edits := by
  have hprepared := revise_prepared hintroduces h
  obtain ⟨indent, hindent, change, hchange, hplace, hleads⟩ :=
    hprepared.written messages hmessages message hmessage
  refine ⟨indent, hindent, ?_⟩
  obtain ⟨lead, hlead, hinside⟩ : (changes.edits path).Leads (messageLines indent message) :=
    Changes.edits_of_mem (fun edit => edit.Leads (messageLines indent message)) hchange hplace
      hleads fun other hother haddress edit => hprepared.led other hother haddress edit _
  have hshown : ∀ front, front <+: path → front ≠ path →
      (changes.edits front).omitChildren = false := by
    intro front hfront hne
    apply Changes.edits_of_keeps (fun edit => edit.omitChildren = false) rfl
    intro other hother haddress edit hedit
    rw [hprepared.shown front hfront hne other hother haddress edit]
    exact hedit
  obtain ⟨own, hdrawn⟩ := Span.exists_draw_descendant changes.edits none
    hintroduces.descendant? hshown
  refine List.IsInfix.trans ?_ hdrawn
  have hedit : changes.edits.within path [] = changes.edits path := by
    rw [Edits.within, List.append_nil]
  rw [Span.draw_eq, hedit, hlead, Option.getD_some, List.append_assoc, List.append_assoc]
  exact hinside.trans (List.prefix_append _ _).isInfix

end Report

end ApiSurface
