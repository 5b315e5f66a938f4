import ApiSurface.Proofs.Overlay.Writable
import ApiSurface.Proofs.Rollup.Origins

/-!
# Walking without a binding

A node that is bound to nothing is left as it is.  Without the binding of one import type,
the walk does not go into that import type any more.  Everything else is done as before,
except that the import types around it are written with another argument.
-/

namespace ApiSurface

def Surface.unbind (surface : Surface) (id : Nat) : Surface :=
  { surface with
    graph := { surface.graph with
      bindings := surface.graph.bindings.filter fun binding => binding.1 ≠ id } }

namespace Surface

variable {surface : Surface} {id : Nat} {node : Node}

theorem entityForNode_unbind_self (hid : node.id = id) :
    (surface.unbind id).entityForNode node = .ok none := by
  have hnone : (surface.unbind id).graph.resolve? node = none := by
    have hlookup : (surface.graph.bindings.filter fun binding => binding.1 ≠ id).lookup
        node.id = none := by
      apply List.lookup_eq_none_iff.mpr
      intro binding hmem
      have hother := (List.mem_filter.mp hmem).2
      rw [hid]
      exact bne_iff_ne.mpr (Ne.symm (by simpa using hother))
    exact congrArg (Option.filter _) hlookup
  rw [entityForNode, hnone]

theorem entityForNode_unbind (hid : node.id ≠ id) :
    (surface.unbind id).entityForNode node = surface.entityForNode node := by
  have hsame : (surface.unbind id).graph.resolve? node = surface.graph.resolve? node := by
    have hlookup : (surface.graph.bindings.filter fun binding => binding.1 ≠ id).lookup
        node.id = surface.graph.bindings.lookup node.id := by
      induction surface.graph.bindings with
      | nil => rfl
      | cons binding rest ih =>
          obtain ⟨key, value⟩ := binding
          by_cases hkey : key = id
          · have hother : (node.id == key) = false := beq_false_of_ne (hkey ▸ hid)
            rw [List.filter_cons_of_neg (by simpa using hkey), ih, List.lookup, hother]
          · rw [List.filter_cons_of_pos (by simpa using hkey), List.lookup, List.lookup, ih]
    exact congrArg (Option.filter _) hlookup
  rw [entityForNode, entityForNode, hsame]
  rfl

end Surface

namespace Changes

variable {changes : Changes} {address : Path} {edit : Edit}

def applyAt (changes : Changes) (address : Path) (edit : Edit) : Edit :=
  changes.foldl (fun edit change => if change.1 = address then change.2 edit else edit) edit

theorem applyAt_append (first second : Changes) (address : Path) (edit : Edit) :
    applyAt (first ++ second) address edit =
      second.applyAt address (first.applyAt address edit) := by
  simp [applyAt]

theorem applyAt_of_apart (h : ∀ change ∈ changes, change.1 ≠ address) :
    changes.applyAt address edit = edit := by
  unfold applyAt
  induction changes with
  | nil => rfl
  | cons change rest ih =>
      rw [List.foldl_cons, if_neg (h change (by simp))]
      exact ih fun other hmem => h other (by simp [hmem])

end Changes

namespace Span

theorem joinFaultAmong?_of_children {edits : Edits} {start : Nat} {spans : List Span}
    (h : ∀ index (child : Span), spans[index]? = some child →
      child.joinFault? (edits.below (start + index)) = none) :
    joinFaultAmong? edits start spans = none := by
  induction spans generalizing start with
  | nil => rfl
  | cons first rest ih =>
      rw [joinFaultAmong?, Option.or_eq_none_iff]
      refine ⟨h 0 first rfl, ih fun index child hchild => ?_⟩
      have hrest := h (index + 1) child (by simpa using hchild)
      rwa [← Nat.add_assoc, Nat.add_right_comm] at hrest

end Span

namespace Emit

variable {edits other : Edits} {path : Path} {start : Nat} {texts : List Text}
  {spans : List Span}

theorem exists_trimmedTexts
    (hjoined : ∀ address (span : Span), span.joinFault? (edits.within address) = none →
      span.joinFault? (other.within address) = none)
    (h : trimmedTexts edits path start spans = .ok texts) :
    ∃ texts', trimmedTexts other path start spans = .ok texts' := by
  induction spans generalizing start texts with
  | nil => exact ⟨[], rfl⟩
  | cons first rest ih =>
      simp only [trimmedTexts] at h ⊢
      split_ifs at h ⊢
      · simp only [bind_eq_ok, pure_eq_ok] at h ⊢
        obtain ⟨_, _, others, hothers, _⟩ := h
        obtain ⟨others', hothers'⟩ := ih hothers
        exact ⟨_, _, rfl, others', hothers', rfl⟩
      · simp only [bind_eq_ok, pure_eq_ok] at h ⊢
        obtain ⟨text, htext, _, _, others, hothers, _⟩ := h
        obtain ⟨others', hothers'⟩ := ih hothers
        have hfirst : first.joinFault? (edits.within (path ++ [start])) = none := by
          unfold trimmedText at htext
          split at htext
          · cases htext
          · assumption
        refine ⟨_, Text.trim (first.render (other.within (path ++ [start]))), ?_, _, rfl,
          others', hothers', rfl⟩
        rw [trimmedText, hjoined _ _ hfirst]

private theorem exists_argumentTexts {bounds : Nat × Nat}
    (hjoined : ∀ address (span : Span), span.joinFault? (edits.within address) = none →
      span.joinFault? (other.within address) = none)
    (h : argumentTexts edits path bounds start spans = .ok texts) :
    ∃ texts', argumentTexts other path bounds start spans = .ok texts' := by
  induction spans generalizing start texts with
  | nil => exact ⟨[], rfl⟩
  | cons first rest ih =>
      simp only [argumentTexts] at h ⊢
      split_ifs at h ⊢
      all_goals
        simp only [bind_eq_ok, pure_eq_ok] at h ⊢
        obtain ⟨here, hhere, others, hothers, _⟩ := h
        obtain ⟨others', hothers'⟩ := ih hothers
      · obtain ⟨here', hhere'⟩ := exists_trimmedTexts hjoined hhere
        exact ⟨_, here', hhere', others', hothers', rfl⟩
      · obtain ⟨here', hhere'⟩ := exists_trimmedTexts hjoined hhere
        exact ⟨_, here', hhere', others', hothers', rfl⟩
      · exact ⟨_, _, rfl, others', hothers', rfl⟩

private theorem exists_argumentsText {changes others : Changes} {span : Span}
    {bounds : Option (Nat × Nat)} {arguments : Text}
    (hjoined : ∀ address (span : Span), span.joinFault? (changes.edits.within address) = none →
      span.joinFault? (others.edits.within address) = none)
    (h : argumentsText changes path span bounds = .ok arguments) :
    ∃ arguments', argumentsText others path span bounds = .ok arguments' := by
  cases bounds with
  | none => exact ⟨[], rfl⟩
  | some brackets =>
      simp only [argumentsText, bind_eq_ok, pure_eq_ok] at h ⊢
      obtain ⟨texts, htexts, _⟩ := h
      obtain ⟨texts', htexts'⟩ := exists_argumentTexts hjoined htexts
      exact ⟨_, texts', htexts', rfl⟩

end Emit

namespace Rollup

open Emit

def Context.unbind (context : Context) (id : Nat) : Context :=
  { context with surface := context.surface.unbind id }

variable {context : Context} {entity : Entity} {outer declaration next inner last : Declaration}
  {root span child target : Span} {path rest address : Path} {index id : Nat}
  {changes other : Changes} {change : Path × Change} {trail : Trail}

theorem surface_unbind : (context.unbind id).surface = context.surface.unbind id := rfl

theorem ok_bind {α β : Type} (value : α) (next : α → Except Fault β) :
    ((.ok value : Except Fault α) >>= next) = next value := rfl

/-! ## Walks that do not come to the node -/

theorem childChanges_unbind (opened : Opened span) (stands : span.children[index]? = some child)
    (hbelow : ∀ next, Step context declaration span index child next →
      revise (context.unbind id) entity next trail child =
        revise context entity next trail child) :
    childChanges (context.unbind id) entity declaration trail child =
      childChanges context entity declaration trail child := by
  cases declares : child.kind.isDeclaration with
  | false =>
      simp only [childChanges, declares, Bool.false_eq_true, if_false]
      exact hbelow declaration (.through opened stands declares)
  | true =>
      simp only [childChanges, declares, if_true]
      cases found : Surface.member declaration child.node with
      | error fault => rfl
      | ok member =>
          simp only [ok_bind]
          by_cases kept : context.plan.isKept member.id = true
          · have kept' : (context.unbind id).plan.isKept member.id = true := kept
            have hsame : (context.unbind id).surface.item member.id =
                context.surface.item member.id := rfl
            simp only [kept, kept', hsame, Bool.not_true, Bool.false_eq_true, if_false]
            cases hitem : context.surface.item member.id with
            | error fault => rfl
            | ok item =>
                simp only [ok_bind]
                split
                · rfl
                · rename_i whole
                  have hwhole := (Surface.isStub_eq hitem).trans (Bool.eq_false_iff.mpr whole)
                  exact hbelow member (.member opened stands declares found kept hwhole)
          · have kept' : ¬ (context.unbind id).plan.isKept member.id = true := kept
            simp only [kept, kept', Bool.not_false, if_true]
            rfl

theorem argumentChanges_unbind (takes : TakesArgument context.surface span index)
    (stands : span.children[index]? = some child)
    (hbelow : ∀ next, Step context declaration span index child next →
      revise (context.unbind id) entity next trail child =
        revise context entity next trail child) :
    argumentChanges (context.unbind id) entity declaration trail child =
      argumentChanges context entity declaration trail child := by
  cases declares : child.kind.isDeclaration with
  | false =>
      simp only [argumentChanges, declares, Bool.false_eq_true, if_false]
      exact hbelow declaration (.argument takes stands declares)
  | true =>
      simp only [argumentChanges, declares, if_true]
      cases found : Surface.member declaration child.node with
      | error fault => rfl
      | ok member => exact hbelow member (.declared takes stands declares found)

theorem gather_congr {each each' : Nat → Option Span → Option Span → Span → Except Fault Changes}
    {start : Nat} {previous : Option Span} {spans : List Span}
    (h : ∀ index child, spans[index]? = some child → ∀ previous next,
      each (start + index) previous next child = each' (start + index) previous next child) :
    gather each start previous spans = gather each' start previous spans := by
  induction spans generalizing start previous with
  | nil => rfl
  | cons first rest ih =>
      have hfirst := h 0 first rfl
      rw [gather, gather, ih fun index child hchild previous next => ?_]
      · rw [← Nat.add_zero start, hfirst]
      · have hrest := h (index + 1) child (by simpa using hchild) previous next
        rwa [← Nat.add_assoc, Nat.add_right_comm] at hrest

theorem revise_unbind
    (hapart : ∀ path inner target, Visits context declaration span path inner target →
      target.node.id ≠ id) :
    revise (context.unbind id) entity declaration trail span =
      revise context entity declaration trail span := by
  induction span using Span.inductionOnChildren generalizing declaration trail with
  | step span ih =>
      have hhere : (context.unbind id).surface.entityForNode span.node =
          context.surface.entityForNode span.node :=
        Surface.entityForNode_unbind (hapart [] declaration span .here)
      have hbelow : ∀ {index child next trail}, Step context declaration span index child next →
          revise (context.unbind id) entity next trail child =
            revise context entity next trail child := by
        intro index child next trail hstep
        exact ih child (List.mem_of_getElem? hstep.stands)
          fun path inner target hvisits => hapart _ inner target (.step hstep hvisits)
      by_cases hcomment : span.kind = .docComment
      · rw [revise_comment hcomment, revise_comment hcomment]
      by_cases himport : span.kind = .importType
      · rw [revise_importType himport, revise_importType himport, hhere]
        cases hfound : context.surface.entityForNode span.node with
        | error fault => rfl
        | ok found =>
            cases found with
            | none => rfl
            | some imported =>
                simp only [ok_bind]
                congr 2
                funext name
                cases hbounds : argumentBounds declaration.site.file.text span with
                | error fault => rfl
                | ok bounds =>
                    simp only [ok_bind]
                    rw [gather_congr fun index child stands previous next => ?_]
                    rw [Nat.zero_add]
                    split
                    · rename_i hbetween
                      have takes : TakesArgument context.surface span index :=
                        ⟨himport, ⟨imported, hfound⟩, (isArgument_iff_between hbounds).mpr hbetween⟩
                      exact argumentChanges_unbind takes stands fun next hstep => hbelow hstep
                    · rfl
      · have hopened : Opened span := ⟨hcomment, himport⟩
        have hown : ownChanges (context.unbind id) entity declaration trail span span.kind =
            ownChanges context entity declaration trail span span.kind := by
          simp only [ownChanges, renameIdentifier, hhere]
        rw [revise_opened hopened, revise_opened hopened, hown]
        congr 2
        funext own
        rw [gather_congr fun index child stands previous next => ?_]
        exact childChanges_unbind hopened stands fun next hstep => hbelow hstep

/-! ## Walks to the node -/

theorem Step.unbind (h : Step context declaration span index child next)
    (hid : span.node.id ≠ id) :
    Step (context.unbind id) declaration span index child next := by
  have htakes : TakesArgument context.surface span index →
      TakesArgument (context.unbind id).surface span index :=
    fun ⟨kind, ⟨imported, bound⟩, between⟩ =>
      ⟨kind, ⟨imported, (Surface.entityForNode_unbind hid).trans bound⟩, between⟩
  cases h with
  | through opened stands transparent => exact .through opened stands transparent
  | member opened stands declares found kept whole =>
      exact .member opened stands declares found kept whole
  | argument takes stands transparent => exact .argument (htakes takes) stands transparent
  | declared takes stands declares found => exact .declared (htakes takes) stands declares found

theorem Visits.unbind (h : Visits context declaration span path inner target)
    (hapart : ∀ front index back above, path = front ++ index :: back →
      span.descendant? front = some above → above.node.id ≠ id) :
    Visits (context.unbind id) declaration span path inner target := by
  induction h with
  | here => exact .here
  | @step _ _ _ span _ _ index path goes _ ih =>
      refine .step (goes.unbind (hapart [] index path span rfl rfl)) (ih ?_)
      intro front next back above hpath habove
      refine hapart (index :: front) next back above (by rw [hpath]; rfl) ?_
      rwa [Span.descendant?_cons goes.stands]

/-- A variable inside a span is not kept, and the statement that goes with it stands around
the span. -/
def TakesAround (context : Context) (outer : Declaration) (root : Span) (path : Path) : Prop :=
  ∃ place child statement, Meets context outer root place child ∧ path <+: place ∧
    child.kind = .variableDeclaration ∧
    (trailTo root place).find? .variableStatement = some statement ∧ statement.path <+: path

/-- An import type that the walk comes to and that stands for itself: no other node below
the root is bound with it, and nothing inside it takes out what is around it. -/
structure Detachable (context : Context) (outer : Declaration) (root : Span) (path : Path)
    (target : Span) : Prop where
  visits : ∃ last, Visits context outer root path last target
  kind : target.kind = .importType
  distinct : ∀ address other, root.descendant? address = some other →
    other.node.id = target.node.id → address = path
  stays : ¬ TakesAround context outer root path

theorem starts_sibling {move : Nat → Nat} (h : path <+: address) (hne : path ≠ address) :
    path <+: sibling address move := by
  obtain ⟨rest, rfl⟩ := h
  have hrest : rest ≠ [] := by
    rintro rfl
    simp at hne
  obtain ⟨front, last, rfl⟩ := (List.eq_nil_or_concat' rest).resolve_left hrest
  rw [← List.append_assoc, sibling_concat, List.append_assoc]
  exact List.prefix_append _ _

private theorem Detachable.own_inside {place : Path}
    (hdetach : Detachable context outer root path target)
    (hplace : Visits context outer root place inner span) (hbelow : path <+: place)
    (h : Own context entity inner (trailTo root place) span change) :
    path <+: change.1 := by
  obtain ⟨last, hvisits⟩ := hdetach.visits
  rcases h.address_trailTo hplace.descendant? with
    haddress | ⟨parent, index, list, rfl, haddress, hfound, hlist⟩
  · rwa [haddress]
  · rcases List.prefix_concat_iff.mp hbelow with hself | habove
    · -- Only a keyword changes the list before it, and the import type is none.
      obtain rfl := Option.some.inj
        (hplace.descendant?.symm.trans (hself ▸ hvisits.descendant?))
      cases h with
      | comment hkind => simp [hdetach.kind] at hkind
      | opened hopened => exact absurd hdetach.kind hopened.2
      | replaced _ made =>
          have hown : change.1 = (trailTo root (parent ++ [index + 1])).path := by
            simp only [replaceWhole, List.mem_cons, List.not_mem_nil, or_false] at made
            rcases made with rfl | rfl <;> rfl
          rw [hown, path_trailTo hplace.descendant?]
          exact hbelow
    · rw [haddress]
      exact habove.trans (List.prefix_append _ _)

private theorem Detachable.taken_inside {place : Path}
    (hdetach : Detachable context outer root path target)
    (hmeets : Meets context outer root (place ++ [index]) child) (hbelow : path <+: place) :
    path <+: (taken (trailTo root (place ++ [index])) child).path ∧
      path ≠ (taken (trailTo root (place ++ [index])) child).path := by
  have hmember : path <+: place ++ [index] := hbelow.trans (List.prefix_append _ _)
  obtain ⟨_, hway, _, _⟩ := taken_spec hmeets.descendant?
  cases hfound : if child.kind = .variableDeclaration then
      (trailTo root (place ++ [index])).find? .variableStatement else none with
  | none =>
      simp only [taken, hfound, path_trailTo hmeets.descendant?]
      refine ⟨hmember, fun hself => ?_⟩
      have hshort := hbelow.length_le
      simp [hself] at hshort
  | some statement =>
      obtain ⟨hvariable, hfind⟩ : child.kind = .variableDeclaration ∧
          (trailTo root (place ++ [index])).find? .variableStatement = some statement := by
        split at hfound
        · exact ⟨‹_›, hfound⟩
        · cases hfound
      have hstays : ¬ statement.path <+: path := fun haround =>
        hdetach.stays ⟨_, _, _, hmeets, hmember, hvariable, hfind, haround⟩
      simp only [taken, hfound] at hway ⊢
      refine ⟨(List.prefix_or_prefix_of_prefix hmember hway).resolve_right hstays, ?_⟩
      rintro rfl
      exact hstays List.prefix_rfl

theorem Detachable.inside {place : Path} (hdetach : Detachable context outer root path target)
    (hplace : Visits context outer root place inner span) (hbelow : path <+: place)
    (h : Effect context entity inner (trailTo root place) span change) :
    path <+: change.1 := by
  cases h with
  | own made => exact hdetach.own_inside hplace hbelow made
  | trimmed opened stands declares found unkept made =>
      have hmeets := Meets.mk hplace opened stands declares found unkept
      have htaken := hdetach.taken_inside hmeets hbelow
      rcases mem_trimMember hplace.descendant? stands made with
        haddress | ⟨_, _, _, haddress⟩
      · exact haddress ▸ htaken.1
      · exact haddress ▸ starts_sibling htaken.1 htaken.2
  | stubbed _ stands _ _ _ made =>
      obtain ⟨_, position, _, haddress⟩ := mem_stubChildren made
      rw [← trailTo_concat hplace.descendant? stands,
        path_trailTo (descendant?_concat hplace.descendant? stands)] at haddress
      rw [haddress, List.append_assoc]
      exact hbelow.trans (List.prefix_append _ _)

/-! ## Changes that agree -/

/-- The span at an address is an import type on the way to another address. -/
def Encloses (root : Span) (path address : Path) : Prop :=
  address <+: path ∧ ∃ span, root.descendant? address = some span ∧ span.kind = .importType

/-- The addresses at which the binding of the import type at a path makes a difference: in
the import type itself, and at those around it. -/
def Touched (root : Span) (path address : Path) : Prop :=
  path <+: address ∨ Encloses root path address

/-- How the edits at an address compare with and without the binding of an import type. -/
structure Alike (root : Span) (path address : Path) (edit other : Edit) : Prop where
  same : ¬ Touched root path address → edit = other
  joinable : Touched root path address → other.Joinable
  omits : ¬ path <+: address → edit.omitChildren = other.omitChildren

/-- Changes with and without the binding of the import type at a path. -/
def Agree (root : Span) (path : Path) (changes other : Changes) : Prop :=
  ∀ address edit edit', Alike root path address edit edit' →
    Alike root path address (changes.applyAt address edit) (other.applyAt address edit')

namespace Agree

theorem nil : Agree root path [] [] := fun _ _ _ h => h

theorem append {later later' : Changes} (h : Agree root path changes other)
    (hlater : Agree root path later later') :
    Agree root path (changes ++ later) (other ++ later') := by
  intro address edit edit' halike
  rw [Changes.applyAt_append, Changes.applyAt_append]
  exact hlater _ _ _ (h _ _ _ halike)

theorem of_untouched (h : ∀ change ∈ changes, ¬ Touched root path change.1) :
    Agree root path changes changes := by
  intro address edit edit' halike
  by_cases htouched : Touched root path address
  · have hapart : ∀ change ∈ changes, change.1 ≠ address := by
      rintro change hmem rfl
      exact h change hmem htouched
    rwa [Changes.applyAt_of_apart hapart, Changes.applyAt_of_apart hapart]
  · obtain rfl := halike.same htouched
    exact ⟨fun _ => rfl, fun h => absurd h htouched, fun _ => rfl⟩

theorem of_inside (h : ∀ change ∈ changes, path <+: change.1) : Agree root path changes [] := by
  intro address edit edit' halike
  by_cases hinside : path <+: address
  · exact ⟨fun h => absurd (.inl hinside) h, halike.joinable, fun h => absurd hinside h⟩
  · have hapart : ∀ change ∈ changes, change.1 ≠ address := by
      rintro change hmem rfl
      exact hinside (h change hmem)
    rwa [Changes.applyAt_of_apart hapart]

private theorem of_replaceWhole {place : Path} (hencloses : Encloses root path place)
    (text text' : Text) :
    Agree root path (replaceWhole place text) (replaceWhole place text') := by
  intro address edit edit' halike
  by_cases hplace : place = address
  · subst hplace
    have htouched : Touched root path place := .inr hencloses
    refine ⟨fun h => absurd htouched h, fun _ => ?_, fun _ => ?_⟩
    · simp [Changes.applyAt, replaceWhole, Change.skip, Change.setLead, Edit.Joinable]
    · simp [Changes.applyAt, replaceWhole, Change.skip, Change.setLead]
  · have hapart : ∀ text, ∀ change ∈ replaceWhole place text, change.1 ≠ address := by
      simp [replaceWhole, hplace]
    rwa [Changes.applyAt_of_apart (hapart text), Changes.applyAt_of_apart (hapart text')]

theorem edits (h : Agree root path changes other) (address : Path) :
    Alike root path address (changes.edits address) (other.edits address) :=
  h address {} {} ⟨fun _ => rfl, fun _ => ⟨rfl, rfl⟩, fun _ => rfl⟩

theorem joined (h : Agree root path changes other) (address : Path) (span : Span)
    (hjoined : span.joinFault? (changes.edits.within address) = none) :
    span.joinFault? (other.edits.within address) = none := by
  induction span using Span.inductionOnChildren generalizing address with
  | step span ih =>
      by_cases hinside : path <+: address
      · refine Span.joinFault?_eq_none (fun inner => ?_) span
        exact (h.edits _).joinable (.inl (hinside.trans (List.prefix_append _ _)))
      · have halike := h.edits address
        rw [Span.joinFault?_eq, Option.or_eq_none_iff, Edits.within, List.append_nil] at hjoined ⊢
        constructor
        · by_cases htouched : Touched root path address
          · obtain ⟨hlead, htail⟩ := halike.joinable htouched
            simp [Given.joinFault?, hlead, htail, Datum.isNull]
          · rw [← halike.same htouched]
            exact hjoined.1
        · rw [← halike.omits hinside]
          split
          · rfl
          · rename_i hshown
            rw [if_neg hshown] at hjoined
            refine Span.joinFaultAmong?_of_children fun index child hchild => ?_
            have hinner := Span.joinFault?_of_among hjoined.2 hchild
            rw [Edits.below_within] at hinner ⊢
            exact ih child (List.mem_of_getElem? hchild) _ hinner

end Agree

theorem Detachable.not_touched {place : Path}
    (hdetach : Detachable context outer root path target)
    (hplace : Visits context outer root place inner span) (hapart : ¬ path <+: place)
    (hencloses : ¬ Encloses root path place)
    (h : Effect context entity inner (trailTo root place) span change) :
    ¬ Touched root path change.1 := by
  obtain ⟨last, hvisits⟩ := hdetach.visits
  rintro (hinside | ⟨haround, found, hfound, hkind⟩)
  · have hsecluded : isSecluded target.kind = true := by
      rw [hdetach.kind]
      rfl
    exact (h.nearby hplace.descendant?).not_below hplace hvisits hsecluded hapart hinside
  · obtain ⟨rest, hpath⟩ := haround
    obtain ⟨middle, between, hbetween, _⟩ := Visits.split (hpath ▸ hvisits)
    have hstays : ¬ GoesWithMember context outer root change.1 :=
      not_goesWithMember hfound (by simp [hkind]) (by simp [hkind])
    have hown := h.own_of_visited hplace hbetween hstays
    rcases hown.address_trailTo hplace.descendant? with
      haddress | ⟨_, _, list, _, _, hlist, hlistKind⟩
    · rw [haddress] at hfound hpath
      exact hencloses ⟨⟨rest, hpath⟩, found, hfound, hkind⟩
    · obtain rfl := Option.some.inj (hfound.symm.trans hlist)
      simp [hkind] at hlistKind

/-! ## The walk without the binding -/

theorem gather_related (related : Changes → Changes → Prop)
    {each each' : Nat → Option Span → Option Span → Span → Except Fault Changes}
    {start : Nat} {previous : Option Span} {spans : List Span} (hnil : related [] [])
    (happend : ∀ {first first' later later'}, related first first' → related later later' →
      related (first ++ later) (first' ++ later'))
    (heach : ∀ index child part, spans[index]? = some child →
      each (start + index) (siblingBefore previous spans index) spans[index + 1]? child =
        .ok part →
      ∃ part', each' (start + index) (siblingBefore previous spans index) spans[index + 1]?
        child = .ok part' ∧ related part part')
    (h : gather each start previous spans = .ok changes) :
    ∃ other, gather each' start previous spans = .ok other ∧ related changes other := by
  induction spans generalizing start previous changes with
  | nil =>
      cases h
      exact ⟨[], rfl, hnil⟩
  | cons first rest ih =>
      simp only [gather, bind_eq_ok, pure_eq_ok] at h ⊢
      obtain ⟨here, hhere, others, hothers, rfl⟩ := h
      obtain ⟨here', hhere', hfirst⟩ := heach 0 first here rfl
        (by simpa [siblingBefore, List.head?_eq_getElem?] using hhere)
      have hshift : ∀ index, siblingBefore previous (first :: rest) (index + 1) =
          siblingBefore (some first) rest index := by
        intro index
        cases index <;> rfl
      obtain ⟨others', hothers', hrest⟩ := ih (fun index child part hchild hpart => by
        rw [Nat.add_right_comm, Nat.add_assoc, ← hshift] at hpart ⊢
        exact heach (index + 1) child part (by simpa using hchild) (by simpa using hpart))
        hothers
      refine ⟨_, ⟨here', ?_, others', hothers', rfl⟩, happend hfirst hrest⟩
      simpa [siblingBefore, List.head?_eq_getElem?] using hhere'

private theorem Step.childChanges_eq {part : Changes}
    (h : Step context declaration span index child next) (opened : Opened span)
    (hpart : childChanges context entity declaration trail child = .ok part) :
    childChanges context entity declaration trail child =
        revise context entity next trail child ∧
      childChanges (context.unbind id) entity declaration trail child =
        revise (context.unbind id) entity next trail child := by
  cases h with
  | through _ _ transparent => simp [childChanges, transparent]
  | argument takes _ _ => exact absurd takes.kind opened.2
  | declared takes _ _ _ => exact absurd takes.kind opened.2
  | member _ _ declares found kept whole =>
      have kept' : (context.unbind id).plan.isKept next.id = true := kept
      have hsame : (context.unbind id).surface.item next.id =
          context.surface.item next.id := rfl
      simp only [childChanges, declares, if_true, found, ok_bind, kept, kept', hsame,
        Bool.not_true, Bool.false_eq_true, if_false, bind_eq_ok] at hpart ⊢
      obtain ⟨item, hitem, _⟩ := hpart
      have hbody : item.isPreapproved = false := (Surface.isStub_eq hitem).symm.trans whole
      simp [hitem, ok_bind, hbody]

private theorem Step.argumentChanges_eq {other : Context}
    (h : Step context declaration span index child next) (kind : span.kind = .importType) :
    argumentChanges other entity declaration trail child =
      revise other entity next trail child := by
  cases h with
  | through opened _ _ => exact absurd kind opened.2
  | member opened _ _ _ _ _ => exact absurd kind opened.2
  | argument _ _ transparent => simp [argumentChanges, transparent]
  | declared _ _ declares found => simp [argumentChanges, declares, found, ok_bind]

theorem not_starts_above {place : Path} (hpath : path = place ++ index :: rest) :
    ¬ path <+: place := by
  intro hshort
  have hlength := hshort.length_le
  simp [hpath] at hlength

theorem Opened.not_encloses {place : Path} (opened : Opened span)
    (hspan : root.descendant? place = some span) : ¬ Encloses root path place := by
  rintro ⟨_, found, hfound, hkind⟩
  obtain rfl := Option.some.inj (hspan.symm.trans hfound)
  exact opened.2 hkind

/-- Without the binding, the part of a child agrees with its part before. -/
def Continues (context : Context) (entity : Entity) (root : Span) (path : Path) (id : Nat)
    (next : Declaration) (trail : Trail) (child : Span) : Prop :=
  ∀ part, revise context entity next trail child = .ok part →
    ∃ part', revise (context.unbind id) entity next trail child = .ok part' ∧
      Agree root path part part'

section Way

variable {place : Path} (hdetach : Detachable context outer root path target)
  (hplace : Visits context outer root place declaration span)
  (hpath : path = place ++ index :: rest)
include hdetach hplace hpath

theorem Detachable.part_untouched {position : Nat} {part : Changes}
    (hposition : position ≠ index)
    (hpart : Part context entity declaration (trailTo root place) span position part)
    (hchange : change ∈ part) : ¬ Touched root path change.1 := by
  have hhere := not_starts_above hpath
  have hencloses : Opened span → ¬ Encloses root path place :=
    fun opened => opened.not_encloses hplace.descendant?
  cases hpart with
  | goes step revised =>
      obtain ⟨below, inner, visited, _, hvisits, heffect⟩ := revise_caused revised hchange
      have hbelow := hplace.append (.step step hvisits)
      rw [← Trail.down_cons step.stands, trailTo, ← Trail.down_append hplace.descendant?]
        at heffect
      apply hdetach.not_touched hbelow _ _ heffect
      · rw [hpath, List.prefix_append_right_inj, List.cons_prefix_cons]
        exact fun hboth => hposition hboth.1.symm
      · rintro ⟨hway, _⟩
        rw [hpath, List.prefix_append_right_inj, List.cons_prefix_cons] at hway
        exact hposition hway.1
  | trimmed opened stands declares found unkept =>
      have heffect : Effect context entity declaration (trailTo root place) span change :=
        .trimmed opened stands declares found unkept hchange
      exact hdetach.not_touched hplace hhere (hencloses opened) heffect
  | stubbed opened stands declares found _ bodiless =>
      have heffect : Effect context entity declaration (trailTo root place) span change :=
        .stubbed opened stands declares found bodiless hchange
      exact hdetach.not_touched hplace hhere (hencloses opened) heffect
  | nothing => cases hchange

theorem Detachable.beside_eq {position : Nat} {trail : Trail} (hposition : position ≠ index)
    (hstep : Step context declaration span position child next) :
    revise (context.unbind target.node.id) entity next trail child =
      revise context entity next trail child := by
  refine revise_unbind fun below inner visited hvisits hid => ?_
  have hbelow := hplace.append (.step hstep hvisits)
  have hsame := hdetach.distinct _ visited hbelow.descendant? hid
  rw [hpath, List.append_right_inj, List.cons.injEq] at hsame
  exact hposition hsame.1

theorem Detachable.bound_above :
    (context.unbind target.node.id).surface.entityForNode span.node =
      context.surface.entityForNode span.node := by
  refine Surface.entityForNode_unbind fun hid => ?_
  have hself := hdetach.distinct _ _ hplace.descendant? hid
  simp [hpath] at hself

private theorem Detachable.gather_children (opened : Opened span)
    (goes : Step context declaration span index child next)
    (hinside : Continues context entity root path target.node.id next
      ((trailTo root place).step span index) child)
    (h : gather (fun index previous next child => childChanges context entity declaration
        ((trailTo root place).child span index previous next) child) 0 none span.children =
      .ok changes) :
    ∃ other, gather (fun index previous next child =>
        childChanges (context.unbind target.node.id) entity declaration
          ((trailTo root place).child span index previous next) child) 0 none span.children =
        .ok other ∧ Agree root path changes other := by
  refine gather_related (Agree root path) .nil .append ?_ h
  intro position sibling part stands hpart
  rw [Nat.zero_add] at hpart ⊢
  by_cases hposition : position = index
  · subst hposition
    obtain rfl := Option.some.inj (goes.stands.symm.trans stands)
    obtain ⟨hsame, hsame'⟩ := goes.childChanges_eq opened hpart
    rw [hsame] at hpart
    rw [hsame']
    exact hinside part hpart
  · rw [childChanges_unbind opened stands
      fun next hstep => hdetach.beside_eq hplace hpath hposition hstep]
    exact ⟨part, hpart, .of_untouched fun change hmem =>
      hdetach.part_untouched hplace hpath hposition
        (childChanges_part opened stands hpart) hmem⟩

private theorem Detachable.gather_arguments {source : Text} {bounds : Option (Nat × Nat)}
    (takes : TakesArgument context.surface span index)
    (bracketed : argumentBounds source span = .ok bounds)
    (goes : Step context declaration span index child next)
    (hinside : Continues context entity root path target.node.id next
      ((trailTo root place).step span index) child)
    (h : gather (fun index previous next child =>
        if (bounds.map fun bounds => decide (bounds.1 < index && index < bounds.2)).getD
            false then
          argumentChanges context entity declaration
            ((trailTo root place).child span index previous next) child
        else pure []) 0 none span.children = .ok changes) :
    ∃ other, gather (fun index previous next child =>
        if (bounds.map fun bounds => decide (bounds.1 < index && index < bounds.2)).getD
            false then
          argumentChanges (context.unbind target.node.id) entity declaration
            ((trailTo root place).child span index previous next) child
        else pure []) 0 none span.children = .ok other ∧ Agree root path changes other := by
  refine gather_related (Agree root path) .nil .append ?_ h
  intro position sibling part stands hpart
  simp only [Nat.zero_add] at hpart ⊢
  split at hpart
  · rename_i hbetween
    rw [if_pos hbetween]
    by_cases hposition : position = index
    · subst hposition
      obtain rfl := Option.some.inj (goes.stands.symm.trans stands)
      rw [goes.argumentChanges_eq takes.kind] at hpart ⊢
      exact hinside part hpart
    · have htakes : TakesArgument context.surface span position :=
        ⟨takes.kind, takes.bound, (isArgument_iff_between bracketed).mpr hbetween⟩
      rw [argumentChanges_unbind htakes stands
        fun next hstep => hdetach.beside_eq hplace hpath hposition hstep]
      exact ⟨part, hpart, .of_untouched fun change hmem =>
        hdetach.part_untouched hplace hpath hposition
          (argumentChanges_part htakes stands hpart) hmem⟩
  · rename_i houtside
    rw [if_neg houtside]
    cases hpart
    exact ⟨[], rfl, .nil⟩

private theorem Detachable.continues_opened (opened : Opened span)
    (goes : Step context declaration span index child next)
    (hinside : Continues context entity root path target.node.id next
      ((trailTo root place).step span index) child) :
    Continues context entity root path target.node.id declaration (trailTo root place)
      span := by
  intro changes h
  rw [revise_opened opened] at h ⊢
  simp only [bind_eq_ok, pure_eq_ok] at h ⊢
  obtain ⟨own, hown, inner, hinner, rfl⟩ := h
  have huntouched : Agree root path own own := .of_untouched fun change hmem =>
    hdetach.not_touched hplace (not_starts_above hpath)
      (opened.not_encloses hplace.descendant?) (.own (.opened opened hown hmem))
  have hown' : ownChanges (context.unbind target.node.id) entity declaration
      (trailTo root place) span span.kind = .ok own := by
    rw [← hown]
    simp only [ownChanges, renameIdentifier, hdetach.bound_above hplace hpath]
  obtain ⟨inner', hinner', hagree⟩ :=
    hdetach.gather_children hplace hpath opened goes hinside hinner
  exact ⟨_, ⟨own, hown', inner', hinner', rfl⟩, huntouched.append hagree⟩

theorem Detachable.continues_argument (takes : TakesArgument context.surface span index)
    (goes : Step context declaration span index child next)
    (hinside : Continues context entity root path target.node.id next
      ((trailTo root place).step span index) child) :
    Continues context entity root path target.node.id declaration (trailTo root place)
      span := by
  intro changes h
  rw [revise_importType takes.kind] at h ⊢
  obtain ⟨imported, himported⟩ := takes.bound
  rw [himported, ok_bind, Option.elim_some] at h
  rw [hdetach.bound_above hplace hpath, himported, ok_bind, Option.elim_some]
  simp only [bind_eq_ok, pure_eq_ok] at h ⊢
  obtain ⟨name, hname, bounds, hbounds, inner, hinner, arguments, harguments, rfl⟩ := h
  obtain ⟨inner', hinner', hagree⟩ :=
    hdetach.gather_arguments hplace hpath takes hbounds goes hinside hinner
  -- The outer import type writes another text, but at its own address as before.
  obtain ⟨arguments', harguments'⟩ := exists_argumentsText hagree.joined harguments
  have hencloses : Encloses root path place :=
    ⟨hpath ▸ List.prefix_append _ _, span, hplace.descendant?, takes.kind⟩
  rw [path_trailTo hplace.descendant?] at harguments' ⊢
  exact ⟨_, ⟨name, hname, bounds, hbounds, inner', hinner', arguments', harguments', rfl⟩,
    hagree.append (.of_replaceWhole hencloses _ _)⟩

end Way

theorem Detachable.continues {place : Path}
    (hdetach : Detachable context outer root path target)
    (hplace : Visits context outer root place declaration span)
    (hrest : Visits context declaration span rest last target) (hpath : path = place ++ rest) :
    Continues context entity root path target.node.id declaration (trailTo root place)
      span := by
  -- The induction goes down the way to the import type; all other children stay the same.
  induction rest generalizing place declaration span with
  | nil =>
      intro changes h
      cases hrest
      rw [List.append_nil] at hpath
      subst hpath
      -- Unbound, the import type is left alone; bound, it changes nothing outside of itself.
      refine ⟨[], ?_, .of_inside fun change hmem => ?_⟩
      · rw [revise_importType hdetach.kind, surface_unbind, Surface.entityForNode_unbind_self rfl]
        rfl
      · obtain ⟨below, inner, visited, _, hvisits, heffect⟩ := revise_caused h hmem
        rw [trailTo, ← Trail.down_append hplace.descendant?] at heffect
        exact hdetach.inside (hplace.append hvisits) (List.prefix_append _ _) heffect
  | cons index rest ih =>
      cases hrest with
      | @step _ next _ _ child _ _ _ goes hbelow =>
          have hinside : Continues context entity root path target.node.id next
              ((trailTo root place).step span index) child := by
            rw [← trailTo_concat hplace.descendant? goes.stands]
            exact ih (hplace.concat goes) hbelow (by simpa using hpath)
          rcases goes.goes with hopened | htakes
          · exact hdetach.continues_opened hplace hpath hopened goes hinside
          · exact hdetach.continues_argument hplace hpath htakes goes hinside

end Rollup

end ApiSurface
