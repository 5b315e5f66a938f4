import ApiSurface.Proofs.Emit.Arguments
import ApiSurface.Proofs.Emit.Pages
import ApiSurface.Proofs.Rollup.Unbinding
import ApiSurface.Proofs.Surface.Plain
import ApiSurface.Proofs.Tree.Sources

/-!
# Import types in a rollup

An import type that is bound to an import is written as the name of the import, the rest of
the qualifier, and the arguments.  It takes the place of its own text and of the gap after
it.  Everything else is written as if the import type were bound to nothing.
-/

namespace ApiSurface

namespace Span

theorem renderAll_congr {edits other : Edits} {start : Nat} {spans : List Span}
    (h : ∀ index (child : Span), spans[index]? = some child →
      child.render (edits.below (start + index)) = child.render (other.below (start + index))) :
    renderAll edits start spans = renderAll other start spans := by
  induction spans generalizing start with
  | nil => rfl
  | cons first rest ih =>
      rw [renderAll, renderAll, ih fun index child hchild => ?_]
      · rw [← Nat.add_zero start, h 0 first rfl]
      · have hrest := h (index + 1) child (by simpa using hchild)
        rwa [← Nat.add_assoc, Nat.add_right_comm] at hrest

theorem text_of_laid {source gap : Text} {span : Span}
    (hlaid : span = layoutWith source gap span.node) (hfits : Fits source span.node) :
    span.text = span.node.text source ++ gap := by
  have htext := text_layoutWith source gap span.node hfits
  rwa [← hlaid, ← Text.slice_eq_between hfits.start_nonneg hfits.start_le_stop] at htext

/-! ## Addresses of nodes -/

theorem OfNode.mem_walk {source : Text} {span inner : Span} {path : Path}
    (h : OfNode source span) (hinner : span.descendant? path = some inner) :
    inner.node ∈ span.node.walk := by
  induction path generalizing span with
  | nil =>
      cases hinner
      exact Node.mem_walk_self _
  | cons index path ih =>
      obtain ⟨child, hchild, hinner⟩ := Option.bind_eq_some_iff.mp hinner
      obtain ⟨hnodes, hspans⟩ := h.children
      have hmem := List.mem_of_getElem? hchild
      apply Node.mem_walk_of_mem_children _ (ih (hspans child hmem) hinner)
      rw [← hnodes]
      exact List.mem_map_of_mem hmem

theorem OfNode.id_ne_below {source : Text} {span inner : Span} {index : Nat} {path : Path}
    (h : OfNode source span) (hdistinct : (span.node.walk.map Node.id).Nodup)
    (hinner : span.descendant? (index :: path) = some inner) :
    span.node.id ≠ inner.node.id := by
  obtain ⟨child, hchild, hinner⟩ := Option.bind_eq_some_iff.mp hinner
  obtain ⟨hnodes, hspans⟩ := h.children
  have hmem := List.mem_of_getElem? hchild
  rw [Node.walk_eq, List.map_cons, List.nodup_cons] at hdistinct
  intro hid
  refine hdistinct.1 (hid ▸ List.mem_map_of_mem (Node.mem_walkAll.mpr ⟨child.node, ?_,
    (hspans child hmem).mem_walk hinner⟩))
  rw [← hnodes]
  exact List.mem_map_of_mem hmem

theorem OfNode.id_ne_beside {source : Text} {span one other : Span} {index position : Nat}
    {first second : Path} (h : OfNode source span)
    (hdistinct : (span.node.walk.map Node.id).Nodup)
    (hone : span.descendant? (index :: first) = some one)
    (hother : span.descendant? (position :: second) = some other) (hne : index ≠ position) :
    one.node.id ≠ other.node.id := by
  obtain ⟨child, hchild, hone⟩ := Option.bind_eq_some_iff.mp hone
  obtain ⟨child', hchild', hother⟩ := Option.bind_eq_some_iff.mp hother
  obtain ⟨hnodes, hspans⟩ := h.children
  rw [Node.walk_eq, List.map_cons, List.nodup_cons, Node.walkAll_eq_flatMap,
    List.map_flatMap, List.nodup_flatMap, ← hnodes, List.pairwise_map] at hdistinct
  have hin : one.node.id ∈ child.node.walk.map Node.id :=
    List.mem_map_of_mem ((hspans child (List.mem_of_getElem? hchild)).mem_walk hone)
  have hin' : other.node.id ∈ child'.node.walk.map Node.id :=
    List.mem_map_of_mem ((hspans child' (List.mem_of_getElem? hchild')).mem_walk hother)
  obtain ⟨hindex, rfl⟩ := List.getElem?_eq_some_iff.mp hchild
  obtain ⟨hposition, rfl⟩ := List.getElem?_eq_some_iff.mp hchild'
  have hamong := List.pairwise_iff_getElem.mp hdistinct.2.2
  intro hid
  rcases Nat.lt_or_gt_of_ne hne with hlt | hlt
  · exact hamong index position hindex hposition hlt hin (hid ▸ hin')
  · exact hamong position index hposition hindex hlt hin' (hid ▸ hin)

theorem OfNode.address_unique {source : Text} {span one other : Span} {first second : Path}
    (h : OfNode source span) (hdistinct : (span.node.walk.map Node.id).Nodup)
    (hfirst : span.descendant? first = some one) (hsecond : span.descendant? second = some other)
    (hid : one.node.id = other.node.id) : first = second := by
  induction first generalizing span second with
  | nil =>
      cases second with
      | nil => rfl
      | cons position second =>
          cases hfirst
          exact absurd hid (h.id_ne_below hdistinct hsecond)
  | cons index first ih =>
      cases second with
      | nil =>
          cases hsecond
          exact absurd hid.symm (h.id_ne_below hdistinct hfirst)
      | cons position second =>
          by_cases hposition : index = position
          · subst hposition
            obtain ⟨child, hchild, hone⟩ := Option.bind_eq_some_iff.mp hfirst
            rw [descendant?_cons hchild] at hsecond
            obtain ⟨hnodes, hspans⟩ := h.children
            have hmem := List.mem_of_getElem? hchild
            rw [Node.walk_eq, List.map_cons, List.nodup_cons, Node.walkAll_eq_flatMap,
              List.map_flatMap, List.nodup_flatMap, ← hnodes] at hdistinct
            have hown := hdistinct.2.1 child.node (List.mem_map_of_mem hmem)
            rw [ih (hspans child hmem) hown hone hsecond]
          · exact absurd hid (h.id_ne_beside hdistinct hfirst hsecond hposition)

end Span

def Entity.isTypeImport (entity : Entity) : Bool :=
  match entity.subject with
  | .imported _ origin => origin.kind = .importType && origin.exportName.present
  | .symbol _ _ => false

namespace Emit

variable {edits other : Edits} {span : Span} {path : Path} {source : Text}

theorem argumentList_congr (h : ∀ argument ∈ argumentsOf span,
      argumentText edits argument = argumentText other argument) :
    argumentList edits span = argumentList other span := by
  rw [argumentList, argumentList, List.map_congr_left h]

private theorem isSome_argumentBounds {bounds : Option (Nat × Nat)}
    (h : argumentBounds source span = .ok bounds) :
    bounds.isSome = true ↔ .lessThanToken ∈ span.children.map Span.kind := by
  unfold argumentBounds at h
  simp only at h
  split at h
  · split at h
    · rename_i less greater hless hgreater
      split at h
      · cases h
        have hmem : NodeKind.lessThanToken ∈ span.children.map Span.kind :=
          List.isSome_idxOf?.mp (by rw [hless]; rfl)
        simpa using hmem
      · cases h
    · cases h
  · rename_i hnone
    cases h
    simp_all

theorem argumentsText_eq {changes : Changes} {bounds : Option (Nat × Nat)} {arguments : Text}
    (bracketed : argumentBounds source span = .ok bounds)
    (h : argumentsText changes path span bounds = .ok arguments) :
    arguments = argumentList (changes.edits.within path) span := by
  have hless := isSome_argumentBounds bracketed
  cases bounds with
  | none =>
      cases h
      rw [argumentList, if_neg fun hmem => by cases hless.mpr hmem]
  | some brackets =>
      simp only [argumentsText, bind_eq_ok, pure_eq_ok] at h
      obtain ⟨texts, htexts, rfl⟩ := h
      rw [argumentTexts_eq htexts, argumentList, if_pos (hless.mp rfl), argumentsOf_eq bracketed]

theorem importTypeText_of_isTypeImport {imported : Entity} (h : imported.isTypeImport = true)
    (name : Datum) (node : Node) :
    importTypeText source imported name node [] =
      name.characters ++ nestedQualifier source node := by
  unfold Entity.isTypeImport at h
  cases hsubject : imported.subject with
  | imported label origin =>
      rw [hsubject] at h
      rw [importTypeText, hsubject]
      dsimp only
      rw [if_pos h, List.append_nil]
  | symbol label name =>
      rw [hsubject] at h
      cases h

end Emit

private theorem Surface.writtenName_eq_ok {entity : Entity} {name : Datum}
    (h : Surface.writtenName entity = .ok name) :
    name = entity.name := by
  unfold Surface.writtenName at h
  split at h
  · cases h
    rfl
  · simp only [bind_eq_ok] at h
    obtain ⟨_, _, hthrow⟩ := h
    cases hthrow

namespace Rollup

open Emit

variable {context : Context} {entity imported : Entity} {outer declaration inner : Declaration}
  {root span child target : Span} {path place rest : Path} {index : Nat}
  {changes other : Changes}

theorem edits_importType (h : revise context entity outer {} root = .ok changes)
    (hvisits : Visits context outer root path inner span) (hkind : span.kind = .importType)
    (hbound : context.surface.entityForNode span.node = .ok (some imported)) :
    ∃ nested : Changes, ∀ rest, changes.edits (path ++ rest) =
      Changes.edits (nested ++ replaceWhole path
        (importTypeText inner.site.file.text imported imported.name span.node
          (argumentList (nested.edits.within path) span))) (path ++ rest) := by
  obtain ⟨part, hpart, hedits⟩ := edits_of_secluded h hvisits (by rw [hkind]; rfl)
  rw [revise_importType hkind, hbound, ok_bind, Option.elim_some,
    path_trailTo hvisits.descendant?] at hpart
  simp only [bind_eq_ok, pure_eq_ok] at hpart
  obtain ⟨name, hname, bounds, hbounds, nested, _, arguments, harguments, rfl⟩ := hpart
  obtain rfl := Surface.writtenName_eq_ok hname
  rw [argumentsText_eq hbounds harguments] at hedits
  exact ⟨nested, hedits⟩

private theorem importType_omitted (h : revise context entity outer {} root = .ok changes)
    (hvisits : Visits context outer root path inner span) (hkind : span.kind = .importType)
    (hbound : context.surface.entityForNode span.node = .ok (some imported)) :
    (changes.edits path).omitChildren = true := by
  obtain ⟨nested, hedits⟩ := edits_importType h hvisits hkind hbound
  have hhere := hedits []
  rw [List.append_nil, edits_replaceWhole] at hhere
  rw [hhere]
  rfl

/-- A bound import type is drawn as the name of its import and the rest of its qualifier, with
its arguments, which are drawn with the edits of the whole declaration. -/
theorem importType_written (h : revise context entity outer {} root = .ok changes)
    (hvisits : Visits context outer root path inner span) (hkind : span.kind = .importType)
    (hbound : context.surface.entityForNode span.node = .ok (some imported)) :
    span.render (changes.edits.within path) =
      importTypeText inner.site.file.text imported imported.name span.node [] ++
        argumentList (changes.edits.within path) span := by
  obtain ⟨nested, hedits⟩ := edits_importType h hvisits hkind hbound
  rw [render_replaced hedits, importTypeText_append,
    argumentList_congr fun argument hmem => argumentText_replaced hedits hmem]

/-! ## With and without the binding -/

/-- The changes of a declaration with and without the binding of an import type. -/
structure Compared (context : Context) (entity : Entity) (outer : Declaration) (root : Span)
    (path : Path) (target : Span) (changes other : Changes) : Prop where
  detach : Detachable context outer root path target
  revised : revise context entity outer {} root = .ok changes
  unbound : revise (context.unbind target.node.id) entity outer {} root = .ok other
  agree : Agree root path changes other

theorem Detachable.exists_compared (hdetach : Detachable context outer root path target)
    (h : revise context entity outer {} root = .ok changes) :
    ∃ other, Compared context entity outer root path target changes other := by
  obtain ⟨last, hvisits⟩ := hdetach.visits
  obtain ⟨other, hother, hagree⟩ := hdetach.continues .here hvisits rfl changes h
  exact ⟨other, hdetach, h, hother, hagree⟩

namespace Compared

variable (h : Compared context entity outer root path target changes other)
include h

theorem render_beside {address : Path} (hbeside : Beside address path) (span : Span) :
    span.render (changes.edits.within address) = span.render (other.edits.within address) := by
  have hsame : changes.edits.within address = other.edits.within address := by
    funext below
    refine (h.agree.edits _).same ?_
    rintro (hinside | ⟨haround, _⟩)
    · rcases List.prefix_or_prefix_of_prefix hinside (List.prefix_append address below) with
        hway | hway
      · exact hbeside.2 hway
      · exact hbeside.1 hway
    · exact hbeside.1 ((List.prefix_append _ _).trans haround)
  rw [hsame]

/-- A span around the import type has the same edit, unless it is an import type itself. -/
theorem edits_around (hspan : root.descendant? place = some span)
    (hkind : span.kind ≠ .importType) (hpath : path = place ++ index :: rest) :
    changes.edits.within place [] = other.edits.within place [] := by
  rw [Edits.within, Edits.within, List.append_nil]
  refine (h.agree.edits place).same ?_
  rintro (hinside | ⟨_, found, hfound, hfoundKind⟩)
  · exact not_starts_above hpath hinside
  · obtain rfl := Option.some.inj (hspan.symm.trans hfound)
    exact hkind hfoundKind

theorem visits_around (hplace : Visits context outer root place inner span)
    (hway : place <+: path) :
    Visits (context.unbind target.node.id) outer root place inner span := by
  refine hplace.unbind fun front index back above hfront habove hid => ?_
  have hself := h.detach.distinct front above habove hid
  have hlength := hway.length_le
  simp [hfront, hself] at hlength

theorem written_around (hplace : Visits context outer root place inner span)
    (hkind : span.kind = .importType) (hpath : path = place ++ index :: rest)
    (hbound : ∃ imported, context.surface.entityForNode span.node = .ok (some imported)) :
    ∃ head, span.render (changes.edits.within place) =
        head ++ argumentList (changes.edits.within place) span ∧
      span.render (other.edits.within place) =
        head ++ argumentList (other.edits.within place) span := by
  obtain ⟨imported, hbound⟩ := hbound
  have hplace' := h.visits_around hplace ⟨_, hpath.symm⟩
  exact ⟨_, importType_written h.revised hplace hkind hbound,
    importType_written h.unbound hplace' hkind
      ((h.detach.bound_above hplace hpath).trans hbound)⟩

private theorem render_target : target.render (other.edits.within path) = target.text := by
  obtain ⟨last, hvisits⟩ := h.detach.visits
  have hnone : other.edits.within path = Edits.none := by
    funext below
    exact edits_of_unbound h.unbound (h.visits_around hvisits List.prefix_rfl) h.detach.kind
      (Surface.entityForNode_unbind_self rfl) below
  rw [hnone, Span.render, Span.draw_none]

theorem exists_step (hspan : root.descendant? place = some span)
    (hpath : path = place ++ index :: rest) :
    ∃ inner child next, Visits context outer root place inner span ∧
      Step context inner span index child next := by
  obtain ⟨last, hvisits⟩ := h.detach.visits
  obtain ⟨inner, found, hfirst, hrest⟩ := Visits.split (hpath ▸ hvisits)
  obtain rfl := Option.some.inj (hspan.symm.trans hfirst.descendant?)
  cases hrest with
  | step goes _ => exact ⟨inner, _, _, hfirst, goes⟩

theorem bound_around (hspan : root.descendant? place = some span)
    (hkind : span.kind = .importType) (hpath : path = place ++ index :: rest) :
    ∃ inner imported, Visits context outer root place inner span ∧
      context.surface.entityForNode span.node = .ok (some imported) := by
  obtain ⟨inner, _, _, hvisits, hstep⟩ := h.exists_step hspan hpath
  rcases hstep.goes with hopened | htakes
  · exact absurd hkind hopened.2
  · obtain ⟨imported, hbound⟩ := htakes.bound
    exact ⟨inner, imported, hvisits, hbound⟩

theorem renderAll_beside (span : Span) (hpath : path = place ++ index :: rest) :
    Span.renderAll (changes.edits.within place) 0 (span.children.take index) =
        Span.renderAll (other.edits.within place) 0 (span.children.take index) ∧
      Span.renderAll (changes.edits.within place) (index + 1) (span.children.drop (index + 1)) =
        Span.renderAll (other.edits.within place) (index + 1)
          (span.children.drop (index + 1)) := by
  have hbeside : ∀ position (child : Span), position ≠ index →
      child.render ((changes.edits.within place).below position) =
        child.render ((other.edits.within place).below position) := by
    intro position child hposition
    rw [Edits.below_within, Edits.below_within]
    refine h.render_beside ?_ child
    rw [hpath]
    exact .append_left place (.of_heads hposition)
  constructor
  · refine Span.renderAll_congr fun position child hchild => hbeside _ child ?_
    have hlength := (List.getElem?_eq_some_iff.mp hchild).1
    rw [List.length_take] at hlength
    omega
  · exact Span.renderAll_congr fun position child _ => hbeside _ child (by omega)

theorem framed {page : Page} (hspan : root.descendant? place = some span)
    (hpath : path = place ++ rest)
    (hframed : Framed (changes.edits.within place) span rest page) :
    Framed (other.edits.within place) span rest page := by
  -- The induction is on the page; the edits of all spans on the way are those of one walk.
  generalize hedits : changes.edits.within place = edits at hframed
  induction hframed generalizing place with
  | here => exact .here
  | @child _ span child index rest page shown inOrder stands _ ih =>
      subst hedits
      have hopened : span.kind ≠ .importType := by
        intro hkind
        obtain ⟨inner, imported, hvisits, hbound⟩ := h.bound_around hspan hkind hpath
        rw [Edits.within, List.append_nil,
          importType_omitted h.revised hvisits hkind hbound] at shown
        cases shown
      have hsame := h.edits_around hspan hopened hpath
      obtain ⟨hbefore, hafter⟩ := h.renderAll_beside span hpath
      have hinside := ih (descendant?_concat hspan stands) (by simpa using hpath)
        (Edits.below_within _ _ _).symm
      rw [← Edits.below_within] at hinside
      rw [hsame] at shown inOrder
      rw [Span.ending, hsame, hbefore, hafter]
      exact .child shown inOrder stands hinside
  | @argument _ span argument earlier later rest head page kind written listed _ ih =>
      subst hedits
      have hmem : argument ∈ argumentsOf span := by simp [listed]
      obtain ⟨first, below, haddress⟩ := address_of_argument hmem
      have hway : path = place ++ first :: (below ++ rest) := by rw [hpath, haddress]; rfl
      obtain ⟨inner, imported, hvisits, hbound⟩ := h.bound_around hspan kind hway
      obtain ⟨_, hwritten, hwritten'⟩ := h.written_around hvisits kind hway ⟨imported, hbound⟩
      obtain rfl := List.append_cancel_right (written.symm.trans hwritten)
      have hothers : ∀ one ∈ earlier ++ later, argumentText (changes.edits.within place) one =
          argumentText (other.edits.within place) one := by
        intro one hone
        have hbeside := ((beside_argument listed hone).append_right rest).append_left place
        rw [← hpath] at hbeside
        rw [argumentText, argumentText, Edits.within_within, Edits.within_within,
          h.render_beside hbeside]
      rw [List.map_congr_left fun one hone => hothers one (List.mem_append_left _ hone),
        List.map_congr_left fun one hone => hothers one (List.mem_append_right _ hone)]
      have htarget : root.descendant? (place ++ argument.1) = some argument.2 := by
        rw [Span.descendant?_append hspan, descendant?_argument hmem]
      have hinside := ih htarget (by rw [hpath, List.append_assoc])
        (Edits.within_within _ _ _).symm
      rw [← Edits.within_within] at hinside
      exact .argument kind hwritten' listed hinside

theorem unsorted (place : Path) : (changes.edits.within place []).sortChildren = false := by
  rw [Edits.within, List.append_nil]
  exact edits_unsorted h.revised place

private theorem render_opened (hspan : root.descendant? place = some span)
    (hkind : span.kind ≠ .importType) (hpath : path = place ++ index :: rest)
    (stands : span.children[index]? = some child)
    (hchild : (changes.edits.within place []).omitChildren = false →
      child.render (changes.edits.within (place ++ [index])) =
        child.render (other.edits.within (place ++ [index]))) :
    span.render (changes.edits.within place) = span.render (other.edits.within place) := by
  have hsame := h.edits_around hspan hkind hpath
  cases hshown : (changes.edits.within place []).omitChildren with
  | true =>
      rw [Span.render, Span.render, Span.draw_eq, Span.draw_eq, ← hsame, hshown]
      simp
  | false =>
      have hunsorted := h.unsorted place
      obtain ⟨hbefore, hafter⟩ := h.renderAll_beside span hpath
      rw [Span.render_eq hshown hunsorted,
        Span.render_eq (hsame ▸ hshown) (hsame ▸ hunsorted),
        Span.renderAll_split stands, Span.renderAll_split stands, Nat.zero_add,
        Edits.below_within, Edits.below_within, hbefore, hchild hshown, hafter, Span.ending,
        Span.ending, hsame]

private theorem render_importType (hspan : root.descendant? place = some span)
    (hkind : span.kind = .importType) (hpath : path = place ++ index :: rest)
    (harguments : ∀ argument ∈ argumentsOf span, argument.1 <+: index :: rest →
      argument.2.render (changes.edits.within (place ++ argument.1)) =
        argument.2.render (other.edits.within (place ++ argument.1))) :
    span.render (changes.edits.within place) = span.render (other.edits.within place) := by
  obtain ⟨inner, imported, hvisits, hbound⟩ := h.bound_around hspan hkind hpath
  obtain ⟨head, hwritten, hwritten'⟩ := h.written_around hvisits hkind hpath ⟨imported, hbound⟩
  rw [hwritten, hwritten', argumentList_congr fun argument hmem => ?_]
  rw [argumentText, argumentText, Edits.within_within, Edits.within_within]
  by_cases hway : argument.1 <+: index :: rest
  · rw [harguments argument hmem hway]
  · obtain ⟨last, hlast⟩ := h.detach.visits
    have htarget : span.descendant? (index :: rest) = some target := by
      rw [← Span.descendant?_append hspan, ← hpath, hlast.descendant?]
    have hbeside : Beside argument.1 (index :: rest) := by
      refine ⟨hway, fun hinside => ?_⟩
      have hself := eq_address_of_argument hmem htarget (by simp [h.detach.kind]) hinside
      exact hway (hself ▸ List.prefix_rfl)
    rw [h.render_beside (hpath ▸ hbeside.append_left place)]

theorem render_eq (hspan : root.descendant? place = some span) (hpath : path = place ++ rest)
    (hnone : ∀ page, ¬ Framed (changes.edits.within place) span rest page) :
    span.render (changes.edits.within place) = span.render (other.edits.within place) := by
  -- From an import type the way goes on at an argument, which may be a child of a child.
  induction hlength : rest.length using Nat.strong_induction_on
    generalizing place span rest with
  | _ length ih =>
      cases rest with
      | nil => exact absurd .here (hnone .blank)
      | cons index rest =>
          by_cases hkind : span.kind = .importType
          · refine h.render_importType hspan hkind hpath fun argument hmem hway => ?_
            obtain ⟨inner, imported, hvisits, hbound⟩ := h.bound_around hspan hkind hpath
            obtain ⟨below, hbelow⟩ := hway
            obtain ⟨_, _, haddress⟩ := address_of_argument hmem
            obtain ⟨earlier, later, listed⟩ := List.append_of_mem hmem
            have htarget : root.descendant? (place ++ argument.1) = some argument.2 := by
              rw [Span.descendant?_append hspan, descendant?_argument hmem]
            have hshorter : below.length < length := by
              rw [← hlength, ← hbelow, haddress]
              simp
            refine ih _ hshorter htarget (by rw [hpath, ← hbelow, List.append_assoc])
              (fun page hframed => ?_) rfl
            rw [← Edits.within_within] at hframed
            have hwhole := Framed.argument hkind
              (importType_written h.revised hvisits hkind hbound) listed hframed
            rw [hbelow] at hwhole
            exact hnone _ hwhole
          · obtain ⟨_, child, _, _, hstep⟩ := h.exists_step hspan hpath
            refine h.render_opened hspan hkind hpath hstep.stands fun hshown => ?_
            refine ih rest.length (by simp [← hlength]) (descendant?_concat hspan hstep.stands)
              (by simpa using hpath) (fun page hframed => ?_) rfl
            rw [← Edits.below_within] at hframed
            exact hnone _ (.child hshown (h.unsorted place) hstep.stands hframed)

end Compared

/-! ## Import types that are written anew -/

/-- An import type is written anew: its declaration has a body, the walk comes to it, and it
has a page around it in the text of the declaration. -/
structure Rewritten (context : Context) (outer : Declaration) (root : Span) (edits : Edits)
    (path : Path) (target : Span) (page : Page) : Prop where
  whole : context.surface.isStub outer = false
  visits : ∃ last, Visits context outer root path last target
  framed : Framed edits root path page

theorem Route.framed {front : Path} {chain : List Declaration} {trimmed : Bool}
    (hroute : Route context.surface span path true trimmed)
    (h : revise context entity outer {} root = .ok changes)
    (hvisits : Visits context outer root front declaration span)
    (hway : Way declaration span path chain target)
    (hwhole : ∀ member ∈ chain,
      context.plan.isKept member.id = true ∧ context.surface.isStub member = false)
    (hstays : ∀ address, address <+: front ++ path →
      ¬ GoesWithMember context outer root address) :
    (∃ last, Visits context outer root (front ++ path) last target) ∧
      ∃ page, Framed (changes.edits.within front) span path page := by
  generalize hrenamed : true = renamed at hroute
  induction hroute generalizing front declaration chain with
  | here =>
      cases hway
      exact ⟨⟨declaration, by rwa [List.append_nil]⟩, .blank, .here⟩
  | @opened span child index rest _ _ opened written stands _ ih =>
      obtain ⟨found, next, later, hstep, hbelow, hlater⟩ :=
        Rollup.exists_step hway (.inl opened) hwhole
      obtain rfl := Option.some.inj (stands.symm.trans hstep.stands)
      obtain ⟨⟨last, hlast⟩, page, hpage⟩ :=
        ih (hvisits.concat hstep) hbelow hlater (by simpa using hstays) hrenamed
      rw [← Edits.below_within] at hpage
      refine ⟨⟨last, by simpa using hlast⟩, _, .child ?_ ?_ stands hpage⟩
      · rw [Edits.within, List.append_nil]
        exact shown_of_opened h hvisits opened written (hstays front (List.prefix_append _ _))
      · rw [Edits.within, List.append_nil]
        exact edits_unsorted h front
  | @argument span argument rest _ _ kind bound listed _ ih =>
      obtain ⟨next, later, hnext, hbelow, hlater⟩ :=
        visits_argument hvisits kind bound listed hway hwhole
      obtain ⟨⟨last, hlast⟩, page, hpage⟩ :=
        ih hnext hbelow hlater (by simpa using hstays) hrenamed
      rw [← Edits.within_within] at hpage
      obtain ⟨imported, himported⟩ := bound
      obtain ⟨earlier, others, hlisted⟩ := List.append_of_mem listed
      have hwritten := importType_written h hvisits kind himported
      exact ⟨⟨last, by simpa using hlast⟩, _, .argument kind hwritten hlisted hpage⟩
  | unbound => cases hrenamed

theorem Compared.fill {page : Page} {source gap : Text}
    (h : Compared context entity outer root path target changes other)
    (hvisits : Visits context outer root path inner target)
    (hframed : Framed changes.edits root path page)
    (hbound : context.surface.entityForNode target.node = .ok (some imported))
    (himport : imported.isTypeImport = true) (hsource : inner.site.file.text = source)
    (hlaid : target = Span.layoutWith source gap target.node)
    (hfits : Span.Fits source target.node) :
    Framed other.edits root path page ∧
      root.render changes.edits = page.fill (imported.name.characters ++
        nestedQualifier source target.node ++
          argumentList (changes.edits.within path) target) ∧
      root.render other.edits = page.fill (target.node.text source ++ gap) := by
  have hframed' : Framed (other.edits.within []) root path page := h.framed rfl rfl hframed
  have hwhole : root.render (other.edits.within []) = _ :=
    hframed'.render_eq hvisits.descendant?
  refine ⟨hframed', ?_, ?_⟩
  · rw [hframed.render_eq hvisits.descendant?,
      importType_written h.revised hvisits h.detach.kind hbound, hsource,
      importTypeText_of_isTypeImport himport]
  · rw [← Span.text_of_laid hlaid hfits, ← h.render_target]
    exact hwhole

theorem declarationChanges_unbind {id : Nat}
    (h : declarationChanges context entity outer = .ok (root, changes))
    (hrevise : context.surface.isStub outer = false →
      revise (context.unbind id) entity outer {} root = .ok other)
    (hstub : context.surface.isStub outer = true → other = changes) :
    declarationChanges (context.unbind id) entity outer = .ok (root, other) := by
  have hsame : (context.unbind id).surface.item outer.id = context.surface.item outer.id := rfl
  simp only [declarationChanges, hsame, bind_eq_ok] at h ⊢
  obtain ⟨span, hspan, item, hitem, h⟩ := h
  rw [Surface.isStub_eq hitem] at hrevise hstub
  refine ⟨span, hspan, item, hitem, ?_⟩
  cases hbody : item.isPreapproved with
  | true =>
      simp only [hbody, if_true, bind_eq_ok, pure_eq_ok, Prod.mk.injEq] at h ⊢
      rw [hstub hbody]
      exact h
  | false =>
      simp only [hbody, Bool.false_eq_true, if_false, bind_eq_ok, pure_eq_ok,
        Prod.mk.injEq] at h ⊢
      obtain ⟨_, _, rfl, _⟩ := h
      exact ⟨other, hrevise hbody, rfl, rfl⟩

/-- An import type of a declaration that is bound to a named import from a module, and nothing
that is taken out of the import type takes out what is around it. -/
structure BoundImport (context : Context) (outer : Declaration) (root : Span) (path : Path)
    (target : Span) (imported : Entity) : Prop where
  stands : root.descendant? path = some target
  kind : target.kind = .importType
  bound : context.surface.entityForNode target.node = .ok (some imported)
  named : imported.isTypeImport = true
  stays : ¬ TakesAround context outer root path
  fits : Span.Fits outer.site.file.text target.node

/-- What becomes of such an import type in the text of its declaration: `changes` are made with
the binding of the import type, and `untouched` are made without it. -/
structure Replaced (context : Context) (entity : Entity) (outer : Declaration) (root : Span)
    (path : Path) (target : Span) (imported : Entity) (changes untouched : Changes)
    (gap : Text) : Prop where
  unbound : declarationChanges (context.unbind target.node.id) entity outer =
    .ok (root, untouched)
  laid : target = Span.layoutWith outer.site.file.text gap target.node
  /-- On its page it takes the place of exactly its own text and the gap after it. -/
  written : ∀ page, Rewritten context outer root changes.edits path target page →
    Framed untouched.edits root path page ∧
    root.render changes.edits = page.fill (imported.name.characters ++
      nestedQualifier outer.site.file.text target.node ++
        argumentList (changes.edits.within path) target) ∧
    root.render untouched.edits = page.fill (target.node.text outer.site.file.text ++ gap)
  unwritten : (∀ page, ¬ Rewritten context outer root changes.edits path target page) →
    root.render changes.edits = root.render untouched.edits
  /-- It has a page if all members around it are kept with their bodies. -/
  reached : ∀ chain trimmed, context.surface.isStub outer = false →
    Way outer root path chain target → Route context.surface root path true trimmed →
    (∀ member ∈ chain,
      context.plan.isKept member.id = true ∧ context.surface.isStub member = false) →
    (∀ address, address <+: path → ¬ GoesWithMember context outer root address) →
    ∃ page, Rewritten context outer root changes.edits path target page

section Replacement

variable {gap : Text}

theorem exists_rewritten (h : declarationChanges context entity outer = .ok (root, changes)) :
    ∀ chain trimmed, context.surface.isStub outer = false →
      Way outer root path chain target → Route context.surface root path true trimmed →
      (∀ member ∈ chain,
        context.plan.isKept member.id = true ∧ context.surface.isStub member = false) →
      (∀ address, address <+: path → ¬ GoesWithMember context outer root address) →
      ∃ page, Rewritten context outer root changes.edits path target page := by
  intro chain trimmed hwhole hway hroute hmembers hremains
  obtain ⟨-, -, hrevise⟩ := declarationChanges_eq_ok h
  obtain ⟨hvisits, page, hframed⟩ :=
    hroute.framed (hrevise hwhole) .here hway hmembers hremains
  exact ⟨page, hwhole, hvisits, hframed⟩

variable (h : BoundImport context outer root path target imported)
  (hchanges : declarationChanges context entity outer = .ok (root, changes))
  (hlaid : target = Span.layoutWith outer.site.file.text gap target.node)
  (hdistinct : ∀ address other, root.descendant? address = some other →
    other.node.id = target.node.id → address = path)
include h hchanges hlaid hdistinct

theorem BoundImport.replaced_of_visits (hwhole : context.surface.isStub outer = false)
    (hvisits : Visits context outer root path inner target)
    (hfile : inner.site.file = outer.site.file) :
    ∃ untouched, Replaced context entity outer root path target imported changes untouched
      gap := by
  obtain ⟨-, -, hrevise⟩ := declarationChanges_eq_ok hchanges
  have hdetach : Detachable context outer root path target :=
    ⟨⟨inner, hvisits⟩, h.kind, hdistinct, h.stays⟩
  obtain ⟨untouched, hcompared⟩ := hdetach.exists_compared (hrevise hwhole)
  refine ⟨untouched, ?_, hlaid, fun page hpage => ?_, fun hnone => ?_,
    exists_rewritten hchanges⟩
  · refine declarationChanges_unbind hchanges (fun _ => hcompared.unbound) fun hstub => ?_
    rw [hwhole] at hstub
    cases hstub
  · exact hcompared.fill hvisits hpage.framed h.bound h.named (by rw [hfile]) hlaid h.fits
  · have hsame : root.render (changes.edits.within []) =
        root.render (untouched.edits.within []) :=
      hcompared.render_eq rfl rfl fun page hframed =>
        hnone page ⟨hwhole, ⟨inner, hvisits⟩, hframed⟩
    exact hsame

/-- Where the walk does not come to the import type, its binding is never looked up. -/
theorem BoundImport.replaced_of_not_visits (hunvisited : ¬ (context.surface.isStub outer = false ∧
      ∃ last, Visits context outer root path last target)) :
    Replaced context entity outer root path target imported changes changes gap := by
  obtain ⟨-, -, hrevise⟩ := declarationChanges_eq_ok hchanges
  refine ⟨?_, hlaid, fun page hpage => ?_, fun _ => rfl, exists_rewritten hchanges⟩
  · refine declarationChanges_unbind hchanges (fun hwhole => ?_) fun _ => rfl
    rw [revise_unbind fun address inner found hvisits hid => ?_]
    · exact hrevise hwhole
    · have hself := hdistinct address found hvisits.descendant? hid
      subst hself
      obtain rfl := Option.some.inj (h.stands.symm.trans hvisits.descendant?)
      exact hunvisited ⟨hwhole, inner, hvisits⟩
  · exact absurd ⟨hpage.whole, hpage.visits⟩ hunvisited

end Replacement

end Rollup

/-! ## Files of members -/

theorem Inventory.Forest.file_of_member {graph : ModuleGraph} {inventory : Inventory}
    (h : inventory.Forest graph) {declaration member : Declaration}
    (hdeclaration : declaration ∈ inventory.allDeclarations)
    (hmember : member ∈ declaration.members) :
    member.site.file = declaration.site.file := by
  obtain ⟨outer, houter, hinner⟩ := Declaration.mem_walkAll.mp hdeclaration
  obtain ⟨_, _, _, _, _, site, _, hdeclares⟩ := h.exists_site houter
  obtain ⟨_, below⟩ := hdeclares
  rw [Declaration.walk, List.mem_cons] at hinner
  rcases hinner with rfl | hinner
  · exact (below.located member (Declaration.mem_walkAll.mpr
      ⟨member, hmember, Declaration.mem_walk_self member⟩)).1
  · rw [(below.located _ (Declaration.mem_walkAll_member hinner hmember)).1,
      (below.located _ hinner).1]

theorem Rollup.Visits.file {context : Rollup.Context} {graph : ModuleGraph}
    {inventory : Inventory} {outer inner : Declaration} {root span : Span} {path : Path}
    (hforest : inventory.Forest graph) (houter : outer ∈ inventory.allDeclarations)
    (h : Rollup.Visits context outer root path inner span) :
    inner.site.file = outer.site.file := by
  have hmember : ∀ {declaration member : Declaration} {node : Node},
      Surface.member declaration node = .ok member → member ∈ declaration.members := by
    intro declaration member node hfound
    unfold Surface.member at hfound
    split at hfound
    · rename_i hmember
      cases hfound
      exact List.mem_of_find?_eq_some hmember
    · cases hfound
  induction h with
  | here => rfl
  | step goes _ ih =>
      cases goes with
      | through => exact ih houter
      | argument => exact ih houter
      | member _ _ _ found =>
          have hbelow := hmember found
          rw [ih (Declaration.mem_walkAll_member houter hbelow),
            hforest.file_of_member houter hbelow]
      | declared _ _ _ found =>
          have hbelow := hmember found
          rw [ih (Declaration.mem_walkAll_member houter hbelow),
            hforest.file_of_member houter hbelow]

open Emit Rollup

/-- In the text of every kept declaration, every import type that is bound to a named import
from a module takes the place of exactly its own text and the gap after it, or the text is what
it would be if the import type were bound to nothing.  The first is the case if the walk comes
to the import type and there is a page around it, and so if all members around it are kept with
their bodies. -/
theorem rollup_replaces_import_types {graph : ModuleGraph} {router : Router} {surface : Surface}
    {plan : TrimPlan} {omitComments : Bool} {newline : Newline} {document : Text}
    (hanalyze : Surface.analyze graph router = .ok surface)
    (hrollup : surface.rollup plan omitComments newline = .ok document) :
    ∃ raw kind, newline.ending? = some kind ∧
      document = Text.convertNewlines kind raw ∧
      ∀ entity ∈ surface.entities, ∀ outer ∈ surface.declarationsOfEntity entity,
        plan.isKept outer.id = true → (outer.node.walk.map Node.id).Nodup →
          ∃ root changes,
            declarationChanges ⟨surface, plan, omitComments⟩ entity outer =
              .ok (root, changes) ∧
            Text.line (root.render changes.edits) <:+: raw ∧
            (∀ node ∈ outer.node.walk, ∃ path target,
              root.descendant? path = some target ∧ target.node = node) ∧
            ∀ path target imported,
              BoundImport ⟨surface, plan, omitComments⟩ outer root path target imported →
              ∃ untouched gap, Replaced ⟨surface, plan, omitComments⟩ entity outer root path
                target imported changes untouched gap := by
  obtain ⟨raw, kind, hkind, rfl, -, hcomposed⟩ := rollup_composed hanalyze hrollup
  refine ⟨raw, kind, hkind, rfl, ?_⟩
  intro entity hentity outer houter hkept hids
  obtain ⟨root, changes, hchanges, hinside⟩ := hcomposed.written hentity houter hkept
  obtain ⟨hroot, -⟩ := declarationChanges_eq_ok hchanges
  obtain ⟨hspan, hnode⟩ := Span.ofNode_spec hroot
  refine ⟨root, changes, hchanges, hinside, hnode ▸ hspan.exists_address, ?_⟩
  intro path target imported himport
  have hdistinct : ∀ address other, root.descendant? address = some other →
      other.node.id = target.node.id → address = path := fun address other hother hid =>
    hspan.address_unique (hnode ▸ hids) hother himport.stands hid
  obtain ⟨gap, hlaid⟩ := hspan.descendant himport.stands
  by_cases hvisited : surface.isStub outer = false ∧
      ∃ last, Visits ⟨surface, plan, omitComments⟩ outer root path last target
  · obtain ⟨hwhole, last, hvisits⟩ := hvisited
    obtain ⟨_, _, _, hsteps⟩ := Surface.analyze_steps hanalyze
    have hfile := Visits.file (Inventory.ofGraph_forest hsteps.declared)
      (Surface.mem_allDeclarations_of_entity houter) hvisits
    obtain ⟨untouched, hreplaced⟩ :=
      himport.replaced_of_visits hchanges hlaid hdistinct hwhole hvisits hfile
    exact ⟨untouched, gap, hreplaced⟩
  · exact ⟨changes, gap, himport.replaced_of_not_visits hchanges hlaid hdistinct hvisited⟩

/-- An import type with a qualifier, followed by a gap, in the argument of another one. -/
def innerImport : Node :=
  .mk .importType 26 39 11 .null [.mk .qualifiedName 36 39 12 .null []]

def importInterface : Node :=
  .mk .interfaceDeclaration 0 43 1 .null
    [.mk .interfaceKeyword 0 9 2 .null [], .mk .identifier 10 11 3 .null [],
    .mk .propertySignature 12 43 4 .null
      [.mk .identifier 12 13 5 .null [],
      .mk .importType 14 43 6 .null
        [.mk .identifier 24 25 7 .null [], .mk .lessThanToken 25 26 8 .null [],
        .mk .syntaxList 26 42 9 .null
          [.mk .typeNode 26 42 10 .null
            [innerImport, .mk .punctuation 40 41 13 .null [], .mk .identifier 41 42 14 .null []]],
        .mk .greaterThanToken 42 43 15 .null []]]]

def importFile : SourceFile where
  path := .text "index.d.ts"
  text := "interface A x:import(m).Q<import(n).R.S |B>".toList
  root := .mk .sourceFile 0 43 0 .null [importInterface]

def importPackage : ModuleGraph where
  packageName := .text "imports"
  files := [importFile]
  symbols := [{ key := .text "A"
                localName := .text "A"
                declarations := [⟨importFile, [importFile.root], importInterface⟩] }]
  imports :=
    [{ key := .text "I", source :=
        { kind := .importType, modulePath := .text "m", exportName := .text "Q" } },
    { key := .text "J", source :=
        { kind := .importType, modulePath := .text "n", exportName := .text "R.S" } }]
  bindings := [(6, .text "I"), (11, .text "J")]
  exports := [(.text "A", .text "A")]
  docFlags := [(1, { releaseTag := .public })]

private theorem fits_innerImport : Span.Fits importFile.text innerImport := by
  refine ⟨?_, ?_, by decide, by decide⟩
  · exact (Node.checkPlacement_decides innerImport).elim And.right fun ⟨⟨_, hdefect⟩, _⟩ => by
      cases hdefect
  · simp [innerImport, Node.walk, Node.walkAll, Node.start, Node.stop]

theorem importPackage_run : (do
    let surface ← Surface.analyze importPackage {}
    let plan ← TrimPlan.make surface .public
    let document ← surface.rollup plan true ⟨.text "lf", .lf⟩
    let entity ← pick surface.entities 0
    let outer ← pick (surface.declarationsOfEntity entity) 0
    let made ← declarationChanges ⟨surface, plan, true⟩ entity outer
    let unmade ← declarationChanges (Context.unbind ⟨surface, plan, true⟩ 11) entity outer
    let property ← pick made.1.children 2
    let importType ← pick property.children 1
    let list ← pick importType.children 2
    let item ← pick list.children 0
    let target ← pick item.children 0
    let owner ← Surface.member outer property.node
    let around ← surface.entityForNode importType.node
    let bound ← surface.entityForNode target.node
    let imported ← pick bound.toList 0
    pure (document, made.1.render made.2.edits, unmade.1.render unmade.2.edits,
      [made.1, property, importType, list, item].map Span.kind,
      importType.children.map Span.kind, outer.node, outer.site.file.text, target.node,
      target.text, target.children.map Span.kind,
      [outer, owner].map fun declaration : Declaration =>
        (plan.isKept declaration.id, surface.isStub declaration),
      around.isSome, imported.name.characters ++ nestedQualifier importFile.text target.node,
      imported.isTypeImport)) =
      .ok (("import \x7b Q \x7d from 'm';\nimport \x7b R \x7d from 'n';\n\n" ++
          "export declare interface A x:Q<R.S|B>\n\nexport \x7b \x7d\n").toList,
        "export declare interface A x:Q<".toList ++ "R.S".toList ++ "|B>".toList,
        "export declare interface A x:Q<".toList ++ innerImport.text importFile.text ++
          " |B>".toList,
        [.interfaceDeclaration, .propertySignature, .importType, .syntaxList, .typeNode],
        [.identifier, .lessThanToken, .syntaxList, .greaterThanToken],
        importInterface, importFile.text, innerImport, "import(n).R.S ".toList,
        [.qualifiedName], [(true, false), (true, false)], true, "R.S".toList, true) := by
  cbv

theorem rollup_replaces_import_types_nested :
    ∃ surface plan document entity outer root changes untouched target page,
    Surface.analyze importPackage {} = .ok surface ∧
    TrimPlan.make surface .public = .ok plan ∧
    surface.rollup plan true ⟨.text "lf", .lf⟩ = .ok document ∧
    document = ("import \x7b Q \x7d from 'm';\nimport \x7b R \x7d from 'n';\n\n" ++
      "export declare interface A x:Q<R.S|B>\n\nexport \x7b \x7d\n").toList ∧
    entity ∈ surface.entities ∧ outer ∈ surface.declarationsOfEntity entity ∧
    declarationChanges ⟨surface, plan, true⟩ entity outer = .ok (root, changes) ∧
    declarationChanges (Context.unbind ⟨surface, plan, true⟩ 11) entity outer =
      .ok (root, untouched) ∧
    root.descendant? [2, 1, 2, 0, 0] = some target ∧ target.node = innerImport ∧
    Rewritten ⟨surface, plan, true⟩ outer root changes.edits [2, 1, 2, 0, 0] target page ∧
    root.render changes.edits = page.fill "R.S".toList ∧
    root.render untouched.edits = page.fill "import(n).R.S ".toList := by
  have hrun := importPackage_run
  simp only [bind_eq_ok, pure_eq_ok, pick_eq_ok, Prod.mk.injEq, List.map_cons, List.map_nil,
    List.cons.injEq, and_true] at hrun
  obtain ⟨surface, hanalyze, plan, hplan, document, hrollup, entity, hentity, outer, houter,
    ⟨root, changes⟩, hchanges, _, _, hrun⟩ := hrun
  obtain ⟨property, hproperty, importType, himportType, list, hlist, item, hitem, target, htarget,
    owner, howner, around, haround, bound, hbound, imported, himported, hrun⟩ := hrun
  obtain ⟨hdocument, _, _, ⟨hrootKind, hpropertyKind, himportKind, hlistKind, hitemKind⟩, hkinds,
    hnode, hsource, htargetNode, htext, htargetKinds,
    ⟨⟨houterKept, houterWhole⟩, hownerKept, hownerWhole⟩, hsome, hname, hnamed⟩ := hrun
  have hentity := List.mem_of_getElem? hentity
  have houter := List.mem_of_getElem? houter
  obtain rfl : bound = some imported := by simpa using List.mem_of_getElem? himported
  obtain ⟨name, rfl⟩ := Option.isSome_iff_exists.mp hsome
  have hkind : target.kind = .importType := by
    rw [Span.kind, htargetNode]
    rfl
  have hpath : root.descendant? [2, 1, 2, 0, 0] = some target := by
    simp [Span.descendant?, hproperty, himportType, hlist, hitem, htarget]
  -- There are no variables, statements or commas that could go with a member.
  have habsent : ∀ address found, root.descendant? address = some found →
      found.kind ≠ .variableDeclaration ∧ found.kind ≠ .variableStatement ∧
        found.kind ≠ .commaToken := by
    intro address found hfound
    obtain ⟨hroot, _, _⟩ := declarationChanges_eq_ok hchanges
    obtain ⟨hspan, hrootNode⟩ := Span.ofNode_spec hroot
    have hmem := hspan.mem_walk hfound
    rw [hrootNode, hnode] at hmem
    have hall : ∀ node ∈ importInterface.walk, node.kind ≠ .variableDeclaration ∧
        node.kind ≠ .variableStatement ∧ node.kind ≠ .commaToken := by
      decide
    exact hall found.node hmem
  have hstays : ¬ TakesAround ⟨surface, plan, true⟩ outer root [2, 1, 2, 0, 0] := by
    rintro ⟨_, child, _, hmeets, _, hvariable, _⟩
    exact (habsent _ child hmeets.descendant?).1 hvariable
  have hremains : ∀ address, address <+: [2, 1, 2, 0, 0] →
      ¬ GoesWithMember ⟨surface, plan, true⟩ outer root address := by
    intro address _ hgoes
    obtain ⟨found, hfound, hfoundKind⟩ := hgoes.kind
    exact hfoundKind.elim (habsent _ _ hfound).2.1 (habsent _ _ hfound).2.2
  have hway : Way outer root [2, 1, 2, 0, 0] [owner] target := by
    apply Way.member hproperty (by rw [hpropertyKind]; rfl) howner
    apply Way.through himportType (by rw [himportKind]; rfl)
    apply Way.through hlist (by rw [hlistKind]; rfl)
    apply Way.through hitem (by rw [hitemKind]; rfl)
    exact .through htarget (by rw [hkind]; rfl) .here
  have hlisted : ([2, 0], item) ∈ argumentsOf importType := by
    refine mem_argumentsOf.mpr ⟨2, list, ⟨1, 3, ?_, ?_, by omega, by omega⟩, hlist, ?_⟩
    · rw [hkinds]
      rfl
    · rw [hkinds]
      rfl
    · rw [if_pos hlistKind]
      exact mem_items.mpr ⟨0, hitem, by simp [hitemKind], rfl⟩
  have hroute : Route surface root [2, 1, 2, 0, 0] true true := by
    apply Route.opened (by simp [Opened, hrootKind]) (by rw [hrootKind]; rfl) hproperty
    apply Route.opened (by simp [Opened, hpropertyKind]) (by rw [hpropertyKind]; rfl) himportType
    apply Route.argument himportKind ⟨name, haround⟩ hlisted
    exact .opened (by simp [Opened, hitemKind]) (by rw [hitemKind]; rfl) htarget .here
  obtain ⟨raw, kind, _, _, hreplaced⟩ := rollup_replaces_import_types hanalyze hrollup
  obtain ⟨_, _, hchanges', _, _, hreplaced⟩ :=
    hreplaced entity hentity outer houter houterKept (by rw [hnode]; decide)
  obtain ⟨rfl, rfl⟩ := Prod.mk.inj (Except.ok.inj (hchanges.symm.trans hchanges'))
  have hfits : Span.Fits outer.site.file.text target.node := by
    rw [hsource, htargetNode]
    exact fits_innerImport
  obtain ⟨untouched, gap, hreplaced⟩ :=
    hreplaced [2, 1, 2, 0, 0] target imported ⟨hpath, hkind, hbound, hnamed, hstays, hfits⟩
  obtain ⟨page, hpage⟩ := hreplaced.reached [owner] true houterWhole hway hroute
    (by simp [hownerKept, hownerWhole]) hremains
  obtain ⟨_, hdrawn, hleft⟩ := hreplaced.written page hpage
  have hlist : argumentList (changes.edits.within [2, 1, 2, 0, 0]) target = [] := by
    rw [argumentList, htargetKinds, if_neg (by decide)]
  have hnew : imported.name.characters ++ nestedQualifier outer.site.file.text target.node ++
      argumentList (changes.edits.within [2, 1, 2, 0, 0]) target = "R.S".toList := by
    rw [hlist, hsource, hname, List.append_nil]
  rw [hnew] at hdrawn
  rw [← Span.text_of_laid hreplaced.laid hfits, htext] at hleft
  have huntouched := hreplaced.unbound
  rw [htargetNode] at huntouched
  exact ⟨surface, plan, document, entity, outer, root, changes, untouched, target, page,
    hanalyze, hplan, hrollup, hdocument, hentity, houter, hchanges, huntouched, hpath,
    htargetNode, hpage, hdrawn, hleft⟩

/-- The gap after an import type is lost with its text. -/
theorem rollup_loses_gap_after_import_type :
    ∃ surface plan document entity outer root changes untouched target imported before after,
    Surface.analyze importPackage {} = .ok surface ∧
    TrimPlan.make surface .public = .ok plan ∧
    surface.rollup plan true ⟨.text "lf", .lf⟩ = .ok document ∧
    document = ("import \x7b Q \x7d from 'm';\nimport \x7b R \x7d from 'n';\n\n" ++
      "export declare interface A x:Q<R.S|B>\n\nexport \x7b \x7d\n").toList ∧
    entity ∈ surface.entities ∧ outer ∈ surface.declarationsOfEntity entity ∧
    plan.isKept outer.id = true ∧
    declarationChanges ⟨surface, plan, true⟩ entity outer = .ok (root, changes) ∧
    declarationChanges (Context.unbind ⟨surface, plan, true⟩ 11) entity outer =
      .ok (root, untouched) ∧
    root.descendant? [2, 1, 2, 0, 0] = some target ∧ target.kind = .importType ∧
    target.node.id = 11 ∧ surface.entityForNode target.node = .ok (some imported) ∧
    imported.isTypeImport = true ∧
    root.render untouched.edits = before ++ target.node.text importFile.text ++ after ∧
    before = "export declare interface A x:Q<".toList ∧ after = " |B>".toList ∧
    root.render changes.edits ≠ before ++ (imported.name.characters ++
      nestedQualifier importFile.text target.node) ++ after := by
  have hrun := importPackage_run
  simp only [bind_eq_ok, pure_eq_ok, pick_eq_ok, Prod.mk.injEq, List.map_cons, List.map_nil,
    List.cons.injEq, and_true] at hrun
  obtain ⟨surface, hanalyze, plan, hplan, document, hrollup, entity, hentity, outer, houter,
    ⟨root, changes⟩, hchanges, ⟨other, untouched⟩, huntouched, hrun⟩ := hrun
  obtain ⟨property, hproperty, importType, himportType, list, hlist, item, hitem, target, htarget,
    _, _, _, _, bound, hbound, imported, himported, hrun⟩ := hrun
  obtain ⟨hdocument, hdrawn, hleft, _, _, _, _, hnode, _, _, ⟨⟨hkept, _⟩, _⟩, _, hname,
    hnamed⟩ := hrun
  obtain ⟨hroot, _⟩ := declarationChanges_eq_ok hchanges
  obtain ⟨hother, _⟩ := declarationChanges_eq_ok huntouched
  obtain rfl := Except.ok.inj (hroot.symm.trans hother)
  have hpath : root.descendant? [2, 1, 2, 0, 0] = some target := by
    simp [Span.descendant?, hproperty, himportType, hlist, hitem, htarget]
  obtain rfl : bound = some imported := by simpa using List.mem_of_getElem? himported
  refine ⟨surface, plan, document, entity, outer, root, changes, untouched, target, imported, _,
    _, hanalyze, hplan, hrollup, hdocument, List.mem_of_getElem? hentity,
    List.mem_of_getElem? houter, hkept, hchanges, huntouched, hpath, by rw [Span.kind, hnode]; rfl,
    by rw [hnode]; rfl, hbound, hnamed, hnode ▸ hleft, rfl, rfl, ?_⟩
  rw [hdrawn, hname]
  intro hsame
  have hlength := congrArg List.length hsame
  simp at hlength

end ApiSurface
