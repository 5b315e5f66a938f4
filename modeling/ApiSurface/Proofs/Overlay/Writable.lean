import ApiSurface.Overlay.Foreign
import ApiSurface.Proofs.Overlay.Drawing

/-!
# Spans that can be written

A span is written without a fault if all its pieces can be cut out of the text and
nothing but texts has been handed over for them.  Changes that hand over texts
lead to such edits.
-/

namespace ApiSurface

/-! ## Pieces that are texts -/

def Edit.Joinable (edit : Edit) : Prop := edit.given.lead = .null ∧ edit.given.tail = .null

def Change.Textual (change : Change) : Prop :=
  ∀ edit : Edit, edit.Joinable → (change edit).Joinable

def Changes.Textual (changes : Changes) : Prop := ∀ change ∈ changes, change.2.Textual

namespace Change

theorem textual_skip : Textual skip := fun _ _ => ⟨rfl, rfl⟩

theorem textual_setLead (text : Text) : Textual (setLead text) := fun _ h => ⟨rfl, h.2⟩

theorem textual_setTail (text : Text) : Textual (setTail text) := fun _ h => ⟨h.1, rfl⟩

theorem textual_prepend (text : Text) (span : Span) : Textual (prepend text span) :=
  fun _ h => h

theorem textual_omitChildren : Textual omitChildren := fun _ h => h

theorem textual_omitSeparator : Textual omitSeparator := fun _ h => h

theorem textual_sortChildren : Textual sortChildren := fun _ h => h

theorem textual_setSortKey (key : Text) : Textual (setSortKey key) := fun _ h => h

end Change

namespace Changes

theorem textual_nil : Textual [] := by simp [Textual]

theorem textual_enclose (lead tail : Text) (path : Path) (span : Span) :
    Textual [(path, Change.prepend lead span), (path, Change.setTail tail)] := by
  simp [Textual, Change.textual_prepend, Change.textual_setTail]

theorem Textual.append {first second : Changes} (h : first.Textual) (hsecond : second.Textual) :
    Textual (first ++ second) := by
  intro change hchange
  rcases List.mem_append.mp hchange with hchange | hchange
  · exact h change hchange
  · exact hsecond change hchange

theorem Textual.joinable {changes : Changes} (h : changes.Textual) (path : Path) :
    (changes.edits path).Joinable := by
  unfold edits Edits.apply
  have hstart : (Edits.none path).Joinable := ⟨rfl, rfl⟩
  generalize Edits.none path = start at hstart
  induction changes generalizing start with
  | nil => exact hstart
  | cons change rest ih =>
      apply ih (fun other hother => h other (by simp [hother]))
      dsimp only
      split
      · exact h change (by simp) start hstart
      · exact hstart

end Changes

mutual

theorem Span.joinFault?_eq_none {edits : Edits} (h : ∀ path, (edits path).Joinable) :
    (span : Span) → span.joinFault? edits = none
  | .mk node lead tail separator children => by
      have hchildren := joinFaultAmong?_eq_none h 0 children
      simp [joinFault?, Given.joinFault?, (h []).1, (h []).2, Datum.isNull, hchildren]

theorem Span.joinFaultAmong?_eq_none {edits : Edits} (h : ∀ path, (edits path).Joinable)
    (index : Nat) : (spans : List Span) → joinFaultAmong? edits index spans = none
  | [] => rfl
  | child :: rest => by
      have hchild : child.joinFault? (edits.below index) = none :=
        joinFault?_eq_none (fun path => h (index :: path)) child
      simp [joinFaultAmong?, hchild, joinFaultAmong?_eq_none h (index + 1) rest]

end

/-! ## Nothing is missing -/

structure Edit.Writable (edit : Edit) : Prop where
  joinable : edit.Joinable
  sortKey : edit.given.sortKey = .null

namespace Span

mutual

theorem innerFlaw?_none : (span : Span) → span.innerFlaw? Flaws.none = none
  | .mk _ _ _ separator children => by
      rw [innerFlaw?, innerFlawOfLast?_none 0 children, ite_self]
      rfl

theorem innerFlawOfLast?_none (index : Nat) :
    (spans : List Span) → innerFlawOfLast? Flaws.none index spans = none
  | [] => rfl
  | [last] => innerFlaw?_none last
  | _ :: second :: rest => innerFlawOfLast?_none (index + 1) (second :: rest)

end

theorem innerFlawAmong?_none (position : Option Nat) (index : Nat) (spans : List Span) :
    innerFlawAmong? Flaws.none position index spans = none := by
  induction spans generalizing index with
  | nil => rfl
  | cons child rest ih =>
      have hchild : child.innerFlaw? (Flaws.none.below index) = none := innerFlaw?_none child
      rw [innerFlawAmong?, hchild, ih, ite_self]

mutual

theorem passFault?_eq_none {edits : Edits} (h : ∀ path, (edits path).given.sortKey = .null)
    (replaced : Bool) : (span : Span) → span.passFault? edits Flaws.none replaced = none
  | .mk _ _ _ separator children => by
      have hkeys : ((keyedPositions edits children.length).findSome? fun index =>
          (edits [index]).given.sortFault?) = none := by
        rw [List.findSome?_eq_none_iff]
        intro index _
        rw [Given.sortFault?, h]
        rfl
      have hsorted := passFaultSorted?_eq_none h 0 children
      have hinOrder := passFaultAmong?_eq_none h (replaced && separator.isEmpty) 0 children
      simp only [passFault?, innerFlawAmong?_none, hkeys, hsorted, Flaws.none, ite_self,
        Option.none_or] at hinOrder ⊢
      rw [hinOrder, ite_self, ite_self]
      rfl

theorem passFaultAmong?_eq_none {edits : Edits}
    (h : ∀ path, (edits path).given.sortKey = .null) (replaced : Bool) (index : Nat) :
    (spans : List Span) → passFaultAmong? edits Flaws.none none replaced index spans = none
  | [] => rfl
  | [last] => passFault?_eq_none (fun path => h (index :: path)) replaced last
  | first :: second :: rest => by
      have hfirst : first.passFault? (edits.below index) (Flaws.none.below index) false = none :=
        passFault?_eq_none (fun path => h (index :: path)) false first
      rw [passFaultAmong?, hfirst, passFaultAmong?_eq_none h replaced (index + 1)]
      rfl

theorem passFaultSorted?_eq_none {edits : Edits}
    (h : ∀ path, (edits path).given.sortKey = .null) (index : Nat) :
    (spans : List Span) → passFaultSorted? edits Flaws.none index spans = none
  | [] => rfl
  | child :: rest => by
      have hchild : child.passFault? (edits.below index) (Flaws.none.below index)
          (edits [index]).sortKey.isSome = none :=
        passFault?_eq_none (fun path => h (index :: path)) _ child
      rw [passFaultSorted?, hchild, passFaultSorted?_eq_none h (index + 1) rest]
      rfl

end

end Span

namespace Overlay

variable {overlay : Overlay} {edits : Edits} {path : Path}

theorem renderAt_of_writable (hflaws : overlay.flaws = Flaws.none)
    (h : ∀ inner, (edits.within path inner).Writable) (span : Span) :
    overlay.renderAt edits path span = .ok (span.render (edits.within path)) := by
  have hpass : span.passFault? (edits.within path) (overlay.flaws.within path) false = none := by
    rw [hflaws]
    exact Span.passFault?_eq_none (fun inner => (h inner).sortKey) false span
  have hjoin := Span.joinFault?_eq_none (fun inner => (h inner).joinable) span
  rw [renderAt, Span.writeFault?, hpass, hjoin]
  rfl

theorem ofNode_root {source : Text} {node : Node} (h : ofNode source node = .ok overlay) :
    Span.ofNode source node = .ok overlay.root ∧ overlay.flaws = Flaws.none := by
  obtain ⟨root, hroot, hoverlay⟩ := bind_eq_ok.mp h
  cases hoverlay
  exact ⟨hroot, rfl⟩

end Overlay

end ApiSurface
