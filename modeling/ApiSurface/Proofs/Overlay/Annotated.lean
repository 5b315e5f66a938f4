import ApiSurface.Overlay.Foreign
import ApiSurface.Proofs.Overlay.Locality
import ApiSurface.Proofs.Text.Notes

/-!
# Edits with notes

Two assignments of edits that agree in everything but the notes in their leads draw
texts that agree but for the notes.  Which spans are drawn, and in which order, does
not depend on leads, and neither do the faults of putting pieces together.
-/

namespace ApiSurface

variable {allowed : Text → Prop}

/-! ## Edits -/

/-- The edits differ at most in their leads, and there by notes. -/
structure Edit.Annotated (allowed : Text → Prop) (edit other : Edit) : Prop where
  apart : other = { edit with lead := other.lead }
  lead : Option.Rel (Text.Annotated allowed) edit.lead other.lead

namespace Edit.Annotated

variable {edit other : Edit} (h : edit.Annotated allowed other)
include h

theorem tail : other.tail = edit.tail := by rw [h.apart]

theorem omitChildren : other.omitChildren = edit.omitChildren := by rw [h.apart]

theorem omitSeparator : other.omitSeparator = edit.omitSeparator := by rw [h.apart]

theorem sortChildren : other.sortChildren = edit.sortChildren := by rw [h.apart]

theorem sortKey : other.sortKey = edit.sortKey := by rw [h.apart]

theorem given : other.given = edit.given := by rw [h.apart]

theorem getD_lead (lead : Text) :
    Text.Annotated allowed (edit.lead.getD lead) (other.lead.getD lead) := by
  have hlead := h.lead
  revert hlead
  generalize edit.lead = first
  generalize other.lead = second
  rintro (hboth | _)
  · exact hboth
  · exact .refl lead

end Edit.Annotated

def Change.Annotated (allowed : Text → Prop) (change other : Change) : Prop :=
  ∀ edit edit', Edit.Annotated allowed edit edit' →
    Edit.Annotated allowed (change edit) (other edit')

namespace Change

theorem annotated_setTail (text : Text) : Annotated allowed (setTail text) (setTail text) := by
  rintro edit edit' h
  rw [h.apart]
  exact ⟨rfl, h.lead⟩

theorem annotated_omitSeparator : Annotated allowed omitSeparator omitSeparator := by
  rintro edit edit' h
  rw [h.apart]
  exact ⟨rfl, h.lead⟩

theorem annotated_omitChildren : Annotated allowed omitChildren omitChildren := by
  rintro edit edit' h
  rw [h.apart]
  exact ⟨rfl, h.lead⟩

theorem annotated_setLead {text other : Text} (htext : Text.Annotated allowed text other) :
    Annotated allowed (setLead text) (setLead other) := by
  rintro edit edit' h
  rw [h.apart]
  exact ⟨rfl, .some htext⟩

theorem annotated_skip : Annotated allowed skip skip := by
  rintro edit edit' h
  rw [h.apart]
  exact ⟨rfl, .some (.refl [])⟩

theorem annotated_prepend (text : Text) (span : Span) :
    Annotated allowed (prepend text span) (prepend text span) := by
  rintro edit edit' h
  have hlead := (Text.Annotated.refl text).append (h.getD_lead span.lead)
  rw [h.apart]
  exact ⟨rfl, .some hlead⟩

theorem annotated_giveLead (value : Datum) :
    Annotated allowed (giveLead value) (giveLead value) := by
  unfold giveLead
  split
  · exact annotated_setLead (.refl _)
  · rintro edit edit' h
    rw [h.apart]
    exact ⟨rfl, .none⟩
  · rintro edit edit' h
    rw [h.apart]
    exact ⟨rfl, .some (.refl _)⟩

end Change

/-! ## Changes -/

def Changes.Annotated (allowed : Text → Prop) (changes others : Changes) : Prop :=
  List.Forall₂ (fun change other => change.1 = other.1 ∧
    Change.Annotated allowed change.2 other.2) changes others

namespace Changes

variable {changes others first second : Changes}

theorem annotated_nil : Annotated allowed [] [] := List.Forall₂.nil

theorem annotated_cons {path : Path} {change other : Change}
    (hchange : change.Annotated allowed other) (h : changes.Annotated allowed others) :
    Annotated allowed ((path, change) :: changes) ((path, other) :: others) :=
  List.Forall₂.cons ⟨rfl, hchange⟩ h

theorem annotated_single {path : Path} {change other : Change}
    (h : change.Annotated allowed other) :
    Annotated allowed [(path, change)] [(path, other)] :=
  annotated_cons h annotated_nil

theorem Annotated.append (h : changes.Annotated allowed others)
    (hnext : first.Annotated allowed second) :
    Annotated allowed (changes ++ first) (others ++ second) :=
  List.rel_append h hnext

theorem Annotated.foldl (h : changes.Annotated allowed others) (path : Path)
    {edit edit' : Edit} (hedit : edit.Annotated allowed edit') :
    (changes.foldl (fun edit change => if change.1 = path then change.2 edit else edit)
      edit).Annotated allowed
    (others.foldl (fun edit change => if change.1 = path then change.2 edit else edit)
      edit') := by
  induction h generalizing edit edit' with
  | nil => exact hedit
  | @cons change other _ _ hfirst _ ih =>
      obtain ⟨hpath, hchange⟩ := hfirst
      rw [List.foldl_cons, List.foldl_cons, hpath]
      apply ih
      split
      · exact hchange edit edit' hedit
      · exact hedit

end Changes

/-! ## Drawing -/

namespace Edits

def Annotated (allowed : Text → Prop) (edits others : Edits) : Prop :=
  ∀ path, (edits path).Annotated allowed (others path)

variable {edits others : Edits}

theorem Annotated.below (h : edits.Annotated allowed others) (index : Nat) :
    (edits.below index).Annotated allowed (others.below index) :=
  fun path => h (index :: path)

theorem Annotated.within (h : edits.Annotated allowed others) (path : Path) :
    (edits.within path).Annotated allowed (others.within path) :=
  fun inner => h (path ++ inner)

end Edits

theorem Changes.Annotated.edits {changes others : Changes}
    (h : changes.Annotated allowed others) : changes.edits.Annotated allowed others.edits :=
  fun path => h.foldl path ⟨rfl, .none⟩

namespace Span

variable {edits others : Edits}

theorem draw_annotated (h : edits.Annotated allowed others) (override : Option Text)
    (span : Span) :
    Text.Annotated allowed (span.draw edits override) (span.draw others override) := by
  induction span using inductionOnChildren generalizing edits others override with
  | step span ih =>
      -- The order in which children are drawn depends on keys and separators alone.
      have hchildren : ∀ sorted inherited, Text.Annotated allowed
          (Slot.arrange sorted inherited (slots edits 0 span.children))
          (Slot.arrange sorted inherited (slots others 0 span.children)) := by
        intro sorted inherited
        have hkey : ∀ entry, (slotOf others entry).key = (slotOf edits entry).key :=
          fun entry => (h [entry.2]).sortKey
        rw [slots_eq, slots_eq, Slot.arrange_map, Slot.arrange_map,
          Slot.arrangement_congr hkey fun _ => rfl]
        refine .flatMap fun entry hentry => ?_
        have hmem : entry.1 ∈ span.children.zipIdx :=
          (Slot.arrangement_perm _ _ _ _).subset (List.mem_map_of_mem hentry)
        exact ih entry.1.1 (List.fst_mem_of_mem_zipIdx hmem) (h.below _) _
      have hclosing : closing override (others []) = closing override (edits []) := by
        funext separator isLeaf
        unfold closing
        rw [(h []).omitSeparator]
      rw [draw_eq, draw_eq, (h []).omitChildren, (h []).sortChildren, (h []).tail, hclosing]
      refine ((((h []).getD_lead span.lead).append ?_).append (.refl _)).append (.refl _)
      split
      · exact .refl []
      · exact hchildren _ _

theorem joinFault?_annotated (h : edits.Annotated allowed others) (span : Span) :
    span.joinFault? others = span.joinFault? edits := by
  induction span using inductionOnChildren generalizing edits others with
  | step span ih =>
      obtain ⟨node, lead, tail, separator, children⟩ := span
      have hamong : ∀ spans, (∀ child ∈ spans, child ∈ children) → ∀ index,
          joinFaultAmong? others index spans = joinFaultAmong? edits index spans := by
        intro spans hspans
        induction spans with
        | nil => exact fun _ => rfl
        | cons child rest ihrest =>
            intro index
            rw [joinFaultAmong?, joinFaultAmong?, ih child (hspans child (by simp)) (h.below index),
              ihrest fun other hother => hspans other (by simp [hother])]
      rw [joinFault?, joinFault?, (h []).given, (h []).omitChildren,
        hamong children fun _ hchild => hchild]

end Span

end ApiSurface
