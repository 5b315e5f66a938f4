import ApiSurface.Proofs.Emit.Arguments
import ApiSurface.Proofs.Text.Words

/-!
# Notes in a text

A text is annotated when notes stand in it that are not its own.  Taking them out
leaves the characters of another text, up to blanks.  Annotated texts can be put
together, and trimming one does not reach into a note, since a note has no blanks at
its ends.
-/

namespace ApiSurface.Text

def solid (text : Text) : Text := text.filter fun character => !isBlank character

theorem solid_append (first second : Text) :
    solid (first ++ second) = solid first ++ solid second :=
  List.filter_append _ _

theorem solid_reverse (text : Text) : solid text.reverse = (solid text).reverse :=
  List.filter_reverse

theorem solid_eq_nil {text : Text} (h : ∀ character ∈ text, isBlank character = true) :
    solid text = [] :=
  List.filter_eq_nil_iff.mpr fun character hcharacter => by simp [h character hcharacter]

theorem solid_dropWhile (text : Text) : solid (text.dropWhile isBlank) = solid text := by
  induction text with
  | nil => rfl
  | cons first rest ih =>
      unfold solid at ih ⊢
      cases h : isBlank first <;> simp [h, ih]

private theorem solid_trim (text : Text) : solid text.trim = solid text := by
  rw [trim, solid_reverse, solid_dropWhile, solid_reverse, List.reverse_reverse,
    solid_dropWhile]

/-! ## Segments -/

structure Segment where
  isNote : Bool
  text : Text

namespace Segment

def written (segments : List Segment) : Text := segments.flatMap Segment.text

def notes (segments : List Segment) : List Text := (segments.filter isNote).map Segment.text

def own (segments : List Segment) : Text :=
  (segments.filter fun segment => !segment.isNote).flatMap Segment.text

variable {segments : List Segment}

theorem written_append (first second : List Segment) :
    written (first ++ second) = written first ++ written second :=
  List.flatMap_append

theorem notes_append (first second : List Segment) :
    notes (first ++ second) = notes first ++ notes second := by
  simp [notes]

theorem own_append (first second : List Segment) :
    own (first ++ second) = own first ++ own second := by
  simp [own]

private theorem notes_cons_note (text : Text) (rest : List Segment) :
    notes (⟨true, text⟩ :: rest) = text :: notes rest := rfl

theorem own_cons_own (text : Text) (rest : List Segment) :
    own (⟨false, text⟩ :: rest) = text ++ own rest := by
  simp [own]

theorem written_cons (segment : Segment) (rest : List Segment) :
    written (segment :: rest) = segment.text ++ written rest := by
  simp [written]

theorem exists_dropWhile
    (h : ∀ note ∈ notes segments, note.dropWhile isBlank = note ∧ note ≠ []) :
    ∃ shorter, written shorter = (written segments).dropWhile isBlank ∧
      notes shorter = notes segments ∧ solid (own shorter) = solid (own segments) := by
  induction segments with
  | nil => exact ⟨[], rfl, rfl, rfl⟩
  | cons segment rest ih =>
      obtain ⟨isNote, text⟩ := segment
      cases isNote with
      | true =>
          rw [notes_cons_note] at h
          obtain ⟨hkept, hne⟩ := h text (by simp)
          refine ⟨⟨true, text⟩ :: rest, ?_, rfl, rfl⟩
          rw [written_cons, List.dropWhile_append, hkept, if_neg (by simpa using hne)]
      | false =>
          rw [written_cons, List.dropWhile_append]
          split
          · rename_i hempty
            obtain ⟨shorter, hwritten, hnotes, hown⟩ := ih h
            have hblank : ∀ character ∈ text, isBlank character = true := by
              simpa using hempty
            refine ⟨shorter, hwritten, hnotes, ?_⟩
            rw [own_cons_own, solid_append, solid_eq_nil hblank, List.nil_append, hown]
          · refine ⟨⟨false, text.dropWhile isBlank⟩ :: rest, written_cons _ _, rfl, ?_⟩
            rw [own_cons_own, own_cons_own, solid_append, solid_append, solid_dropWhile]

def mirrored (segments : List Segment) : List Segment :=
  (segments.map fun segment => ⟨segment.isNote, segment.text.reverse⟩).reverse

theorem written_mirrored (segments : List Segment) :
    written (mirrored segments) = (written segments).reverse := by
  simp [written, mirrored, List.flatMap_reverse, List.flatMap_map, Function.comp_def]

theorem notes_mirrored (segments : List Segment) :
    notes (mirrored segments) = ((notes segments).map List.reverse).reverse := by
  simp [notes, mirrored, List.filter_reverse, List.filter_map, Function.comp_def]

theorem own_mirrored (segments : List Segment) :
    own (mirrored segments) = (own segments).reverse := by
  simp [own, mirrored, List.filter_reverse, List.filter_map, List.flatMap_reverse,
    List.flatMap_map, Function.comp_def]

end Segment

/-! ## Annotated texts -/

open Segment

/-- The first text is the second with some notes put in, up to blanks. -/
def Annotated (allowed : Text → Prop) (first second : Text) : Prop :=
  ∃ segments, written segments = first ∧ solid (own segments) = solid second ∧
    ∀ note ∈ notes segments, allowed note

namespace Annotated

variable {allowed : Text → Prop} {first second text other : Text}

theorem of_solid (h : solid first = solid second) : Annotated allowed first second :=
  ⟨[⟨false, first⟩], by simp [written], by simpa [own] using h, by simp [notes]⟩

theorem refl (text : Text) : Annotated allowed text text := of_solid rfl

theorem note (h : allowed text) : Annotated allowed text [] :=
  ⟨[⟨true, text⟩], by simp [written], by simp [own], by simpa [notes] using h⟩

theorem append (h : Annotated allowed first second) (hnext : Annotated allowed text other) :
    Annotated allowed (first ++ text) (second ++ other) := by
  obtain ⟨front, rfl, hown, hnotes⟩ := h
  obtain ⟨back, rfl, hown', hnotes'⟩ := hnext
  refine ⟨front ++ back, written_append front back, ?_, ?_⟩
  · rw [own_append, solid_append, solid_append, hown, hown']
  · rw [notes_append]
    exact List.forall_mem_append.mpr ⟨hnotes, hnotes'⟩

theorem line (h : Annotated allowed first second) :
    Annotated allowed (Text.line first) (Text.line second) :=
  h.append (.refl ['\n'])

theorem flatMap {α : Type} {values : List α} {f g : α → Text}
    (h : ∀ value ∈ values, Annotated allowed (f value) (g value)) :
    Annotated allowed (values.flatMap f) (values.flatMap g) := by
  induction values with
  | nil => exact .refl []
  | cons value rest ih =>
      rw [List.flatMap_cons, List.flatMap_cons]
      exact (h value (by simp)).append (ih fun other hother => h other (by simp [hother]))

theorem join (separator : Text) {texts others : List Text}
    (h : List.Forall₂ (Annotated allowed) texts others) :
    Annotated allowed (Text.join separator texts) (Text.join separator others) := by
  induction h with
  | nil => exact .refl _
  | cons hfirst hrest ih =>
      cases hrest with
      | nil => simpa [Text.join] using hfirst
      | cons hsecond hrest =>
          rw [join_cons, join_cons]
          exact (hfirst.append (.refl separator)).append ih

end Annotated

/-- An annotated text that holds certain notes in their order, maybe with others between. -/
def Noted (allowed : Text → Prop) (required : List Text) (first second : Text) : Prop :=
  ∃ segments, written segments = first ∧ solid (own segments) = solid second ∧
    (∀ note ∈ notes segments, allowed note) ∧ required.Sublist (notes segments)

variable {allowed : Text → Prop} {required required' : List Text} {first second text other : Text}

theorem Annotated.noted (h : Annotated allowed first second) : Noted allowed [] first second := by
  obtain ⟨segments, hwritten, hown, hnotes⟩ := h
  exact ⟨segments, hwritten, hown, hnotes, List.nil_sublist _⟩

theorem Noted.append (h : Noted allowed required first second)
    (hnext : Noted allowed required' text other) :
    Noted allowed (required ++ required') (first ++ text) (second ++ other) := by
  obtain ⟨front, rfl, hown, hnotes, hrequired⟩ := h
  obtain ⟨back, rfl, hown', hnotes', hrequired'⟩ := hnext
  refine ⟨front ++ back, written_append front back, ?_, ?_, ?_⟩
  · rw [own_append, solid_append, solid_append, hown, hown']
  · rw [notes_append]
    exact List.forall_mem_append.mpr ⟨hnotes, hnotes'⟩
  · rw [notes_append]
    exact hrequired.append hrequired'

/-! ## Trimming -/

theorem Tight.dropWhile {text : Text} (h : Tight text) : text.dropWhile isBlank = text := by
  have hstarts := text.trim_starts_dropWhile
  rw [h.trimmed] at hstarts
  have hends := List.dropWhile_suffix isBlank (l := text)
  exact hends.eq_of_length_le hstarts.length_le

private theorem Tight.dropWhile_reverse {text : Text} (h : Tight text) :
    text.reverse.dropWhile isBlank = text.reverse := by
  have htrimmed := h.trimmed
  rw [trim, h.dropWhile] at htrimmed
  exact List.reverse_injective (htrimmed.trans (List.reverse_reverse text).symm)

theorem tight_of_ends {first last : Char} (hfirst : isBlank first = false)
    (hlast : isBlank last = false) (middle : Text) : Tight (first :: (middle ++ [last])) := by
  refine ⟨by simp, ?_⟩
  rw [trim, List.dropWhile_cons_of_neg (by simp [hfirst])]
  simp [hlast]

theorem Annotated.trim {allowed : Text → Prop} {first second : Text}
    (h : Annotated allowed first second) (htight : ∀ note, allowed note → Tight note) :
    Annotated allowed first.trim second.trim := by
  obtain ⟨segments, rfl, hown, hnotes⟩ := h
  obtain ⟨front, hfront, hnotes', hown'⟩ := exists_dropWhile fun note hnote =>
    ⟨(htight note (hnotes note hnote)).dropWhile, (htight note (hnotes note hnote)).ne_nil⟩
  have hback : ∀ note ∈ notes (mirrored front), note.dropWhile isBlank = note ∧ note ≠ [] := by
    rw [notes_mirrored, hnotes']
    intro note hnote
    obtain ⟨original, horiginal, rfl⟩ := List.mem_map.mp (List.mem_reverse.mp hnote)
    have horiginal := htight original (hnotes original horiginal)
    exact ⟨horiginal.dropWhile_reverse, by simpa using horiginal.ne_nil⟩
  obtain ⟨back, hback, hnotes'', hown''⟩ := exists_dropWhile hback
  refine ⟨mirrored back, ?_, ?_, ?_⟩
  · rw [written_mirrored, hback, written_mirrored, hfront, Text.trim]
  · rw [own_mirrored, solid_reverse, hown'', own_mirrored, solid_reverse, List.reverse_reverse,
      hown', hown, solid_trim]
  · rw [notes_mirrored, hnotes'', notes_mirrored, hnotes']
    simpa using hnotes

end ApiSurface.Text
