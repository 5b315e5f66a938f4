import ApiSurface.Text.Blank
import ApiSurface.Text.Newline
import Mathlib

/-!
# Words

The words of a text are its maximal runs of characters that are not blank.
Replacing each run of blanks by one space keeps the words, and it keeps whether
there are blanks at either end.  The three together determine what comes out, so
that they decide which texts are equivalent.
-/

namespace ApiSurface.Text

def words (text : Text) : List Text :=
  (text.splitOnP isBlank).filter fun piece => !piece.isEmpty

def startsBlank (text : Text) : Bool := text.head?.any isBlank

def endsBlank (text : Text) : Bool := text.getLast?.any isBlank

variable {character : Char} {text other : Text}

/-! ## Words of longer texts -/

@[simp] theorem words_nil : words [] = [] := by
  simp [words, List.splitOnP_nil]

theorem words_cons_blank (h : isBlank character = true) (text : Text) :
    words (character :: text) = words text := by
  simp [words, List.splitOnP_cons_eq_if_modifyHead, h]

theorem words_cons_apart (h : isBlank character = false)
    (hapart : text = [] ∨ startsBlank text = true) :
    words (character :: text) = [character] :: words text := by
  rcases hapart with rfl | hstarts
  · simp [words, List.splitOnP_cons_eq_if_modifyHead, List.splitOnP_nil, h]
  · cases text with
    | nil => cases hstarts
    | cons first rest =>
        have hfirst : isBlank first = true := by simpa [startsBlank] using hstarts
        simp [words, List.splitOnP_cons_eq_if_modifyHead, h, hfirst]

theorem words_cons_within (h : isBlank character = false) (hne : text ≠ [])
    (hstarts : startsBlank text = false) :
    ∃ word others, words text = word :: others ∧
      words (character :: text) = (character :: word) :: others := by
  cases text with
  | nil => contradiction
  | cons first rest =>
      have hfirst : isBlank first = false := by simpa [startsBlank] using hstarts
      obtain ⟨piece, pieces, hpieces⟩ :=
        List.exists_cons_of_ne_nil (List.splitOnP_ne_nil isBlank rest)
      simp [words, List.splitOnP_cons_eq_if_modifyHead, h, hfirst, hpieces]

private theorem words_cons_congr (hwords : words text = words other)
    (hstarts : startsBlank text = startsBlank other) (hempty : text = [] ↔ other = []) :
    words (character :: text) = words (character :: other) := by
  cases h : isBlank character with
  | true => rw [words_cons_blank h, words_cons_blank h, hwords]
  | false =>
      by_cases hapart : text = [] ∨ startsBlank text = true
      · have hother : other = [] ∨ startsBlank other = true := by
          rwa [← hempty, ← hstarts]
        rw [words_cons_apart h hapart, words_cons_apart h hother, hwords]
      · rw [not_or, Bool.not_eq_true] at hapart
        obtain ⟨word, others, htext, hlonger⟩ := words_cons_within h hapart.1 hapart.2
        obtain ⟨word', others', hother, hlonger'⟩ := words_cons_within h
          (fun hnil => hapart.1 (hempty.mpr hnil)) (hstarts ▸ hapart.2)
        obtain ⟨rfl, rfl⟩ := List.cons.inj (htext.symm.trans (hwords.trans hother))
        rw [hlonger, hlonger']

theorem words_eq_nil_iff : words text = [] ↔ ∀ character ∈ text, isBlank character = true := by
  induction text with
  | nil => simp
  | cons first rest ih =>
      cases h : isBlank first with
      | true => simp [words_cons_blank h, ih, h]
      | false =>
          suffices hne : words (first :: rest) ≠ [] by simp [hne, h]
          by_cases hapart : rest = [] ∨ startsBlank rest = true
          · simp [words_cons_apart h hapart]
          · rw [not_or, Bool.not_eq_true] at hapart
            obtain ⟨word, others, -, hlonger⟩ := words_cons_within h hapart.1 hapart.2
            simp [hlonger]

/-! ## The end of a text -/

theorem endsBlank_append (hne : other ≠ []) : endsBlank (text ++ other) = endsBlank other := by
  rw [endsBlank, List.getLast?_append_of_ne_nil text hne, endsBlank]

theorem endsBlank_cons (character : Char) (hne : text ≠ []) :
    endsBlank (character :: text) = endsBlank text := by
  rw [← List.singleton_append, endsBlank_append hne]

theorem endsBlank_of_words_nil (h : words text = []) (hne : text ≠ []) :
    endsBlank text = true := by
  have hlast := words_eq_nil_iff.mp h _ (List.getLast_mem hne)
  simp [endsBlank, List.getLast?_eq_getLast_of_ne_nil hne, hlast]

/-! ## Collapsing -/

theorem collapse_eq (text : Text) :
    collapse text = (if startsBlank text then [' '] else []) ++ collapseFrom true text := by
  cases text with
  | nil => rfl
  | cons first rest =>
      cases h : isBlank first <;> simp [collapse, collapseFrom, startsBlank, h]

theorem collapse_eq_nil_iff : collapse text = [] ↔ text = [] := by
  cases text with
  | nil => simp [collapse, collapseFrom]
  | cons first rest =>
      cases h : isBlank first <;> simp [collapse, collapseFrom, h]

theorem collapseFrom_cons_of_not_blank (h : isBlank character = false) (inRun : Bool)
    (text : Text) : collapseFrom inRun (character :: text) = character :: collapse text := by
  simp [collapseFrom, collapse, h]

theorem isBlank_space : isBlank ' ' = true := by decide

theorem isBlank_feed : isBlank '\n' = true := by decide

theorem isBlank_return : isBlank '\r' = true := by decide

theorem startsBlank_collapse (text : Text) : startsBlank (collapse text) = startsBlank text := by
  cases text with
  | nil => rfl
  | cons first rest =>
      cases h : isBlank first <;> simp [collapse, collapseFrom, startsBlank, h, isBlank_space]

theorem words_collapse_eq (text : Text) :
    words (collapse text) = words (collapseFrom true text) := by
  rw [collapse_eq]
  split
  · exact words_cons_blank isBlank_space _
  · rfl

theorem words_collapse (text : Text) : words (collapse text) = words text := by
  induction text with
  | nil => rfl
  | cons first rest ih =>
      rw [words_collapse_eq]
      cases h : isBlank first with
      | true =>
          rw [words_cons_blank h, ← ih, words_collapse_eq]
          simp [collapseFrom, h]
      | false =>
          rw [collapseFrom_cons_of_not_blank h]
          exact words_cons_congr ih (startsBlank_collapse rest) collapse_eq_nil_iff

theorem collapse_of_words_nil (h : words text = []) (hne : text ≠ []) : collapse text = [' '] := by
  have hall : ∀ rest : Text, words rest = [] → collapseFrom true rest = [] := by
    intro rest hrest
    rw [words_eq_nil_iff] at hrest
    induction rest with
    | nil => rfl
    | cons first rest ih =>
        obtain ⟨hfirst, hrest⟩ := List.forall_mem_cons.mp hrest
        simp [collapseFrom, hfirst, ih hrest]
  cases text with
  | nil => contradiction
  | cons first rest =>
      have hfirst := words_eq_nil_iff.mp h first (by simp)
      simp [collapse_eq, startsBlank, hfirst, hall _ h]

theorem endsBlank_collapse_eq (h : words text ≠ []) :
    endsBlank (collapse text) = endsBlank (collapseFrom true text) := by
  have hne : collapseFrom true text ≠ [] := by
    intro hnil
    rw [← words_collapse, words_collapse_eq, hnil] at h
    exact h words_nil
  rw [collapse_eq, endsBlank_append hne]

theorem endsBlank_collapse (text : Text) : endsBlank (collapse text) = endsBlank text := by
  induction text with
  | nil => rfl
  | cons first rest ih =>
      by_cases hwords : words (first :: rest) = []
      · rw [collapse_of_words_nil hwords (by simp), endsBlank_of_words_nil hwords (by simp)]
        rfl
      rw [endsBlank_collapse_eq hwords]
      cases h : isBlank first with
      | true =>
          rw [words_cons_blank h] at hwords
          have hne : rest ≠ [] := by
            rintro rfl
            exact hwords words_nil
          rw [endsBlank_cons first hne, ← ih, endsBlank_collapse_eq hwords]
          simp [collapseFrom, h]
      | false =>
          rw [collapseFrom_cons_of_not_blank h]
          cases rest with
          | nil => rfl
          | cons second rest =>
              have hne : collapse (second :: rest) ≠ [] := collapse_eq_nil_iff.not.mpr (by simp)
              rw [endsBlank_cons first hne, ih, endsBlank_cons first (by simp)]

/-! ## The collapsed text from its words -/

def spaced (words : List Text) (ends : Bool) : Text :=
  join [' '] words ++ if ends && !words.isEmpty then [' '] else []

theorem join_cons (separator first second : Text) (others : List Text) :
    join separator (first :: second :: others) =
      first ++ separator ++ join separator (second :: others) := by
  simp [join]

private theorem spaced_cons_apart (hwords : words text = [] → endsBlank text = true) :
    spaced ([character] :: words text) (endsBlank text) =
      character :: ' ' :: spaced (words text) (endsBlank text) := by
  cases h : words text with
  | nil => simp [spaced, join, hwords h]
  | cons first others => simp [spaced, join_cons]

theorem collapseFrom_true_eq (text : Text) :
    collapseFrom true text = spaced (words text) (endsBlank text) := by
  induction text with
  | nil => rfl
  | cons first rest ih =>
      cases h : isBlank first with
      | true =>
          rw [words_cons_blank h]
          cases rest with
          | nil => simp [collapseFrom, spaced, join, h]
          | cons second rest =>
              rw [endsBlank_cons first (by simp), ← ih]
              simp [collapseFrom, h]
      | false =>
          rw [collapseFrom_cons_of_not_blank h, collapse_eq, ih]
          cases rest with
          | nil => simp [words_cons_apart h, spaced, join, startsBlank, endsBlank, h]
          | cons second rest =>
              rw [endsBlank_cons first (by simp)]
              cases hstarts : startsBlank (second :: rest) with
              | true =>
                  rw [words_cons_apart h (.inr hstarts), spaced_cons_apart]
                  · rfl
                  · exact fun hnil => endsBlank_of_words_nil hnil (by simp)
              | false =>
                  obtain ⟨word, others, hwords, hlonger⟩ :=
                    words_cons_within h (by simp) hstarts
                  rw [hlonger, hwords]
                  cases others <;> simp [spaced, join]

/-! ## Line endings -/

theorem collapseFrom_normalizeNewlines (inRun : Bool) (text : Text) :
    collapseFrom inRun (normalizeNewlines text) = collapseFrom inRun text := by
  induction text using normalizeNewlines.induct generalizing inRun with
  | case1 => rfl
  | case2 rest ih =>
      cases inRun <;> simp [normalizeNewlines, collapseFrom, isBlank_return, isBlank_feed, ih]
  | case3 character rest hplain ih =>
      rw [normalizeNewlines]
      · simp [collapseFrom, ih]
      · exact hplain

private theorem collapseFrom_blanks {blanks : Text} (hne : blanks ≠ [])
    (hblank : ∀ character ∈ blanks, isBlank character = true) (inRun : Bool) (text : Text) :
    collapseFrom inRun (blanks ++ text) =
      (if inRun then [] else [' ']) ++ collapseFrom true text := by
  induction blanks generalizing inRun with
  | nil => contradiction
  | cons first rest ih =>
      obtain ⟨hfirst, hrest⟩ := List.forall_mem_cons.mp hblank
      cases rest with
      | nil => cases inRun <;> simp [collapseFrom, hfirst]
      | cons second rest =>
          have htail := ih (by simp) hrest true
          cases inRun <;> simpa [collapseFrom, hfirst] using htail

private theorem collapseFrom_expandNewlines {ending : Text} (hne : ending ≠ [])
    (hblank : ∀ character ∈ ending, isBlank character = true) (inRun : Bool) (text : Text) :
    collapseFrom inRun (expandNewlines ending text) = collapseFrom inRun text := by
  induction text generalizing inRun with
  | nil => rfl
  | cons first rest ih =>
      rw [expandNewlines, List.flatMap_cons, ← expandNewlines]
      split
      · rename_i hfeed
        have hfirst : isBlank first = true := hfeed ▸ isBlank_feed
        rw [collapseFrom_blanks hne hblank, ih]
        cases inRun <;> simp [collapseFrom, hfirst]
      · simp [collapseFrom, ih]

private theorem collapse_convertNewlines (ending : LineEnd) (text : Text) :
    collapse (convertNewlines ending text) = collapse text := by
  have hne : ending.text ≠ [] := by cases ending <;> decide
  have hblank : ∀ character ∈ ending.text, isBlank character = true := by
    cases ending <;> simp [LineEnd.text, isBlank_feed, isBlank_return]
  rw [collapse, convertNewlines, collapseFrom_expandNewlines hne hblank,
    collapseFrom_normalizeNewlines, collapse]

/-! ## Equivalence -/

/-- Two texts are equivalent exactly if they have the same words and agree on
whether there are blanks at the beginning and at the end.  So a text is equivalent
to itself with other line endings, whatever the system's own is. -/
theorem equivalent_iff_same_words :
    (∀ actual expected : Text, equivalent actual expected = true ↔
      words actual = words expected ∧ startsBlank actual = startsBlank expected ∧
        endsBlank actual = endsBlank expected) ∧
    ∀ (native : LineEnd) (kind : NewlineKind) (text : Text),
      equivalent text (convertNewlines (kind.ending native) text) = true := by
  refine ⟨fun actual expected => ?_, fun native kind text => ?_⟩
  · rw [equivalent, beq_iff_eq]
    constructor
    · intro h
      refine ⟨?_, ?_, ?_⟩
      · rw [← words_collapse, h, words_collapse]
      · rw [← startsBlank_collapse, h, startsBlank_collapse]
      · rw [← endsBlank_collapse, h, endsBlank_collapse]
    · rintro ⟨hwords, hstarts, hends⟩
      rw [collapse_eq, collapse_eq, collapseFrom_true_eq, collapseFrom_true_eq, hwords,
        hstarts, hends]
  · rw [equivalent, collapse_convertNewlines, beq_self_eq_true]

end ApiSurface.Text
