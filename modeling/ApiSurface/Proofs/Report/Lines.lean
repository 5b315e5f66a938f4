import ApiSurface.Report
import ApiSurface.Proofs.Success

/-!
# Lines that survive cleaning

The line ends of a report are cleaned before it is written.  A block of whole lines
comes out of the cleaning of a document as it comes out of being cleaned alone.
-/

namespace ApiSurface

namespace Text

/-! ## Carriage returns -/

theorem normalizeNewlines_suffix_cons (character : Char) (text : Text) :
    normalizeNewlines text <:+ normalizeNewlines (character :: text) := by
  by_cases h : character = '\r' ∧ text.head? = some '\n'
  · obtain ⟨rfl, hhead⟩ := h
    cases text with
    | nil => simp at hhead
    | cons second rest =>
        obtain rfl : second = '\n' := by simpa using hhead
        simp [normalizeNewlines]
  · rw [normalizeNewlines]
    · exact List.suffix_cons _ _
    · rintro rest rfl rfl
      exact h ⟨rfl, rfl⟩

theorem normalizeNewlines_suffix (front text : Text) :
    normalizeNewlines text <:+ normalizeNewlines (front ++ text) := by
  induction front with
  | nil => exact List.suffix_rfl
  | cons character front ih => exact ih.trans (normalizeNewlines_suffix_cons _ _)

theorem normalizeNewlines_line (row rest : Text) :
    normalizeNewlines (line row ++ rest) =
      normalizeNewlines (line row) ++ normalizeNewlines rest := by
  unfold line
  fun_induction normalizeNewlines row with
  | case1 => simp [normalizeNewlines]
  | case2 row ih => simpa [normalizeNewlines] using ih
  | case3 character row hnot ih =>
      cases row with
      | nil =>
          by_cases h : character = '\r'
          · simp [h, normalizeNewlines]
          · simp [normalizeNewlines, h]
      | cons second row =>
          have hplain : ∀ others, normalizeNewlines (character :: second :: others) =
              character :: normalizeNewlines (second :: others) := by
            intro others
            rw [normalizeNewlines]
            rintro more rfl hmore
            obtain ⟨rfl, rfl⟩ := List.cons.inj hmore
            exact hnot row rfl rfl
          simp only [List.cons_append, hplain] at ih ⊢
          rw [ih]

/-! ## Blanks at line ends -/

theorem lines_ne_nil (text : Text) : lines text ≠ [] := by
  cases text with
  | nil => simp [lines]
  | cons character rest =>
      rw [lines]
      split
      · exact List.cons_ne_nil _ _
      · split <;> exact List.cons_ne_nil _ _

theorem lines_cons {character : Char} (h : character ≠ '\n') (text : Text) :
    ∃ first others, lines text = first :: others ∧
      lines (character :: text) = (character :: first) :: others := by
  obtain ⟨first, others, hlines⟩ := List.exists_cons_of_ne_nil (lines_ne_nil text)
  exact ⟨first, others, hlines, by simp [lines, h, hlines]⟩

theorem lines_line (row rest : Text) : lines (line row ++ rest) = lines row ++ lines rest := by
  unfold line
  induction row with
  | nil => simp [lines]
  | cons character row ih =>
      by_cases h : character = '\n'
      · simpa [lines, h] using ih
      · obtain ⟨first, others, hlines, hcons⟩ := lines_cons h row
        rw [hlines] at ih
        rw [hcons, List.cons_append, List.cons_append, lines, if_neg h, ih]
        rfl

theorem unlines_cons (row : Text) {rows : List Text} (h : rows ≠ []) :
    unlines (row :: rows) = line row ++ unlines rows := by
  obtain ⟨first, others, rfl⟩ := List.exists_cons_of_ne_nil h
  simp [unlines, line]

theorem unlines_append {rows others : List Text} (hrows : rows ≠ []) (hothers : others ≠ []) :
    unlines (rows ++ others) = line (unlines rows) ++ unlines others := by
  induction rows with
  | nil => contradiction
  | cons row rows ih =>
      cases rows with
      | nil =>
          have hrow : unlines [row] = row := by simp [unlines]
          rw [hrow, ← unlines_cons row hothers]
          rfl
      | cons second rows =>
          have hrest := ih (List.cons_ne_nil _ _)
          rw [List.cons_append, unlines_cons row (by simp), hrest,
            unlines_cons row (List.cons_ne_nil _ _)]
          simp [line]

theorem trimLineEnds_line (row rest : Text) :
    trimLineEnds (line row ++ rest) = line (trimLineEnds row) ++ trimLineEnds rest := by
  have hrows : ∀ text : Text, (lines text).map dropTrailingBlanks ≠ [] := by
    intro text h
    exact lines_ne_nil text (List.map_eq_nil_iff.mp h)
  rw [trimLineEnds, lines_line, List.map_append, unlines_append (hrows row) (hrows rest)]
  rfl

private theorem dropTrailingBlanks_suffix_cons (character : Char) (row : Text) :
    dropTrailingBlanks row <:+ dropTrailingBlanks (character :: row) := by
  unfold dropTrailingBlanks
  rw [List.reverse_cons, List.dropWhile_append]
  split
  · rename_i hblank
    rw [List.isEmpty_iff.mp hblank]
    exact List.nil_suffix
  · rw [List.reverse_append]
    exact List.suffix_append _ _

private theorem trimLineEnds_suffix_cons (character : Char) (text : Text) :
    trimLineEnds text <:+ trimLineEnds (character :: text) := by
  by_cases h : character = '\n'
  · have hline := trimLineEnds_line [] text
    rw [h]
    exact ⟨line (trimLineEnds []), hline.symm⟩
  · obtain ⟨first, others, hlines, hcons⟩ := lines_cons h text
    obtain ⟨front, hfront⟩ := dropTrailingBlanks_suffix_cons character first
    refine ⟨front, ?_⟩
    rw [trimLineEnds, trimLineEnds, hlines, hcons, List.map_cons, List.map_cons, ← hfront]
    cases others with
    | nil => simp [unlines]
    | cons second others => simp [unlines]

private theorem trimLineEnds_suffix (front text : Text) :
    trimLineEnds text <:+ trimLineEnds (front ++ text) := by
  induction front with
  | nil => exact List.suffix_rfl
  | cons character front ih => exact ih.trans (trimLineEnds_suffix_cons _ _)

theorem lines_of_not_mem {row : Text} (h : '\n' ∉ row) : lines row = [row] := by
  induction row with
  | nil => rfl
  | cons character row ih =>
      simp only [List.mem_cons, not_or] at h
      rw [lines, if_neg (Ne.symm h.1), ih h.2]

private theorem trimLineEnds_blanks (row : Text) {indent : Text}
    (h : ∀ character ∈ indent, character = ' ' ∨ character = '\t') :
    trimLineEnds (line row ++ indent) = trimLineEnds (line row) := by
  have hline : '\n' ∉ indent := fun hmem => by simpa using h '\n' hmem
  have hdropped : dropTrailingBlanks indent = [] := by
    rw [dropTrailingBlanks, List.reverse_eq_nil_iff, List.dropWhile_eq_nil_iff]
    intro character hmem
    simpa using h character (List.mem_reverse.mp hmem)
  have hindent : trimLineEnds indent = trimLineEnds [] := by
    rw [trimLineEnds, lines_of_not_mem hline, List.map_singleton, hdropped]
    rfl
  rw [trimLineEnds_line, hindent, ← trimLineEnds_line, List.append_nil]

private theorem normalizeNewlines_of_not_mem {text : Text} (h : '\r' ∉ text) :
    normalizeNewlines text = text := by
  induction text with
  | nil => rfl
  | cons character text ih =>
      simp only [List.mem_cons, not_or] at h
      rw [normalizeNewlines, ih h.2]
      rintro _ rfl
      exact absurd rfl h.1

/-! ## Line endings written out -/

theorem expandNewlines_append (ending first second : Text) :
    expandNewlines ending (first ++ second) =
      expandNewlines ending first ++ expandNewlines ending second :=
  List.flatMap_append

theorem expandNewlines_line (ending row : Text) :
    expandNewlines ending (line row) = expandNewlines ending row ++ ending := by
  rw [line, expandNewlines_append]
  simp [expandNewlines]

theorem expandNewlines_within (ending : Text) {first second : Text} (h : first <:+: second) :
    expandNewlines ending first <:+: expandNewlines ending second := by
  obtain ⟨front, back, rfl⟩ := h
  rw [expandNewlines_append, expandNewlines_append]
  exact List.infix_append _ _ _

/-! ## Functions that work line by line -/

/-- What stands in front of a text does not change what becomes of the text, and a
line feed separates what is in front of it from what follows. -/
structure KeepsLines (clean : Text → Text) : Prop where
  suffix : ∀ front text, clean text <:+ clean (front ++ text)
  closed : ∀ row, ∃ other, clean (line row) = line other
  split : ∀ row rest, clean (line row ++ rest) = clean (line row) ++ clean rest

namespace KeepsLines

variable {clean other : Text → Text}

theorem comp (hother : KeepsLines other) (h : KeepsLines clean) :
    KeepsLines fun text => other (clean text) := by
  refine ⟨fun front text => ?_, fun row => ?_, fun row rest => ?_⟩
  · obtain ⟨before, hbefore⟩ := h.suffix front text
    rw [← hbefore]
    exact hother.suffix before (clean text)
  · obtain ⟨first, hfirst⟩ := h.closed row
    rw [hfirst]
    exact hother.closed first
  · obtain ⟨first, hfirst⟩ := h.closed row
    rw [h.split, hfirst, hother.split]

theorem keeps_line (h : KeepsLines clean) {row text : Text} (hrow : line row <:+: text) :
    clean (line row) <:+: clean text := by
  obtain ⟨front, back, rfl⟩ := hrow
  have hstarts : clean (line row) <+: clean (line row ++ back) := by
    rw [h.split]
    exact List.prefix_append _ _
  rw [List.append_assoc]
  exact hstarts.isInfix.trans (h.suffix front _).isInfix

end KeepsLines

theorem keepsLines_normalizeNewlines : KeepsLines normalizeNewlines := by
  refine ⟨normalizeNewlines_suffix, fun row => ?_, normalizeNewlines_line⟩
  obtain ⟨front, hfront⟩ := normalizeNewlines_suffix row ['\n']
  exact ⟨front, hfront.symm⟩

private theorem keepsLines_trimLineEnds : KeepsLines trimLineEnds := by
  have hclosed : ∀ row, trimLineEnds (line row) = line (trimLineEnds row) := by
    intro row
    have h := trimLineEnds_line row []
    rwa [List.append_nil, show trimLineEnds [] = [] from rfl, List.append_nil] at h
  refine ⟨trimLineEnds_suffix, fun row => ⟨_, hclosed row⟩, fun row rest => ?_⟩
  rw [trimLineEnds_line, hclosed]

private theorem keepsLines_expandNewlines (kind : LineEnd) :
    KeepsLines (expandNewlines kind.text) := by
  refine ⟨fun front text => ?_, fun row => ?_, fun row rest => expandNewlines_append _ _ _⟩
  · rw [expandNewlines_append]
    exact List.suffix_append _ _
  · rw [expandNewlines_line]
    cases kind with
    | lf => exact ⟨_, rfl⟩
    | crlf =>
        refine ⟨expandNewlines ['\r', '\n'] row ++ ['\r'], ?_⟩
        simp [line, LineEnd.text]

end Text

namespace Report

open Text

def cleaned (kind : LineEnd) (text : Text) : Text :=
  convertNewlines kind (trimLineEnds (normalizeNewlines text))

theorem keepsLines_cleaned (kind : LineEnd) : KeepsLines (cleaned kind) :=
  (keepsLines_expandNewlines kind).comp (keepsLines_normalizeNewlines.comp
    (keepsLines_trimLineEnds.comp keepsLines_normalizeNewlines))

/-! ## Comment lines -/

theorem exists_line_commentLines (content : Text) :
    ∃ row, commentLines content = line row := by
  obtain ⟨rows, last, hrows⟩ : ∃ rows last,
      lines (normalizeNewlines content) = rows ++ [last] :=
    ⟨_, _, (List.dropLast_append_getLast (lines_ne_nil _)).symm⟩
  refine ⟨rows.flatMap (fun row => line ("// ".toList ++ row)) ++ ("// ".toList ++ last), ?_⟩
  rw [commentLines, hrows, List.flatMap_append, List.flatMap_singleton, line, line]
  simp only [List.append_assoc]

theorem exists_line_warningLines (message : Message) :
    ∃ row, warningLines [message] = line row := by
  rw [warningLines, List.flatMap_singleton]
  exact exists_line_commentLines _

private theorem warningLines_within {messages : List Message} {message : Message}
    (h : message ∈ messages) : warningLines [message] <:+: warningLines messages := by
  obtain ⟨front, back, rfl⟩ := List.mem_iff_append.mp h
  rw [List.append_cons, warningLines, warningLines, List.flatMap_append, List.flatMap_append]
  exact List.infix_append _ _ _

theorem indentLines_eq (indent text : Text) :
    indentLines indent text = expandNewlines ('\n' :: indent) text := by
  unfold indentLines
  split
  · rename_i hempty
    rcases (Bool.or_eq_true _ _).mp hempty with htext | hindent
    · rw [List.isEmpty_iff.mp htext]
      rfl
    · rw [List.isEmpty_iff.mp hindent]
      have hsame : ∀ character : Char,
          (if character = '\n' then ['\n'] else [character]) = [character] := by
        intro character
        split <;> simp_all
      simp [expandNewlines, hsame]
  · rfl

/-! ## The lines of a message -/

/-- The lines of a message as they are put above a declaration. -/
def messageLines (indent : Text) (message : Message) : Text :=
  indentLines indent (normalizeNewlines (warningLines [message]))

theorem messageLines_within (indent : Text) {messages : List Message} {message : Message}
    (h : message ∈ messages) (tags : Text) :
    messageLines indent message <:+:
      indentLines indent (normalizeNewlines (warningLines messages ++ tags)) := by
  obtain ⟨row, hrow⟩ := exists_line_warningLines message
  have hinside : line row <:+: warningLines messages ++ tags := by
    rw [← hrow]
    exact (warningLines_within h).trans (List.prefix_append _ _).isInfix
  rw [messageLines, hrow, indentLines_eq, indentLines_eq]
  exact expandNewlines_within _ (keepsLines_normalizeNewlines.keeps_line hinside)

def IsIndent (indent : Text) : Prop :=
  ∀ character ∈ indent, character = ' ' ∨ character = '\t'

theorem isIndent_indentAt (source : Text) (position : Int) :
    IsIndent (Span.indentAt source position) := by
  intro character hmem
  simp only [Span.indentAt] at hmem
  split at hmem
  · rename_i hall
    simpa using List.all_eq_true.mp hall character hmem
  · cases hmem

theorem cleaned_messageLines_within {indent raw : Text} {message : Message}
    (kind : LineEnd) (hindent : IsIndent indent)
    (h : messageLines indent message <:+: raw) :
    cleaned kind (messageLines indent message) <:+: cleaned kind raw := by
  obtain ⟨row, hrow⟩ := exists_line_warningLines message
  obtain ⟨first, hfirst⟩ := keepsLines_normalizeNewlines.closed row
  obtain ⟨other, hother⟩ : ∃ other, messageLines indent message = line other ++ indent := by
    refine ⟨expandNewlines ('\n' :: indent) first, ?_⟩
    rw [messageLines, hrow, hfirst, indentLines_eq, expandNewlines_line]
    simp [line]
  have hreturn : normalizeNewlines indent = indent := by
    apply normalizeNewlines_of_not_mem
    intro hmem
    simpa using hindent _ hmem
  obtain ⟨last, hlast⟩ := keepsLines_normalizeNewlines.closed other
  -- The indent of the next line belongs to no line of the message and is trimmed.
  have htrimmed : cleaned kind (line other ++ indent) = cleaned kind (line other) := by
    rw [cleaned, cleaned, normalizeNewlines_line, hreturn, hlast, trimLineEnds_blanks _ hindent]
  rw [hother, htrimmed]
  apply (keepsLines_cleaned kind).keeps_line
  rw [hother] at h
  exact (List.prefix_append _ _).isInfix.trans h

end Report

end ApiSurface
