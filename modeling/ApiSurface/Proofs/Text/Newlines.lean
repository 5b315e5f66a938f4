import ApiSurface.Rollup

/-!
# Line endings that can be taken back

A document that was written with carriage returns can be read as if it had been written
with line feeds.  Carriage returns that stood in the text already do not get in the way:
the one that is written in front of a line feed is the one that is dropped.
-/

namespace ApiSurface

namespace Text

theorem expandNewlines_cons (ending : Text) (character : Char) (text : Text) :
    expandNewlines ending (character :: text) =
      (if character = '\n' then ending else [character]) ++ expandNewlines ending text :=
  List.flatMap_cons

/-! ## Written carriage returns -/

theorem head?_expandNewlines_crlf (text : Text) :
    (expandNewlines LineEnd.crlf.text text).head? ≠ some '\n' := by
  cases text with
  | nil => simp [expandNewlines]
  | cons character text =>
      rw [expandNewlines_cons]
      split
      · simp [LineEnd.text]
      · simpa

private theorem normalizeNewlines_expandNewlines_crlf (text : Text) :
    normalizeNewlines (expandNewlines LineEnd.crlf.text text) = text := by
  induction text with
  | nil => rfl
  | cons character text ih =>
      rw [expandNewlines_cons]
      split
      · rename_i hfeed
        rw [hfeed]
        exact congrArg ('\n' :: ·) ih
      · -- A carriage return of the text is not taken for the one that was written.
        rw [List.singleton_append, normalizeNewlines, ih]
        rintro rest rfl hrest
        exact head?_expandNewlines_crlf text (by rw [hrest]; rfl)

private theorem return_before_feed (text : Text) {front back : Text}
    (h : expandNewlines LineEnd.crlf.text text = front ++ '\n' :: back) :
    ['\r'] <:+ front := by
  induction text generalizing front with
  | nil => simp [expandNewlines] at h
  | cons character text ih =>
      rw [expandNewlines_cons] at h
      split at h
      · match front, h with
        | [], h => simp [LineEnd.text] at h
        | [first], h =>
            obtain ⟨rfl, -⟩ := List.cons.inj h
            exact List.suffix_rfl
        | first :: second :: front, h =>
            obtain ⟨-, h⟩ := List.cons.inj h
            obtain ⟨-, h⟩ := List.cons.inj h
            exact (ih h).trans (List.suffix_append [first, second] front)
      · rename_i hplain
        cases front with
        | nil => exact absurd (List.cons.inj h).1 hplain
        | cons first front => exact (ih (List.cons.inj h).2).trans (List.suffix_cons _ _)

private theorem convertNewlines_convertNewlines_crlf (ending : LineEnd) (text : Text) :
    convertNewlines ending (convertNewlines .crlf text) = convertNewlines ending text := by
  simp only [convertNewlines, normalizeNewlines_expandNewlines_crlf]

/-! ## Everything else -/

theorem filter_normalizeNewlines (text : Text) :
    (normalizeNewlines text).filter (· ≠ '\r') = text.filter (· ≠ '\r') := by
  induction text using normalizeNewlines.induct with
  | case1 => rfl
  | case2 rest ih => simpa [normalizeNewlines] using ih
  | case3 character rest hplain ih =>
      rw [normalizeNewlines]
      · simp only [List.filter_cons, ih]
      · exact hplain

private theorem filter_expandNewlines_crlf (text : Text) :
    (expandNewlines LineEnd.crlf.text text).filter (· ≠ '\r') =
      text.filter (· ≠ '\r') := by
  induction text with
  | nil => rfl
  | cons character text ih =>
      rw [expandNewlines_cons, List.filter_append, ih]
      split
      · rename_i hfeed
        rw [hfeed]
        rfl
      · rw [← List.filter_append, List.singleton_append]

end Text

/-- A text written with carriage returns can be written again with line endings of any
kind, the system's among them, as if it were the first text, and a name that is no kind
fails for both.  Every line feed in it follows a carriage return, and only carriage
returns tell it from the text. -/
theorem writeNewlines_crlf_reversible (native : LineEnd) (text : Text) :
    ∃ written, writeNewlines ⟨.text "crlf", native⟩ text = .ok written ∧
      (∀ newline, writeNewlines newline written = writeNewlines newline text) ∧
      (∀ front back, written = front ++ '\n' :: back → ['\r'] <:+ front) ∧
      written.filter (· ≠ '\r') = text.filter (· ≠ '\r') := by
  refine ⟨Text.convertNewlines .crlf text, rfl, fun newline => ?_, fun front back h => ?_, ?_⟩
  · simp only [writeNewlines, Text.convertNewlines_convertNewlines_crlf]
  · exact Text.return_before_feed _ h
  · rw [Text.convertNewlines, Text.filter_expandNewlines_crlf, Text.filter_normalizeNewlines]

/-- Two carriage returns in front of a line feed, a line feed alone and a carriage return
at the end. -/
theorem writeNewlines_crlf_reversible_mixed :
    ∃ written,
      writeNewlines ⟨.text "crlf", .lf⟩ ['a', '\r', '\r', '\n', '\n', 'b', '\r'] =
        .ok written ∧
      written = ['a', '\r', '\r', '\n', '\r', '\n', 'b', '\r'] ∧
      writeNewlines ⟨.text "os", .lf⟩ written = .ok ['a', '\r', '\n', '\n', 'b', '\r'] ∧
      ['\r'] <:+ ['a', '\r', '\r', '\n', '\r'] := by
  obtain ⟨written, hwritten, hagain, hreturn, -⟩ :=
    writeNewlines_crlf_reversible .lf ['a', '\r', '\r', '\n', '\n', 'b', '\r']
  cases hwritten
  exact ⟨_, rfl, rfl, hagain _, hreturn _ ['b', '\r'] rfl⟩

end ApiSurface
