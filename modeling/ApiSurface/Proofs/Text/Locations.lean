import ApiSurface.Proofs.Report.Lines
import ApiSurface.Proofs.Tree.Sources

/-!
# Locations that lead back

The line and the column of a place name one offset of a text.  In front of the
place stand whole lines, as many as there are line feeds, and the beginning of the
line that holds it.
-/

namespace ApiSurface

namespace Text

/-! ## Whole lines -/

/-- Every text is made of whole lines and of the beginning of one more. -/
theorem exists_rows (text : Text) :
    ∃ (rows : List Text) (tail : Text), text = rows.flatMap line ++ tail ∧
      (∀ row ∈ rows, '\n' ∉ row) ∧ '\n' ∉ tail := by
  induction text with
  | nil => exact ⟨[], [], by simp⟩
  | cons character rest ih =>
      obtain ⟨rows, tail, rfl, hrows, htail⟩ := ih
      by_cases h : character = '\n'
      · exact ⟨[] :: rows, tail, by simp [line, h], by simpa using hrows, htail⟩
      · cases rows with
        | nil => exact ⟨[], character :: tail, by simp, by simp, by simp [Ne.symm h, htail]⟩
        | cons row rows =>
            refine ⟨(character :: row) :: rows, tail, by simp [line], ?_, htail⟩
            simpa [Ne.symm h] using hrows

variable {rows : List Text} {tail : Text}

private theorem lines_rows (h : ∀ row ∈ rows, '\n' ∉ row) (rest : Text) :
    lines (rows.flatMap line ++ rest) = rows ++ lines rest := by
  induction rows with
  | nil => rfl
  | cons row rows ih =>
      obtain ⟨hrow, hrows⟩ := List.forall_mem_cons.mp h
      rw [List.flatMap_cons, List.append_assoc, lines_line, lines_of_not_mem hrow, ih hrows]
      rfl

private theorem count_rows (h : ∀ row ∈ rows, '\n' ∉ row) :
    (rows.flatMap line).count '\n' = rows.length := by
  induction rows with
  | nil => rfl
  | cons row rows ih =>
      obtain ⟨hrow, hrows⟩ := List.forall_mem_cons.mp h
      simp [line, List.count_eq_zero_of_not_mem hrow, ih hrows]

private theorem length_rows (rows : List Text) :
    (rows.flatMap line).length = (rows.map List.length).sum + rows.length := by
  induction rows with
  | nil => rfl
  | cons row rows ih =>
      simp only [List.flatMap_cons, List.length_append, ih, line, List.map_cons,
        List.sum_cons, List.length_cons, List.length_nil]
      omega

private theorem takeWhile_reverse_rows (rows : List Text) (h : '\n' ∉ tail) :
    (rows.flatMap line ++ tail).reverse.takeWhile (· ≠ '\n') = tail.reverse := by
  have htail : ∀ character ∈ tail.reverse, decide (character ≠ '\n') = true := by
    intro character hmem
    simpa using fun heq : character = '\n' => h (heq ▸ List.mem_reverse.mp hmem)
  rw [List.reverse_append, List.takeWhile_append_of_pos htail]
  -- The last of the whole lines ends in a line feed.
  rcases List.eq_nil_or_concat rows with rfl | ⟨others, last, rfl⟩
  · simp
  · simp [line]

private theorem lines_append_of_not_mem (h : '\n' ∉ tail) (rest : Text) :
    ∃ first others, lines (tail ++ rest) = (tail ++ first) :: others := by
  induction tail with
  | nil => exact List.exists_cons_of_ne_nil (lines_ne_nil rest)
  | cons character tail ih =>
      simp only [List.mem_cons, not_or] at h
      obtain ⟨first, others, hlines⟩ := ih h.2
      obtain ⟨_, _, hrest, hcons⟩ := lines_cons (Ne.symm h.1) (tail ++ rest)
      rw [hlines] at hrest
      cases hrest
      exact ⟨first, others, hcons⟩

/-! ## The line of an offset -/

theorem lineStart_le (text : Text) (offset : Nat) : text.lineStart offset ≤ offset :=
  (Nat.sub_le _ _).trans (List.length_take_le _ _)

/-- The lines before the one that holds an offset are as many as there are line
feeds before it, and they fill the text up to the start of that line. -/
theorem lines_at (text : Text) (offset : Nat) :
    ∃ rows row others, lines text = rows ++ row :: others ∧
      rows.length = text.lineFeedsBefore offset ∧
      (rows.map List.length).sum + rows.length = text.lineStart offset ∧
      (text.take offset).length ≤ text.lineStart offset + row.length := by
  obtain ⟨rows, tail, hfront, hrows, htail⟩ := exists_rows (text.take offset)
  obtain ⟨first, others, hlines⟩ := lines_append_of_not_mem htail (text.drop offset)
  have hstart : text.lineStart offset = (rows.flatMap line).length := by
    simp only [lineStart, hfront, takeWhile_reverse_rows rows htail, List.length_append,
      List.length_reverse]
    omega
  refine ⟨rows, tail ++ first, others, ?_, ?_, ?_, ?_⟩
  · calc lines text
        = lines (rows.flatMap line ++ (tail ++ text.drop offset)) := by
          rw [← List.append_assoc, ← hfront, List.take_append_drop]
      _ = rows ++ (tail ++ first) :: others := by rw [lines_rows hrows, hlines]
  · rw [lineFeedsBefore, hfront, List.count_append, count_rows hrows,
      List.count_eq_zero_of_not_mem htail, Nat.add_zero]
  · rw [hstart, length_rows]
  · rw [hstart, hfront, List.length_append, List.length_append]
    omega

/-- The position that a line and a column name, both counted from one. -/
def positionAt (text : Text) (line : Nat) (column : Int) : Int :=
  (((text.lines.take (line - 1)).map List.length).sum + (line - 1) : Nat) + (column - 1)

end Text

/-! ## Locations -/

namespace Location

variable (file : Nat) (path : Datum) (text : Text) (position : Int)

/-- A location leads back to its position, also when that lies outside of the text. -/
theorem positionAt_at :
    text.positionAt (Location.at file path text position).line
      (Location.at file path text position).column = position := by
  obtain ⟨rows, row, others, hlines, hlength, hstart, -⟩ :=
    text.lines_at (text.offset position)
  simp only [Text.positionAt, Location.at, Nat.add_sub_cancel, ← hlength, ← hstart, hlines,
    List.take_left]
  omega

private theorem one_le_column_at_iff :
    1 ≤ (Location.at file path text position).column ↔ 0 ≤ position := by
  have hle := text.lineStart_le (text.offset position)
  have hoffset : 0 ≤ position → (text.offset position : Int) = position := by
    unfold Text.offset
    split <;> omega
  simp only [Location.at]
  omega

private theorem column_at_le (h : position ≤ text.length) :
    ∃ row, text.lines[(Location.at file path text position).line - 1]? = some row ∧
      (Location.at file path text position).column ≤ row.length + 1 := by
  obtain ⟨rows, row, others, hlines, hlength, -, hwithin⟩ :=
    text.lines_at (text.offset position)
  have hinside : position ≤ (text.take (text.offset position)).length := by
    rw [List.length_take, Text.offset]
    split <;> omega
  refine ⟨row, ?_, ?_⟩
  · simp [Location.at, ← hlength, hlines]
  · simp only [Location.at]
    omega

end Location

theorem Sources.build_start_nonneg {sources : Sources} {path : Datum} {parts : List Part}
    {file : SourceFile} (h : (sources.build path parts).2 = .ok file) {node : Node}
    (hnode : node ∈ file.root.walk) : 0 ≤ node.start := by
  obtain ⟨-, -, hfits⟩ := sources.build_builds path parts
  exact ((hfits file h).of_mem_walk hnode).start_nonneg

/-- Lines count from one, and so do columns: at every offset, and so at every node of a file
that was built.  Only a start below zero is no offset.  A column lies in its line or right
behind it, and a location leads back to the start of its node, so in one file only nodes
with the same start have the same location. -/
theorem Site.location_decodes (site : Site)
    (hstart : site.node.start ≤ site.file.text.length) :
    let text := site.file.text
    let location := site.location
    1 ≤ location.line ∧ (1 ≤ location.column ↔ 0 ≤ site.node.start) ∧
    (∀ (sources : Sources) (path : Datum) (parts : List Part),
      (sources.build path parts).2 = .ok site.file → site.node ∈ site.file.root.walk →
        1 ≤ location.column) ∧
    (∃ row, text.lines[location.line - 1]? = some row ∧
      location.column ≤ row.length + 1) ∧
    site.node.start = text.positionAt location.line location.column ∧
    ∀ other : Site, other.file = site.file → other.location.line = location.line →
      other.location.column = location.column → other.node.start = site.node.start := by
  intro text location
  have hcolumn : 1 ≤ location.column ↔ 0 ≤ site.node.start :=
    Location.one_le_column_at_iff _ _ _ _
  have hdecodes : ∀ site : Site,
      site.file.text.positionAt site.location.line site.location.column = site.node.start :=
    fun site => Location.positionAt_at _ _ _ _
  refine ⟨Nat.le_add_left 1 _, hcolumn, ?_, Location.column_at_le _ _ _ _ hstart,
    (hdecodes site).symm, ?_⟩
  · intro sources path parts hbuilt hnode
    exact hcolumn.mpr (Sources.build_start_nonneg hbuilt hnode)
  · intro other hfile hline hcolumn
    rw [← hdecodes other, ← hdecodes site, hfile, hline, hcolumn]

/-- A node on the second of two line feeds, where a line is empty. -/
def blankLineSite : Site :=
  ⟨⟨.text "index.d.ts", ['a', 'b', '\n', '\n', 'c'], .mk .sourceFile 0 5 2 .null []⟩, [],
    .mk .identifier 3 3 1 .null []⟩

theorem Site.location_decodes_blank_line :
    blankLineSite.node.start ≤ blankLineSite.file.text.length ∧
    1 ≤ blankLineSite.location.column ∧
    blankLineSite.file.text.positionAt 2 1 = 3 ∧
    (∃ row, blankLineSite.file.text.lines[1]? = some row ∧ (1 : Int) ≤ row.length + 1) ∧
    ∀ other : Site, other.file = blankLineSite.file → other.location.line = 2 →
      other.location.column = 1 → other.node.start = 3 := by
  have hinside : blankLineSite.node.start ≤ blankLineSite.file.text.length := by decide
  obtain ⟨-, hcolumn, -, hrow, hposition, hsame⟩ := location_decodes blankLineSite hinside
  exact ⟨hinside, hcolumn.mpr (by decide), hposition.symm, hrow, hsame⟩

end ApiSurface
