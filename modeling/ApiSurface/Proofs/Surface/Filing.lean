import ApiSurface.Proofs.Surface.SortKeys

/-!
# How names are filed

Sorting by key files a name with a leading underscore directly behind the same
name without it.  The key of `_x` is the key of `x` with a mark at its end, so
that whatever comes between the two goes on where the key of `x` ends.  Such a
key has the lower-case form of `x` in front of its asterisk.  As lower case
never shortens a text, a name with that lower-case form that begins like `x` is
`x` itself.
-/

namespace ApiSurface

namespace Text

/-! ## Lower case never shortens -/

theorem lowerWidth_pos (character : Char) : 0 < lowerWidth character := by
  unfold lowerWidth lowerChar
  split
  · decide
  · split
    · exact Nat.one_pos
    · split
      · exact Nat.two_pos
      · exact Nat.one_pos

theorem length_le_length_lower : ∀ text : Text, text.length ≤ (lower text).length
  | [] => Nat.zero_le _
  | character :: rest => by
      have hrest := length_le_length_lower rest
      have hwidth := lowerWidth_pos character
      simp only [lower, length_lowerFrom, List.map_cons, List.sum_cons,
        List.length_cons] at hrest ⊢
      omega

theorem eq_nil_of_lower_append {text rest : Text} (h : lower (text ++ rest) = lower text) :
    rest = [] := by
  have hlength := congrArg List.length h
  rw [length_lower_append] at hlength
  have hrest := length_le_length_lower rest
  exact List.length_eq_zero_iff.mp (by omega)

/-! ## Between a text and its continuations -/

theorem precedes_append : ∀ text rest : Text, precedes text (text ++ rest) = true
  | [], _ => rfl
  | character :: text, rest => by
      simpa [precedes] using precedes_append text rest

theorem continues_of_between : ∀ {text middle rest : Text}, precedes text middle = true →
    precedes middle (text ++ rest) = true → ∃ more, middle = text ++ more
  | [], middle, _, _, _ => ⟨middle, rfl⟩
  | _ :: _, [], _, h, _ => by simp [precedes] at h
  | character :: text, other :: middle, rest, hfirst, hlast => by
      simp only [List.cons_append, precedes] at hfirst hlast
      by_cases hsame : character = other
      · subst hsame
        simp only [if_true] at hfirst hlast
        obtain ⟨more, rfl⟩ := continues_of_between hfirst hlast
        exact ⟨more, rfl⟩
      · simp only [hsame, Ne.symm hsame, if_false, decide_eq_true_eq] at hfirst hlast
        omega

end Text

/-! ## The key of a name with an underscore -/

theorem sortKey_of_ne {name : Text} (h : name ≠ []) (hplain : name.head? ≠ some '_') :
    sortKey name = Text.lower name ++ '*' :: name := by
  rw [sortKey_eq h]
  rcases underscore_cases name with ⟨rest, rfl⟩ | ⟨hstem, htail⟩
  · exact absurd rfl hplain
  · rw [hstem, htail]

theorem sortKey_underscore {name : Text} (h : name ≠ []) (hplain : name.head? ≠ some '_') :
    sortKey ('_' :: name) = sortKey name ++ ['!', '_'] := by
  rw [sortKey_of_ne h hplain, sortKey_eq (List.cons_ne_nil _ _)]
  simp [sortStem, sortTail]

/-- A name whose key goes on where that of another one ends is the other name, with
or without an underscore in front. -/
theorem eq_of_sortKey_continues {name other more : Text} (hname : name ≠ [])
    (hplain : name.head? ≠ some '_') (hother : '*' ∉ other)
    (h : sortKey other = sortKey name ++ more) : other = name ∨ other = '_' :: name := by
  have hthere : other ≠ [] := by
    rintro rfl
    rw [sortKey_of_ne hname hplain] at h
    simp [sortKey] at h
  rw [sortKey_eq hthere, sortKey_of_ne hname hplain, List.append_assoc,
    List.cons_append] at h
  obtain ⟨hstem, -, htail⟩ := (List.append_cons_inj_of_notMem
    (asterisk_not_mem_lower_sortStem hother) (asterisk_not_mem_sortTail hother)).mp h
  rcases underscore_cases other with ⟨rest, rfl⟩ | ⟨hsame, hown⟩
  · -- One of the two names begins with the other, and lower case tells them apart.
    refine .inr (congrArg _ ?_)
    change Text.lower rest = Text.lower name at hstem
    change rest ++ ['!', '_'] = name ++ more at htail
    rcases List.append_eq_append_iff.mp htail with ⟨gap, rfl, -⟩ | ⟨gap, rfl, -⟩
    · rw [Text.eq_nil_of_lower_append hstem.symm, List.append_nil]
    · rw [Text.eq_nil_of_lower_append hstem, List.append_nil]
  · refine .inl ?_
    rw [hsame] at hstem
    rw [hown] at htail
    subst htail
    rw [Text.eq_nil_of_lower_append hstem, List.append_nil]

/-! ## Sorted names -/

def filedBefore (one other : String) : Bool :=
  Text.precedes (sortKey one.toList) (sortKey other.toList)

theorem filedBefore_trans (one other third : String) (hfirst : filedBefore one other = true)
    (hsecond : filedBefore other third = true) : filedBefore one third = true :=
  Text.precedes_trans hfirst hsecond

private theorem filedBefore_total (one other : String) :
    (filedBefore one other || filedBefore other one) = true :=
  Text.precedes_total _ _

theorem filedBefore_antisymm {one other : String} (h : '*' ∉ one.toList)
    (hfirst : filedBefore one other = true) (hsecond : filedBefore other one = true) :
    one = other :=
  String.toList_inj.mp (sortKey_injective h (Text.precedes_antisymm hfirst hsecond))

theorem sortNames_texts (names : List String) :
    sortNames (names.map .text) = .ok ((names.mergeSort filedBefore).map .text) := by
  let keyed (name : String) : Text × Datum := (sortKey name.toList, .text name)
  have hkeyed : ((names.map Datum.text).mapM fun name => do pure (← sortKeyOf name, name) :
      Except Fault (List (Text × Datum))) = .ok (names.map keyed) := by
    induction names with
    | nil => rfl
    | cons name rest ih =>
        rw [List.map_cons, List.mapM_cons, ih, sortKeyOf_text]
        rfl
  have hsorted : (names.mergeSort filedBefore).map keyed =
      (names.map keyed).mergeSort fun first second => Text.precedes first.1 second.1 :=
    List.map_mergeSort fun _ _ _ _ => rfl
  rw [sortNames, sortByKey, hkeyed]
  change Except.ok _ = _
  rw [← hsorted, List.map_map]
  rfl

theorem filed_pairwise (names : List String) :
    (names.mergeSort filedBefore).Pairwise fun one other => filedBefore one other = true :=
  List.pairwise_mergeSort filedBefore_trans filedBefore_total names

private theorem mergeSort_filedBefore_eq {names rearranged : List String}
    (hnames : ∀ name ∈ names, '*' ∉ name.toList) (h : rearranged.Perm names) :
    rearranged.mergeSort filedBefore = names.mergeSort filedBefore := by
  have hperm := ((List.mergeSort_perm rearranged filedBefore).trans h).trans
    (List.mergeSort_perm names filedBefore).symm
  refine hperm.eq_of_pairwise ?_ (filed_pairwise rearranged) (filed_pairwise names)
  intro one other hone _
  have hmem : one ∈ names := h.mem_iff.mp (List.mem_mergeSort.mp hone)
  exact filedBefore_antisymm (hnames one hmem)

theorem eq_of_filed_between {name other : String} (hname : name ≠ "")
    (hplain : name.toList.head? ≠ some '_') (hother : '*' ∉ other.toList)
    (hfirst : filedBefore name other = true) (hlast : filedBefore other ("_" ++ name) = true) :
    other = name ∨ other = "_" ++ name := by
  have hthere : name.toList ≠ [] := by simpa using hname
  have hmarked : ("_" ++ name).toList = '_' :: name.toList := by simp
  rw [filedBefore, hmarked, sortKey_underscore hthere hplain] at hlast
  obtain ⟨more, hmore⟩ := Text.continues_of_between hfirst hlast
  rw [← String.toList_inj, ← String.toList_inj, hmarked]
  exact eq_of_sortKey_continues hthere hplain hother hmore

private theorem filedBefore_underscore {name : String} (hname : name ≠ "")
    (hplain : name.toList.head? ≠ some '_') : filedBefore name ("_" ++ name) = true := by
  have hthere : name.toList ≠ [] := by simpa using hname
  have hmarked : ("_" ++ name).toList = '_' :: name.toList := by simp
  rw [filedBefore, hmarked, sortKey_underscore hthere hplain]
  exact Text.precedes_append _ _

theorem ne_underscore_append (name : String) : name ≠ "_" ++ name := by
  intro h
  have hlength := congrArg (fun text : String => text.toList.length) h
  simp at hlength

private theorem adjacent_of_pairwise {α : Type} {before : α → α → Prop} {values : List α}
    (hordered : values.Pairwise before) (hnodup : values.Nodup) {one other : α}
    (hone : one ∈ values) (hother : other ∈ values) (hne : one ≠ other)
    (hnot : ¬ before other one)
    (hbetween : ∀ value ∈ values, before one value → before value other →
      value = one ∨ value = other) :
    ∃ front back, values = front ++ one :: other :: back := by
  obtain ⟨front, rest, rfl⟩ := List.append_of_mem hone
  obtain ⟨-, hrest, hfront⟩ := List.pairwise_append.mp hordered
  have hbehind : other ∈ rest := by
    rcases List.mem_append.mp hother with hother | hother
    · exact absurd (hfront other hother one (by simp)) hnot
    · exact (List.mem_cons.mp hother).resolve_left hne.symm
  obtain ⟨gap, back, rfl⟩ := List.append_of_mem hbehind
  cases gap with
  | nil => exact ⟨front, back, rfl⟩
  | cons value gap =>
      -- A value in the gap would be one of the two, and then it would come twice.
      obtain ⟨hnext, hgap⟩ := List.pairwise_cons.mp hrest
      have hlast : before value other := (List.pairwise_append.mp hgap).2.2 value (by simp)
        other (by simp)
      have hdistinct := (List.nodup_append.mp hnodup).2.1
      rcases hbetween value (by simp) (hnext value (by simp)) hlast with rfl | rfl
      · simp at hdistinct
      · simp at hdistinct

/-- Names without asterisks that are not empty have keys of their own, so that they
are filed in one way, however they are arranged.  The name with an underscore in front
comes after the name without it, and no name at all comes between the two; where both
are among the names, one directly follows the other. -/
theorem sortNames_files_underscored {names : List String}
    (hnames : ∀ name ∈ names, name ≠ "" ∧ '*' ∉ name.toList) :
    (∀ one ∈ names, ∀ other ∈ names, sortKey one.toList = sortKey other.toList → one = other) ∧
    (∃ filed : List String, filed.Perm names ∧ ∀ rearranged : List String,
      rearranged.Perm names → sortNames (rearranged.map .text) = .ok (filed.map .text)) ∧
    ∀ name ∈ names, name.toList.head? ≠ some '_' →
      (filedBefore name ("_" ++ name) = true ∧ filedBefore ("_" ++ name) name = false) ∧
      (∀ other : String, '*' ∉ other.toList → filedBefore name other = true →
        filedBefore other ("_" ++ name) = true → other = name ∨ other = "_" ++ name) ∧
      (names.Nodup → "_" ++ name ∈ names → ∃ front back : List String,
        sortNames (names.map .text) =
          .ok ((front ++ name :: ("_" ++ name) :: back).map .text)) := by
  refine ⟨?_, ?_, ?_⟩
  · intro one hone other _ hkey
    exact String.toList_inj.mp (sortKey_injective (hnames one hone).2 hkey)
  · refine ⟨names.mergeSort filedBefore, List.mergeSort_perm _ _, fun rearranged hperm => ?_⟩
    rw [sortNames_texts, mergeSort_filedBefore_eq (fun name hname => (hnames name hname).2) hperm]
  · intro name hname hplain
    obtain ⟨hthere, hasterisk⟩ := hnames name hname
    have hafter := filedBefore_underscore hthere hplain
    have hnot : ¬ filedBefore ("_" ++ name) name = true := fun h =>
      ne_underscore_append name (filedBefore_antisymm hasterisk hafter h)
    refine ⟨⟨hafter, Bool.eq_false_iff.mpr hnot⟩,
      fun other hother => eq_of_filed_between hthere hplain hother, ?_⟩
    intro hnodup hmarked
    have hperm := List.mergeSort_perm names filedBefore
    obtain ⟨front, back, hfiled⟩ := adjacent_of_pairwise (filed_pairwise names)
      (hperm.nodup_iff.mpr hnodup) (hperm.mem_iff.mpr hname) (hperm.mem_iff.mpr hmarked)
      (ne_underscore_append name) hnot fun other hother =>
        eq_of_filed_between hthere hplain (hnames other (hperm.mem_iff.mp hother)).2
    exact ⟨front, back, by rw [sortNames_texts, hfiled]⟩

/-- Names that come close to each other: with marks like those of keys, with capitals,
with a letter that lower case makes longer, and with a sigma at the end of a word. -/
def closeNames : List String :=
  ["_İ", "b", "a!_", "_b", "B", "_a", "b!", "a", "İ", "ΑΣ", "ας"]

theorem sortNames_files_underscored_close :
    (∀ name ∈ closeNames, name ≠ "" ∧ '*' ∉ name.toList) ∧
    (∃ filed : List String, filed.Perm closeNames ∧
      sortNames (closeNames.map .text) = .ok (filed.map .text) ∧
      sortNames (closeNames.reverse.map .text) = .ok (filed.map .text)) ∧
    (∃ front back : List String, sortNames (closeNames.map .text) =
      .ok ((front ++ "a" :: "_a" :: back).map .text)) ∧
    ∃ front back : List String, sortNames (closeNames.map .text) =
      .ok ((front ++ "İ" :: "_İ" :: back).map .text) := by
  have hnames : ∀ name ∈ closeNames, name ≠ "" ∧ '*' ∉ name.toList := by decide +kernel
  have hnodup : closeNames.Nodup := by decide +kernel
  obtain ⟨-, ⟨filed, hperm, hfiled⟩, hpairs⟩ := sortNames_files_underscored hnames
  refine ⟨hnames, ⟨filed, hperm, hfiled _ (.refl _), hfiled _ (List.reverse_perm _)⟩, ?_, ?_⟩
  · exact (hpairs "a" (by decide +kernel) (by decide +kernel)).2.2 hnodup (by decide +kernel)
  · exact (hpairs "İ" (by decide +kernel) (by decide +kernel)).2.2 hnodup (by decide +kernel)

end ApiSurface
