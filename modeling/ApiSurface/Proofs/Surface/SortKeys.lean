import ApiSurface.Proofs.Success
import ApiSurface.Surface.Entity

/-!
# Sort keys

Names are filed by keys that put the lower-case form of a name before the name
itself, with an asterisk between them.  Names without an asterisk have different
keys, so that sorting leaves no choice of order among different names.
-/

namespace ApiSurface

namespace Text

/-! ## The order of texts -/

theorem precedes_total : ∀ first second : Text,
    (precedes first second || precedes second first) = true
  | [], _ => by simp [precedes]
  | _ :: _, [] => by simp [precedes]
  | one :: left, other :: right => by
      by_cases h : one = other
      · simpa [precedes, h] using precedes_total left right
      · have hcodes : one.toNat ≠ other.toNat := fun hsame => h (Char.toNat_inj.mp hsame)
        simp only [precedes, h, Ne.symm h, if_false, Bool.or_eq_true, decide_eq_true_eq]
        omega

theorem precedes_trans : ∀ {first second third : Text}, precedes first second = true →
    precedes second third = true → precedes first third = true
  | [], _, _, _, _ => by simp [precedes]
  | _ :: _, [], _, h, _ => by simp [precedes] at h
  | _ :: _, _ :: _, [], _, h => by simp [precedes] at h
  | a :: left, b :: middle, c :: right, hfirst, hsecond => by
      simp only [precedes] at hfirst hsecond ⊢
      by_cases hab : a = b
      · subst hab
        by_cases hac : a = c
        · subst hac
          simp only [if_true] at hfirst hsecond ⊢
          exact precedes_trans hfirst hsecond
        · simpa [hac] using hsecond
      · by_cases hbc : b = c
        · subst hbc
          simpa [hab] using hfirst
        · simp only [hab, hbc, if_false, decide_eq_true_eq] at hfirst hsecond
          have hac : a ≠ c := by
            rintro rfl
            omega
          simp only [hac, if_false, decide_eq_true_eq]
          omega

theorem precedes_antisymm : ∀ {first second : Text}, precedes first second = true →
    precedes second first = true → first = second
  | [], [], _, _ => rfl
  | [], _ :: _, _, h => by simp [precedes] at h
  | _ :: _, [], h, _ => by simp [precedes] at h
  | one :: left, other :: right, hfirst, hsecond => by
      simp only [precedes] at hfirst hsecond
      by_cases h : one = other
      · subst h
        simp only [if_true] at hfirst hsecond
        rw [precedes_antisymm hfirst hsecond]
      · simp only [h, Ne.symm h, if_false, decide_eq_true_eq] at hfirst hsecond
        omega

/-! ## Lower case -/

theorem asterisk_of_ofNat {code : Nat} (h : Char.ofNat code = '*') : code = 42 := by
  have hcode := congrArg Char.toNat h
  rw [Char.toNat_ofNat] at hcode
  split at hcode
  · exact hcode
  · cases hcode

private theorem moveBy_ne_asterisk {character : Char} (h : character ≠ '*') :
    moveBy lowerStrides character ≠ '*' := by
  have hstrides : ∀ stride ∈ lowerStrides, 42 < (stride.first : Int) + stride.distance := by
    decide +kernel
  unfold moveBy
  split
  · rename_i stride hfound
    intro hmoved
    have hcode := asterisk_of_ofNat hmoved
    have hstride := hstrides stride (List.mem_of_find?_eq_some hfound)
    have hcovers := List.find?_some hfound
    simp only [Stride.covers, Bool.and_eq_true, decide_eq_true_eq] at hcovers
    omega
  · exact h

private theorem asterisk_not_mem_lowerChar {character : Char} (h : character ≠ '*') :
    '*' ∉ lowerChar character := by
  have hplain : ∀ code < 0x80, code ≠ 42 → (Char.ofNat code).toLower ≠ '*' := by decide
  unfold lowerChar
  split
  · rename_i hcode
    have hlower := hplain character.toNat hcode fun hsame => h (Char.toNat_inj.mp hsame)
    rw [Char.ofNat_toNat] at hlower
    simpa using hlower.symm
  · split
    · decide
    · simpa using (moveBy_ne_asterisk h).symm

theorem asterisk_not_mem_lowerFrom : ∀ (before : Text) {text : Text}, '*' ∉ text →
    '*' ∉ lowerFrom before text
  | _, [], _ => by simp [lowerFrom]
  | before, character :: rest, h => by
      simp only [List.mem_cons, not_or] at h
      simp only [lowerFrom, List.mem_append, not_or]
      refine ⟨?_, asterisk_not_mem_lowerFrom (character :: before) h.2⟩
      split
      · split <;> decide
      · exact asterisk_not_mem_lowerChar (Ne.symm h.1)

/-- The length of the lower-case form of a character, whatever its neighbours are. -/
def lowerWidth (character : Char) : Nat :=
  if character = Char.ofNat 0x3A3 then 1 else (lowerChar character).length

theorem length_lowerFrom : ∀ before text : Text,
    (lowerFrom before text).length = (text.map lowerWidth).sum
  | _, [] => rfl
  | before, character :: rest => by
      have hrest := length_lowerFrom (character :: before) rest
      simp only [lowerFrom, List.length_append, List.map_cons, List.sum_cons, hrest,
        lowerWidth]
      split
      · split <;> rfl
      · rfl

theorem length_lower_append (text rest : Text) :
    (lower (text ++ rest)).length = (lower text).length + (lower rest).length := by
  simp [lower, length_lowerFrom]

end Text

/-! ## Keys of names -/

def sortTail : Text → Text
  | '_' :: rest => rest ++ ['!', '_']
  | name => name

def sortStem : Text → Text
  | '_' :: rest => rest
  | name => name

theorem underscore_cases (name : Text) :
    (∃ rest, name = '_' :: rest) ∨ (sortStem name = name ∧ sortTail name = name) := by
  unfold sortStem sortTail
  split <;> simp

theorem sortKey_eq {name : Text} (h : name ≠ []) :
    sortKey name = Text.lower (sortStem name) ++ '*' :: sortTail name := by
  unfold sortKey sortStem sortTail
  split <;> simp_all

theorem asterisk_not_mem_sortTail {name : Text} (h : '*' ∉ name) : '*' ∉ sortTail name := by
  unfold sortTail
  split <;> simp_all

theorem asterisk_not_mem_lower_sortStem {name : Text} (h : '*' ∉ name) :
    '*' ∉ Text.lower (sortStem name) := by
  apply Text.asterisk_not_mem_lowerFrom
  unfold sortStem
  split <;> simp_all

/-- A name is determined by the two parts of its key.  The mark for an underscore
at the end is not mistaken for a part of the name, because it is not in the
lower-case form. -/
theorem sortTail_injective {one other : Text}
    (hstem : Text.lower (sortStem one) = Text.lower (sortStem other))
    (htail : sortTail one = sortTail other) : one = other := by
  have hmark : ∀ rest : Text, Text.lower rest ≠ Text.lower (rest ++ ['!', '_']) := by
    intro rest h
    have hlength := congrArg List.length h
    rw [Text.length_lower_append] at hlength
    have : (Text.lower ['!', '_']).length = 2 := by decide
    omega
  rcases underscore_cases one with ⟨rest, rfl⟩ | ⟨hone, hplain⟩ <;>
    rcases underscore_cases other with ⟨last, rfl⟩ | ⟨hother, hplain'⟩
  · have : rest = last := by simpa [sortTail] using htail
    rw [this]
  · rw [hother, ← hplain', ← htail] at hstem
    exact absurd hstem (hmark rest)
  · rw [hone, ← hplain, htail] at hstem
    exact absurd hstem.symm (hmark last)
  · rw [← hplain, htail, hplain']

theorem sortKey_injective {one other : Text} (h : '*' ∉ one)
    (hkey : sortKey one = sortKey other) : one = other := by
  by_cases hone : one = [] <;> by_cases hother : other = []
  · rw [hone, hother]
  · rw [hone, sortKey_eq hother] at hkey
    simp [sortKey] at hkey
  · rw [hother, sortKey_eq hone] at hkey
    simp [sortKey] at hkey
  · rw [sortKey_eq hone, sortKey_eq hother] at hkey
    obtain ⟨hstem, -, htail⟩ := (List.append_cons_inj_of_notMem
      (asterisk_not_mem_lower_sortStem h) (asterisk_not_mem_sortTail h)).mp hkey
    exact sortTail_injective hstem htail

theorem sortKeyOf_text (text : String) : sortKeyOf (.text text) = .ok (sortKey text.toList) := by
  unfold sortKeyOf
  by_cases h : text = ""
  · subst h
    rfl
  · simp [Datum.present, h]

theorem sortByKey_pairwise {α : Type} {key : α → Except Fault Text} {values sorted : List α}
    (h : sortByKey key values = .ok sorted) :
    sorted.Pairwise fun one other => ∃ first second, key one = .ok first ∧
      key other = .ok second ∧ Text.precedes first second = true := by
  simp only [sortByKey, bind_eq_ok, pure_eq_ok] at h
  obtain ⟨keyed, hkeyed, rfl⟩ := h
  have hkeys : ∀ entry ∈ keyed, key entry.2 = .ok entry.1 := by
    intro entry hentry
    obtain ⟨value, -, hvalue⟩ := exists_of_mem_mapM hkeyed hentry
    simp only [bind_eq_ok, pure_eq_ok] at hvalue
    obtain ⟨text, htext, rfl⟩ := hvalue
    exact htext
  have hordered : (keyed.mergeSort fun first second =>
      Text.precedes first.1 second.1).Pairwise fun first second =>
        Text.precedes first.1 second.1 = true :=
    List.pairwise_mergeSort (fun one other third => @Text.precedes_trans one.1 other.1 third.1)
      (fun one other => Text.precedes_total one.1 other.1) keyed
  rw [List.pairwise_map]
  refine hordered.imp_of_mem fun {one other} hone hother hprecedes => ?_
  rw [List.mem_mergeSort] at hone hother
  exact ⟨one.1, other.1, hkeys one hone, hkeys other hother, hprecedes⟩

end ApiSurface
