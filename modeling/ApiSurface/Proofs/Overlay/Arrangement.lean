import ApiSurface.Proofs.Overlay.Drawing
import ApiSurface.Proofs.Surface.SortKeys

/-!
# Arrangements of siblings

Siblings are drawn in some order, each with what replaces the separator at its
end, if anything does.  The arrangement of siblings says just that; drawing them
draws one after the other.  Every sibling is drawn exactly once.  In a sorted
arrangement the places without a key keep what stands there, and the others take
the keyed siblings in turn.
-/

namespace ApiSurface

namespace Slot

variable {α β : Type}

section Arrangement

variable (slot : α → Slot)

def keyed (items : List α) : List α := items.filter fun item => (slot item).key.isSome

def inKeyOrder (first second : α) : Bool :=
  Text.precedes (slot first).foldedKey (slot second).foldedKey

def sortKeyed (items : List α) : List α := (keyed slot items).mergeSort (inKeyOrder slot)

def innerOf (item : Option α) : Text := (item.map fun item => (slot item).inner).getD []

def fill (between final : Text) : List α → List α → List (α × Option Text)
  | _, [] => []
  | members, item :: rest =>
      match (slot item).key, members with
      | none, _ => (item, none) :: fill between final members rest
      | some _, [] => fill between final [] rest
      | some _, member :: others =>
          (member, some (if others.isEmpty then final else between)) ::
            fill between final others rest

def inOrder (override : Option Text) : List α → List (α × Option Text)
  | [] => []
  | [last] => [(last, override)]
  | first :: second :: rest => (first, none) :: inOrder override (second :: rest)

/-- Sorting changes the order of siblings only if two of them have keys. -/
def sorts (sorted : Bool) (items : List α) : Bool := sorted && 1 < (keyed slot items).length

/-- The order in which siblings are drawn, each with the replacement of its last
separator. -/
def arrangement (sorted : Bool) (override : Option Text) (items : List α) :
    List (α × Option Text) :=
  if sorts slot sorted items then
    fill slot (innerOf slot (keyed slot items).head?) (innerOf slot (keyed slot items).getLast?)
      (sortKeyed slot items) items
  else inOrder override items

end Arrangement

/-! ## Drawing an arrangement -/

theorem drawInOrder_eq (override : Option Text) (slots : List Slot) :
    drawInOrder override slots =
      (inOrder override slots).flatMap fun entry => entry.1.draw entry.2 := by
  induction slots with
  | nil => rfl
  | cons first rest ih =>
      cases rest with
      | nil => simp [drawInOrder, inOrder]
      | cons second rest =>
          rw [drawInOrder, inOrder, List.flatMap_cons, ← ih]

private theorem drawSorted_eq (between final : Text) (members slots : List Slot) :
    drawSorted between final members slots =
      (fill id between final members slots).flatMap fun entry => entry.1.draw entry.2 := by
  induction slots generalizing members with
  | nil => cases members <;> rfl
  | cons slot rest ih =>
      cases hkey : slot.key with
      | none => simp [drawSorted, fill, hkey, ih]
      | some key => cases members <;> simp [drawSorted, fill, hkey, ih]

private theorem arrange_eq (sorted : Bool) (override : Option Text) (slots : List Slot) :
    arrange sorted override slots =
      (arrangement id sorted override slots).flatMap fun entry => entry.1.draw entry.2 := by
  have hsort : sort (keyed id slots) = sortKeyed id slots := rfl
  have hkeyed : (slots.filter fun slot => slot.key.isSome) = keyed id slots := rfl
  unfold arrange arrangement sorts
  rw [hkeyed, drawInOrder_eq, ← hsort]
  rcases keyed id slots with _ | ⟨first, _ | ⟨second, others⟩⟩
  · simp
  · simp
  · cases sorted <;> simp [innerOf, drawSorted_eq]

/-! ## Arrangements of images -/

section Map

variable {f : α → β} {slot : β → Slot}

theorem keyed_map (items : List α) :
    keyed slot (items.map f) = (keyed (fun item => slot (f item)) items).map f :=
  List.filter_map

private theorem sortKeyed_map (items : List α) :
    sortKeyed slot (items.map f) = (sortKeyed (fun item => slot (f item)) items).map f := by
  have hmap : ((keyed (fun item => slot (f item)) items).mergeSort
      (inKeyOrder fun item => slot (f item))).map f =
      ((keyed (fun item => slot (f item)) items).map f).mergeSort (inKeyOrder slot) :=
    List.map_mergeSort fun _ _ _ _ => rfl
  rw [sortKeyed, keyed_map, ← hmap]
  rfl

theorem innerOf_map (item : Option α) :
    innerOf slot (item.map f) = innerOf (fun item => slot (f item)) item := by
  cases item <;> rfl

private theorem fill_map (between final : Text) (members items : List α) :
    fill slot between final (members.map f) (items.map f) =
      (fill (fun item => slot (f item)) between final members items).map fun entry =>
        (f entry.1, entry.2) := by
  induction items generalizing members with
  | nil => cases members <;> rfl
  | cons item rest ih =>
      cases hkey : (slot (f item)).key with
      | none => simp [fill, hkey, ih]
      | some key =>
          cases members with
          | nil =>
              have hnil := ih []
              simpa [fill, hkey] using hnil
          | cons member others => simp [fill, hkey, ih]

private theorem inOrder_map (override : Option Text) (items : List α) :
    inOrder override (items.map f) =
      (inOrder override items).map fun entry => (f entry.1, entry.2) := by
  induction items with
  | nil => rfl
  | cons first rest ih =>
      cases rest with
      | nil => rfl
      | cons second rest => exact congrArg (List.cons (f first, none)) ih

theorem arrangement_map (sorted : Bool) (override : Option Text) (items : List α) :
    arrangement slot sorted override (items.map f) =
      (arrangement (fun item => slot (f item)) sorted override items).map fun entry =>
        (f entry.1, entry.2) := by
  unfold arrangement sorts
  rw [keyed_map, List.length_map, List.head?_map, List.getLast?_map, innerOf_map, innerOf_map,
    sortKeyed_map, fill_map, inOrder_map]
  split <;> rfl

theorem arrange_map (slot : α → Slot) (sorted : Bool) (override : Option Text) (items : List α) :
    arrange sorted override (items.map slot) =
      (arrangement slot sorted override items).flatMap fun entry =>
        (slot entry.1).draw entry.2 := by
  rw [arrange_eq, arrangement_map, List.flatMap_map]
  rfl

end Map

/-! ## Every item has its place -/

variable {slot : α → Slot} {item : α} {items : List α}

theorem keyed_cons_of_none (h : (slot item).key = none) :
    keyed slot (item :: items) = keyed slot items := by
  simp [keyed, h]

theorem length_keyed_cons {key : Text} (h : (slot item).key = some key) :
    (keyed slot (item :: items)).length = (keyed slot items).length + 1 := by
  simp [keyed, h]

private theorem fill_perm (between final : Text) {members items : List α}
    (h : members.length = (keyed slot items).length) :
    ((fill slot between final members items).map Prod.fst).Perm
      (members ++ items.filter fun item => !(slot item).key.isSome) := by
  induction items generalizing members with
  | nil =>
      obtain rfl := List.length_eq_zero_iff.mp h
      exact List.Perm.nil
  | cons item rest ih =>
      cases hkey : (slot item).key with
      | none =>
          rw [keyed_cons_of_none hkey] at h
          simp only [fill, hkey, List.map_cons, List.filter_cons]
          exact ((ih h).cons item).trans List.perm_middle.symm
      | some key =>
          rw [length_keyed_cons hkey] at h
          cases members with
          | nil => cases h
          | cons member others =>
              have h := Nat.succ.inj h
              simp only [fill, hkey, List.map_cons, List.filter_cons]
              exact (ih h).cons member

private theorem fst_inOrder (override : Option Text) (items : List α) :
    (inOrder override items).map Prod.fst = items := by
  induction items with
  | nil => rfl
  | cons first rest ih =>
      cases rest with
      | nil => rfl
      | cons second rest => rw [inOrder, List.map_cons, ih]

theorem length_sortKeyed (items : List α) :
    (sortKeyed slot items).length = (keyed slot items).length :=
  List.length_mergeSort _

theorem arrangement_perm (slot : α → Slot) (sorted : Bool) (override : Option Text)
    (items : List α) :
    ((arrangement slot sorted override items).map Prod.fst).Perm items := by
  unfold arrangement
  split
  · refine (fill_perm _ _ (length_sortKeyed items)).trans ?_
    refine ((List.mergeSort_perm _ _).append_right _).trans ?_
    exact List.filter_append_perm _ items
  · rw [fst_inOrder]

/-! ## Places -/

theorem mem_keyed :
    item ∈ keyed slot items ↔ item ∈ items ∧ (slot item).key.isSome = true :=
  List.mem_filter

theorem mem_sortKeyed :
    item ∈ sortKeyed slot items ↔ item ∈ items ∧ (slot item).key.isSome = true := by
  rw [sortKeyed, List.mem_mergeSort, mem_keyed]

/-- A place without a key keeps its item, and a place with one has a member, with
the separator that belongs to the place. -/
theorem getElem?_fill {between final : Text} {members items : List α} {place : Nat}
    {entry : α × Option Text} (hmembers : ∀ member ∈ members, (slot member).key.isSome = true)
    (hlength : members.length = (keyed slot items).length)
    (h : (fill slot between final members items)[place]? = some entry) :
    ∃ item, items[place]? = some item ∧
      if (slot item).key.isSome then
        (slot entry.1).key.isSome = true ∧
          entry.2 = some (if (keyed slot (items.drop (place + 1))).isEmpty then final else between)
      else entry = (item, none) := by
  induction items generalizing members place with
  | nil => simp [fill] at h
  | cons item rest ih =>
      cases hkey : (slot item).key with
      | none =>
          rw [keyed_cons_of_none hkey] at hlength
          simp only [fill, hkey] at h
          cases place with
          | zero => exact ⟨item, rfl, by simpa [hkey] using h.symm⟩
          | succ place => exact ih hmembers hlength h
      | some key =>
          rw [length_keyed_cons hkey] at hlength
          cases members with
          | nil => cases hlength
          | cons member others =>
              obtain ⟨hmember, hothers⟩ := List.forall_mem_cons.mp hmembers
              have hlength := Nat.succ.inj hlength
              simp only [fill, hkey] at h
              cases place with
              | zero =>
                  obtain rfl := Option.some.inj h
                  -- No member is left exactly if no place with a key is left.
                  have hempty : others = [] ↔ keyed slot rest = [] := by
                    rw [← List.length_eq_zero_iff, hlength, List.length_eq_zero_iff]
                  exact ⟨item, rfl, by simp [hkey, hmember, hempty]⟩
              | succ place => exact ih hothers hlength h

private theorem keyed_fill {between final : Text} {members items : List α}
    (hmembers : ∀ member ∈ members, (slot member).key.isSome = true)
    (hlength : members.length = (keyed slot items).length) :
    keyed slot ((fill slot between final members items).map Prod.fst) = members := by
  induction items generalizing members with
  | nil =>
      obtain rfl := List.length_eq_zero_iff.mp hlength
      rfl
  | cons item rest ih =>
      cases hkey : (slot item).key with
      | none =>
          rw [keyed_cons_of_none hkey] at hlength
          simpa [fill, keyed, hkey] using ih hmembers hlength
      | some key =>
          rw [length_keyed_cons hkey] at hlength
          cases members with
          | nil => cases hlength
          | cons member others =>
              obtain ⟨hmember, hothers⟩ := List.forall_mem_cons.mp hmembers
              have hlength := Nat.succ.inj hlength
              simpa [fill, keyed, hkey, hmember] using ih hothers hlength

theorem mem_fill {between final : Text} {members items : List α} {entry : α × Option Text}
    (hmembers : ∀ member ∈ members, (slot member).key.isSome = true) (hnodup : members.Nodup)
    (h : entry ∈ fill slot between final members items) :
    if (slot entry.1).key.isSome then
      entry.1 ∈ members ∧ (members.getLast? = some entry.1 → entry.2 = some final) ∧
        (members.getLast? ≠ some entry.1 → entry.2 = some between)
    else entry.2 = none := by
  induction items generalizing members with
  | nil => simp [fill] at h
  | cons item rest ih =>
      cases hkey : (slot item).key with
      | none =>
          simp only [fill, hkey, List.mem_cons] at h
          rcases h with rfl | h
          · simp [hkey]
          · exact ih hmembers hnodup h
      | some key =>
          cases members with
          | nil =>
              simp only [fill, hkey] at h
              exact ih hmembers hnodup h
          | cons member others =>
              obtain ⟨hmember, hothers⟩ := List.forall_mem_cons.mp hmembers
              obtain ⟨hfresh, hnodup⟩ := List.nodup_cons.mp hnodup
              simp only [fill, hkey, List.mem_cons] at h
              rcases h with rfl | h
              · cases others with
                | nil => simp [hmember]
                | cons second others =>
                    have hlast : (second :: others).getLast? ≠ some member := fun hlast =>
                      hfresh (List.mem_of_getLast? hlast)
                    simp [hmember, hlast]
              · have hentry := ih hothers hnodup h
                split at hentry
                · rename_i hkeyed
                  obtain ⟨hmem, hfinal, hbetween⟩ := hentry
                  rw [if_pos hkeyed]
                  cases others with
                  | nil => cases hmem
                  | cons second others =>
                      rw [List.getLast?_cons_cons]
                      exact ⟨List.mem_cons_of_mem _ hmem, hfinal, hbetween⟩
                · rename_i hunkeyed
                  rwa [if_neg hunkeyed]

theorem mem_inOrder {override : Option Text} {items : List α} {entry : α × Option Text}
    (hnodup : items.Nodup) (h : entry ∈ inOrder override items) :
    (items.getLast? = some entry.1 → entry.2 = override) ∧
      (items.getLast? ≠ some entry.1 → entry.2 = none) := by
  induction items with
  | nil => simp [inOrder] at h
  | cons first rest ih =>
      cases rest with
      | nil =>
          obtain rfl := List.mem_singleton.mp h
          simp
      | cons second rest =>
          obtain ⟨hfresh, hnodup⟩ := List.nodup_cons.mp hnodup
          rw [List.getLast?_cons_cons]
          rcases List.mem_cons.mp h with rfl | h
          · exact ⟨fun hlast => absurd (List.mem_of_getLast? hlast) hfresh, fun _ => rfl⟩
          · exact ih hnodup h

/-! ## Order -/

theorem inKeyOrder_total (first second : α) :
    (inKeyOrder slot first second || inKeyOrder slot second first) = true :=
  Text.precedes_total _ _

theorem inKeyOrder_trans (first second third : α) (hfirst : inKeyOrder slot first second = true)
    (hsecond : inKeyOrder slot second third = true) : inKeyOrder slot first third = true :=
  Text.precedes_trans hfirst hsecond

private theorem filter_sortKeyed (key : Text) (items : List α) :
    ((sortKeyed slot items).filter fun item => (slot item).foldedKey = key) =
      (keyed slot items).filter fun item => (slot item).foldedKey = key := by
  have hsame : ((keyed slot items).filter fun item => (slot item).foldedKey = key).Pairwise
      fun first second => inKeyOrder slot first second = true := by
    refine List.pairwise_iff_forall_sublist.mpr fun {first second} hpair => ?_
    have hfirst := hpair.subset (by simp : first ∈ [first, second])
    have hsecond := hpair.subset (by simp : second ∈ [first, second])
    simp only [List.mem_filter, decide_eq_true_eq] at hfirst hsecond
    have htotal := Text.precedes_total key key
    rw [Bool.or_self] at htotal
    rw [inKeyOrder, hfirst.2, hsecond.2, htotal]
  -- What is in order already is found in that order by the sort.
  have hsublist := (List.sublist_mergeSort inKeyOrder_trans inKeyOrder_total hsame
    List.filter_sublist).filter fun item => (slot item).foldedKey = key
  rw [List.filter_filter] at hsublist
  refine (List.Sublist.eq_of_length (by simpa [sortKeyed] using hsublist) ?_).symm
  exact ((List.mergeSort_perm _ _).filter _).length_eq.symm

theorem sortKeyed_stable (slot : α → Slot) {before : α → α → Prop} {items : List α}
    (h : items.Pairwise before) :
    (sortKeyed slot items).Pairwise fun first second =>
      inKeyOrder slot first second = true ∧
        ((slot first).foldedKey = (slot second).foldedKey → before first second) := by
  rw [List.pairwise_iff_forall_sublist]
  intro first second hpair
  have hsorted : (sortKeyed slot items).Pairwise fun first second =>
      inKeyOrder slot first second = true :=
    List.pairwise_mergeSort inKeyOrder_trans inKeyOrder_total (keyed slot items)
  refine ⟨List.pairwise_iff_forall_sublist.mp hsorted hpair, fun hkeys => ?_⟩
  have hclass := hpair.filter fun item => (slot item).foldedKey = (slot second).foldedKey
  rw [filter_sortKeyed] at hclass
  have hitems : [first, second].Sublist items := by
    simpa [hkeys] using hclass.trans (List.filter_sublist.trans List.filter_sublist)
  exact List.pairwise_iff_forall_sublist.mp h hitems

/-! ## Sorted arrangements -/

section Sorted

variable {sorted : Bool} {override : Option Text}

theorem arrangement_of_sorts (h : sorts slot sorted items = true) :
    arrangement slot sorted override items =
      fill slot (innerOf slot (keyed slot items).head?) (innerOf slot (keyed slot items).getLast?)
        (sortKeyed slot items) items :=
  if_pos h

theorem getElem?_arrangement (h : sorts slot sorted items = true) {place : Nat}
    {entry : α × Option Text}
    (hentry : (arrangement slot sorted override items)[place]? = some entry) :
    ∃ item, items[place]? = some item ∧
      if (slot item).key.isSome then
        (slot entry.1).key.isSome = true ∧
          entry.2 = some (innerOf slot (if (keyed slot (items.drop (place + 1))).isEmpty
            then (keyed slot items).getLast? else (keyed slot items).head?))
      else entry = (item, none) := by
  rw [arrangement_of_sorts h] at hentry
  obtain ⟨item, hitem, hplace⟩ := getElem?_fill (fun _ hmember => (mem_sortKeyed.mp hmember).2)
    (length_sortKeyed items) hentry
  exact ⟨item, hitem, by simpa only [apply_ite (innerOf slot)] using hplace⟩

theorem keyed_arrangement (override : Option Text) (h : sorts slot sorted items = true) :
    keyed slot ((arrangement slot sorted override items).map Prod.fst) = sortKeyed slot items := by
  rw [arrangement_of_sorts h]
  exact keyed_fill (fun _ hmember => (mem_sortKeyed.mp hmember).2) (length_sortKeyed items)

end Sorted

end Slot

namespace Span

/-! ## Slots of children -/

def slotOf (edits : Edits) (entry : Span × Nat) : Slot := slotAt edits entry.2 entry.1

theorem slots_eq (edits : Edits) (start : Nat) (spans : List Span) :
    slots edits start spans = (spans.zipIdx start).map (slotOf edits) := by
  induction spans generalizing start with
  | nil => rfl
  | cons child rest ih =>
      rw [slots, List.zipIdx_cons, List.map_cons, ih]
      rfl

theorem pairwise_zipIdx (spans : List Span) :
    spans.zipIdx.Pairwise fun first second => first.2 < second.2 := by
  rw [← List.pairwise_map, List.zipIdx_map_snd]
  exact List.pairwise_lt_range'

theorem slots_congr {edits other : Edits} (h : ∀ index, edits.below index = other.below index)
    (start : Nat) (spans : List Span) : slots edits start spans = slots other start spans := by
  rw [slots_eq, slots_eq]
  refine List.map_congr_left fun entry _ => ?_
  have hown : edits [entry.2] = other [entry.2] := congrFun (h entry.2) []
  simp only [slotOf, slotAt, h, hown]

end Span

/-! ## Children with keys -/

namespace SortKeys

variable (keys : Nat → Option Text)

def folded (index : Nat) : Text := Text.fold ((keys index).getD [])

/-- One child is filed before another: its key is smaller without regard to case, or
the same and the child comes first. -/
def FiledBefore (first second : Nat) : Prop :=
  Text.precedes (folded keys first) (folded keys second) = true ∧
    (folded keys first = folded keys second → first < second)

def keyedChildren (children : List Span) : List (Span × Nat) :=
  children.zipIdx.filter fun entry => (keys entry.2).isSome

end SortKeys

end ApiSurface
