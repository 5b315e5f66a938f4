import ApiSurface.Fault
import Mathlib

/-!
# Computations that succeed

Reading, declaring and inspecting are computations that may end in a fault.
The lemmas below take a successful computation apart: a sequence succeeded
because each of its steps did, and a fold keeps what each of its steps keeps.
Before them stand two facts about the tables that such computations look into.
-/

namespace ApiSurface

/-! ## Tables -/

namespace Entries

variable {α β : Type} [BEq α] [LawfulBEq α] {entries : List (α × β)} {key : α} {value : β}

theorem mem_of_lookup (h : entries.lookup key = some value) : (key, value) ∈ entries := by
  obtain ⟨before, after, rfl, -⟩ := List.lookup_eq_some_iff.mp h
  simp

theorem lookup_eq_some_iff_mem (hdistinct : (entries.map Prod.fst).Nodup) :
    entries.lookup key = some value ↔ (key, value) ∈ entries := by
  refine ⟨mem_of_lookup, fun h => ?_⟩
  obtain ⟨before, after, rfl⟩ := List.append_of_mem h
  rw [List.map_append, List.map_cons, List.nodup_middle, List.nodup_cons] at hdistinct
  refine List.lookup_eq_some_iff.mpr ⟨before, after, rfl, fun entry hentry => ?_⟩
  have hne : key ≠ entry.1 := by
    rintro rfl
    exact hdistinct.1 (List.mem_append_left _ (List.mem_map.mpr ⟨entry, hentry, rfl⟩))
  simpa using hne

end Entries

/-! ## Computations without a state -/

section Plain

variable {ε α β : Type}

theorem bind_eq_ok {value : Except ε α} {next : α → Except ε β} {result : β} :
    (value >>= next) = .ok result ↔
      ∃ produced, value = .ok produced ∧ next produced = .ok result := by
  cases value <;> simp [bind, Except.bind]

theorem pure_eq_ok {value result : α} :
    (pure value : Except ε α) = .ok result ↔ value = result :=
  Except.ok.injEq value result ▸ Iff.rfl

theorem mapM_eq_ok {f : α → Except ε β} {values : List α} {results : List β}
    (h : values.mapM f = .ok results) :
    List.Forall₂ (fun value result => f value = .ok result) values results := by
  induction values generalizing results with
  | nil =>
      rw [List.mapM_nil, pure_eq_ok] at h
      exact h ▸ .nil
  | cons value values ih =>
      simp only [List.mapM_cons, bind_eq_ok, pure_eq_ok] at h
      obtain ⟨result, hresult, others, hothers, rfl⟩ := h
      exact .cons hresult (ih hothers)

theorem exists_left_of_forall₂ {relation : α → β → Prop} {values : List α}
    {results : List β} (h : List.Forall₂ relation values results) {result : β}
    (hmem : result ∈ results) : ∃ value ∈ values, relation value result := by
  induction h with
  | nil => cases hmem
  | @cons value _ values _ hvalue _ ih =>
      rcases List.mem_cons.mp hmem with rfl | hmem
      · exact ⟨value, by simp, hvalue⟩
      · obtain ⟨other, hother, hresult⟩ := ih hmem
        exact ⟨other, List.mem_cons_of_mem value hother, hresult⟩

theorem exists_right_of_forall₂ {relation : α → β → Prop} {values : List α}
    {results : List β} (h : List.Forall₂ relation values results) {value : α}
    (hmem : value ∈ values) : ∃ result ∈ results, relation value result :=
  exists_left_of_forall₂ h.flip hmem

theorem exists_of_mem_mapM {f : α → Except ε β} {values : List α}
    {results : List β} (h : values.mapM f = .ok results) {result : β}
    (hmem : result ∈ results) : ∃ value ∈ values, f value = .ok result :=
  exists_left_of_forall₂ (mapM_eq_ok h) hmem

theorem foldlM_preserves {f : β → α → Except ε β} (invariant : β → Prop)
    {values : List α} {first last : β}
    (hstep : ∀ state value state', value ∈ values → invariant state →
      f state value = .ok state' → invariant state')
    (hfirst : invariant first) (h : values.foldlM f first = .ok last) :
    invariant last := by
  induction values generalizing first with
  | nil =>
      rw [List.foldlM_nil, pure_eq_ok] at h
      exact h ▸ hfirst
  | cons value values ih =>
      simp only [List.foldlM_cons, bind_eq_ok] at h
      obtain ⟨next, hnext, hrest⟩ := h
      refine ih ?_ (hstep first value next (by simp) hfirst hnext) hrest
      intro state other state' hmem
      exact hstep state other state' (List.mem_cons_of_mem value hmem)

/-- A fold succeeds if each step does, with an invariant that may speak of the
values that are done. -/
theorem foldlM_succeeds {f : β → α → Except ε β}
    (invariant : List α → β → Prop) {values : List α}
    (hstep : ∀ done value state, value ∈ values → invariant done state →
      ∃ state', f state value = .ok state' ∧ invariant (done ++ [value]) state')
    (done : List α) {first : β} (hfirst : invariant done first) :
    ∃ last, values.foldlM f first = .ok last ∧ invariant (done ++ values) last := by
  induction values generalizing done first with
  | nil => exact ⟨first, rfl, by simpa using hfirst⟩
  | cons value values ih =>
      obtain ⟨next, hnext, hinvariant⟩ := hstep done value first (by simp) hfirst
      have hrest : ∀ done other state, other ∈ values → invariant done state →
          ∃ state', f state other = .ok state' ∧ invariant (done ++ [other]) state' :=
        fun done other state hother => hstep done other state (by simp [hother])
      obtain ⟨last, hlast, hend⟩ := ih hrest _ hinvariant
      refine ⟨last, ?_, by simpa using hend⟩
      simp only [List.foldlM_cons, bind_eq_ok]
      exact ⟨next, hnext, hlast⟩

theorem forM_eq_ok {check : α → Except ε Unit} {values : List α}
    (h : values.forM check = .ok ()) {value : α} (hvalue : value ∈ values) :
    check value = .ok () := by
  induction values with
  | nil => cases hvalue
  | cons first rest ih =>
      simp only [List.forM, bind_eq_ok] at h
      obtain ⟨⟨⟩, hfirst, hrest⟩ := h
      rcases List.mem_cons.mp hvalue with rfl | hvalue
      · exact hfirst
      · exact ih hrest hvalue

def pick (values : List α) (index : Nat) : Except Fault α :=
  match values[index]? with
  | some value => .ok value
  | none => .error .emptyList

theorem pick_eq_ok {values : List α} {index : Nat} {value : α} :
    pick values index = .ok value ↔ values[index]? = some value := by
  unfold pick
  cases values[index]? <;> simp

end Plain

/-! ## Computations with a state -/

section Stateful

variable {σ ε α β : Type}

theorem run_bind_eq_ok {first : StateT σ (Except ε) α}
    {next : α → StateT σ (Except ε) β} {before after : σ} {result : β} :
    (first >>= next).run before = .ok (result, after) ↔
      ∃ produced between, first.run before = .ok (produced, between) ∧
        (next produced).run between = .ok (result, after) := by
  simp only [StateT.run_bind, bind_eq_ok, Prod.exists]

theorem run_pure_eq_ok {value result : α} {before after : σ} :
    (pure value : StateT σ (Except ε) α).run before = .ok (result, after) ↔
      value = result ∧ before = after := by
  simp [pure_eq_ok]

theorem run_liftM_eq_ok {value : Except ε α} {result : α} {before after : σ} :
    (liftM value : StateT σ (Except ε) α).run before = .ok (result, after) ↔
      value = .ok result ∧ before = after := by
  change (value >>= fun produced => pure (produced, before)) = _ ↔ _
  simp only [bind_eq_ok, pure_eq_ok, Prod.mk.injEq]
  constructor
  · rintro ⟨produced, hvalue, rfl, hstate⟩
    exact ⟨hvalue, hstate⟩
  · rintro ⟨hvalue, hstate⟩
    exact ⟨result, hvalue, rfl, hstate⟩

end Stateful

/-! ## Computations whose state outlives a fault -/

section Lasting

variable {σ ε α β : Type}

/-- The computation ends with a value, and its state has become another one. -/
def Ends (action : ExceptT ε (StateM σ) α) (before : σ) (value : α) (after : σ) : Prop :=
  Id.run (action.run.run before) = (.ok value, after)

/-- The computation ends in a fault, and its state has become another one. -/
def Fails (action : ExceptT ε (StateM σ) α) (before : σ) (fault : ε) (after : σ) : Prop :=
  Id.run (action.run.run before) = (.error fault, after)

theorem ends_or_fails (action : ExceptT ε (StateM σ) α) (before : σ) :
    (∃ value after, Ends action before value after) ∨
      ∃ fault after, Fails action before fault after := by
  unfold Ends Fails
  obtain ⟨fault | value, after⟩ := Id.run (action.run.run before) <;> simp

theorem run_run_bind (first : ExceptT ε (StateM σ) α) (next : α → ExceptT ε (StateM σ) β)
    (before : σ) : Id.run ((first >>= next).run.run before) =
      match Id.run (first.run.run before) with
      | (.ok produced, between) => Id.run ((next produced).run.run between)
      | (.error fault, between) => (.error fault, between) := by
  simp only [ExceptT.run_bind, StateT.run_bind]
  generalize StateT.run (ExceptT.run first) before = produced
  obtain ⟨_ | value, between⟩ := produced <;> rfl

theorem ends_bind {first : ExceptT ε (StateM σ) α} {next : α → ExceptT ε (StateM σ) β}
    {before after : σ} {result : β} :
    Ends (first >>= next) before result after ↔
      ∃ produced between, Ends first before produced between ∧
        Ends (next produced) between result after := by
  unfold Ends
  rw [run_run_bind]
  obtain ⟨fault | value, between⟩ := Id.run (first.run.run before) <;> simp

theorem fails_bind {first : ExceptT ε (StateM σ) α} {next : α → ExceptT ε (StateM σ) β}
    {before after : σ} {fault : ε} :
    Fails (first >>= next) before fault after ↔ Fails first before fault after ∨
      ∃ produced between, Ends first before produced between ∧
        Fails (next produced) between fault after := by
  unfold Ends Fails
  rw [run_run_bind]
  obtain ⟨other | value, between⟩ := Id.run (first.run.run before) <;> simp

theorem ends_pure {value result : α} {before after : σ} :
    Ends (pure value : ExceptT ε (StateM σ) α) before result after ↔
      value = result ∧ before = after := by
  change (Except.ok value, before) = (Except.ok result, after) ↔ _
  simp

theorem not_fails_pure {value : α} {before after : σ} {fault : ε} :
    ¬ Fails (pure value : ExceptT ε (StateM σ) α) before fault after := by
  change ¬ (Except.ok value, before) = (Except.error fault, after)
  simp

theorem ends_liftM {value : Except ε α} {result : α} {before after : σ} :
    Ends (liftM value : ExceptT ε (StateM σ) α) before result after ↔
      value = .ok result ∧ before = after := by
  cases value with
  | error fault =>
      change (Except.error fault, before) = (Except.ok result, after) ↔ _
      simp
  | ok produced =>
      change (Except.ok produced, before) = (Except.ok result, after) ↔ _
      simp

theorem fails_liftM {value : Except ε α} {fault : ε} {before after : σ} :
    Fails (liftM value : ExceptT ε (StateM σ) α) before fault after ↔
      value = .error fault ∧ before = after := by
  cases value with
  | error other =>
      change (Except.error other, before) = (Except.error fault, after) ↔ _
      simp
  | ok produced =>
      change (Except.ok produced, before) = (Except.error fault, after) ↔ _
      simp

theorem ends_modify {change : σ → σ} {before after : σ} {result : Unit} :
    Ends (modify change : ExceptT ε (StateM σ) Unit) before result after ↔
      change before = after := by
  change (Except.ok (), change before) = (Except.ok result, after) ↔ _
  simp

theorem not_fails_modify {change : σ → σ} {before after : σ} {fault : ε} :
    ¬ Fails (modify change : ExceptT ε (StateM σ) Unit) before fault after := by
  change ¬ (Except.ok (), change before) = (Except.error fault, after)
  simp

theorem not_ends_throw {fault : ε} {before after : σ} {result : α} :
    ¬ Ends (throw fault : ExceptT ε (StateM σ) α) before result after := by
  change ¬ (Except.error fault, before) = (Except.ok result, after)
  simp

theorem fails_throw {cause fault : ε} {before after : σ} :
    Fails (throw cause : ExceptT ε (StateM σ) α) before fault after ↔
      cause = fault ∧ before = after := by
  change (Except.error cause, before) = (Except.error fault, after) ↔ _
  simp

end Lasting

end ApiSurface
