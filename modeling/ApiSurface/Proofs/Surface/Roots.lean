import ApiSurface.Proofs.Overlay.Placement
import ApiSurface.Proofs.Surface.Names

/-!
# Outermost symbols

A member has the key of its owner, a separator and a name as its key.  Where the
keys of the package itself are free of the separator, the part before the first
separator is the key of the outermost symbol, so that members of different
outermost symbols never share a symbol.
-/

namespace ApiSurface

/-! ## Roots along parents -/

inductive Root (symbols : List Symbol) : Key → Key → Prop
  | outermost {symbol : Symbol} (known : symbol ∈ symbols)
      (alone : symbol.parent = none) : Root symbols symbol.key symbol.key
  | member {symbol : Symbol} {owner : Label} {root : Key} (known : symbol ∈ symbols)
      (inside : symbol.parent = some owner) (above : Root symbols owner.key root) :
      Root symbols symbol.key root

theorem Root.mono {symbols more : List Symbol} {key root : Key}
    (hmore : symbols ⊆ more) (h : Root symbols key root) : Root more key root := by
  induction h with
  | outermost known alone => exact .outermost (hmore known) alone
  | member known inside _ ih => exact .member (hmore known) inside ih

theorem Root.known {symbols : List Symbol} {key root : Key}
    (h : Root symbols key root) :
    ∃ symbol ∈ symbols, symbol.key = root ∧ symbol.parent = none := by
  induction h with
  | outermost known alone => exact ⟨_, known, rfl, alone⟩
  | member _ _ _ ih => exact ih

/-! ## Keys and separators -/

/-- The keys of a package are texts in which the separator of member keys does
not occur. -/
def ModuleGraph.PlainKeys (graph : ModuleGraph) : Prop :=
  ∀ entry ∈ graph.symbols, ∃ text : String, entry.key = .text text ∧ '#' ∉ text.toList

def stem (text : String) : String := String.ofList (Text.beforeFirst '#' text.toList)

theorem stem_of_not_mem {text : String} (h : '#' ∉ text.toList) : stem text = text := by
  have hwhole : text.toList.takeWhile (fun c => decide (c ≠ '#')) = text.toList := by
    rw [List.takeWhile_eq_self_iff]
    intro c hc
    simp only [decide_eq_true_eq]
    rintro rfl
    exact h hc
  rw [stem, Text.beforeFirst, hwhole, String.ofList_toList]

private theorem takeWhile_append_separator (front back : List Char) :
    (front ++ '#' :: back).takeWhile (fun c => decide (c ≠ '#')) =
      front.takeWhile fun c => decide (c ≠ '#') := by
  induction front with
  | nil => simp
  | cons c front ih =>
      rw [List.cons_append, List.takeWhile_cons, List.takeWhile_cons, ih]

/-- What a symbol's label says about the symbol: it is a text, it starts with the
key of the outermost symbol, and only those of members have a separator. -/
structure Spelled (symbol : Symbol) (text : String) : Prop where
  datum : symbol.label.datum = .text text
  key : symbol.key = .text text
  root : symbol.root.key = .text (stem text)
  separated : '#' ∈ text.toList ↔ symbol.parent ≠ none

namespace SymbolTable

variable {entries : List SymbolEntry} {symbols : List Symbol}

private theorem memberLabel_toList (owner : Symbol) (name : String) (static : Bool) :
    ∃ back, (memberLabel owner name static).key =
      .text (String.ofList (owner.label.plain.toList ++ '#' :: back)) := by
  refine ⟨(name ++ if static then ":static" else "").toList, ?_⟩
  simp only [memberLabel, Label.ofText, Key.text.injEq]
  rw [← String.toList_inj]
  simp [String.toList_append]

theorem spelled_memberOf {owner : Symbol} {text : String} (h : Spelled owner text)
    (name : String) (static : Bool) :
    ∃ longer, Spelled (memberOf owner name static) longer := by
  obtain ⟨back, hback⟩ := memberLabel_toList owner name static
  refine ⟨_, ?_, hback, ?_, ?_⟩
  · have hdatum : (memberLabel owner name static).datum =
        .text (match (memberLabel owner name static).key with
          | .text value => value
          | _ => "") := rfl
    rw [hback] at hdatum
    exact hdatum
  · have hplain : owner.label.plain = text := by
      rw [Label.plain, h.datum]
      rfl
    rw [memberOf, h.root, stem, stem, Text.beforeFirst, Text.beforeFirst,
      String.toList_ofList, hplain, takeWhile_append_separator]
  · simp [memberOf]

theorem Entered.spelled (h : Entered entries [] symbols)
    (hkeys : ∀ entry ∈ entries, ∃ text : String,
      entry.key = .text text ∧ '#' ∉ text.toList) :
    ∀ symbol ∈ symbols, ∃ text, Spelled symbol text := by
  induction h with
  | nothing => simp
  | @entry symbols entry label _ given labelled _ ih =>
      refine List.forall_mem_append.mpr ⟨ih, ?_⟩
      obtain ⟨text, hkey, hplain⟩ := hkeys entry given
      rw [hkey] at labelled
      obtain ⟨hdatum, hlabel⟩ := Label.ofDatum_eq_ok.mp labelled
      have hlabel : label.key = .text text := (Option.some.inj hlabel).symm
      simp only [List.mem_singleton, forall_eq]
      refine ⟨text, hdatum, hlabel, ?_, ?_⟩
      · rw [stem_of_not_mem hplain]
        exact hlabel
      · simp [outermost, hplain]
  | member _ known _ ih =>
      refine List.forall_mem_append.mpr ⟨ih, ?_⟩
      obtain ⟨text, htext⟩ := ih _ known
      simpa using spelled_memberOf htext _ _

theorem Entered.root (h : Entered entries [] symbols) :
    ∀ symbol ∈ symbols, Root symbols symbol.key symbol.root.key := by
  induction h with
  | nothing => simp
  | entry _ _ _ _ ih =>
      refine List.forall_mem_append.mpr ⟨fun symbol hsymbol => ?_, ?_⟩
      · exact (ih symbol hsymbol).mono (List.subset_append_left _ _)
      · simp only [List.mem_singleton, forall_eq]
        exact .outermost (by simp) rfl
  | @member symbols owner name static _ known _ ih =>
      refine List.forall_mem_append.mpr ⟨fun symbol hsymbol => ?_, ?_⟩
      · exact (ih symbol hsymbol).mono (List.subset_append_left _ _)
      · simp only [List.mem_singleton, forall_eq]
        refine .member (by simp) rfl ?_
        exact (ih owner known).mono (List.subset_append_left _ _)

theorem Entered.parent (h : Entered entries [] symbols) :
    ∀ symbol ∈ symbols, ∀ label, symbol.parent = some label →
      ∃ owner ∈ symbols, owner.label = label ∧ symbol.root = owner.root := by
  induction h with
  | nothing => simp
  | entry _ _ _ _ ih =>
      refine List.forall_mem_append.mpr ⟨fun symbol hsymbol label hlabel => ?_, ?_⟩
      · obtain ⟨owner, howner, hrest⟩ := ih symbol hsymbol label hlabel
        exact ⟨owner, List.mem_append_left _ howner, hrest⟩
      · simp [outermost]
  | @member symbols owner name static _ known _ ih =>
      refine List.forall_mem_append.mpr ⟨fun symbol hsymbol label hlabel => ?_, ?_⟩
      · obtain ⟨owner, howner, hrest⟩ := ih symbol hsymbol label hlabel
        exact ⟨owner, List.mem_append_left _ howner, hrest⟩
      · simp only [List.mem_singleton, forall_eq]
        intro label hlabel
        exact ⟨owner, by simp [known], Option.some.inj hlabel, rfl⟩

theorem Entered.root_unique (h : Entered entries [] symbols)
    (hkeys : ∀ entry ∈ entries, ∃ text : String,
      entry.key = .text text ∧ '#' ∉ text.toList)
    {one other : Symbol} (hone : one ∈ symbols) (hother : other ∈ symbols)
    (hkey : one.key = other.key) : one.root.key = other.root.key := by
  obtain ⟨text, htext⟩ := h.spelled hkeys one hone
  obtain ⟨text', htext'⟩ := h.spelled hkeys other hother
  have hsame : text = text' := by
    rw [htext.key, htext'.key] at hkey
    exact Key.text.inj hkey
  rw [htext.root, htext'.root, hsame]

theorem Entered.eq_root (h : Entered entries [] symbols)
    (hkeys : ∀ entry ∈ entries, ∃ text : String,
      entry.key = .text text ∧ '#' ∉ text.toList)
    {key root : Key} (hroot : Root symbols key root) :
    ∀ symbol ∈ symbols, symbol.key = key → symbol.root.key = root := by
  induction hroot with
  | @outermost found known alone =>
      intro symbol hsymbol hkey
      rw [h.root_unique hkeys hsymbol known hkey]
      obtain ⟨text, htext⟩ := h.spelled hkeys found known
      have hplain : '#' ∉ text.toList := by simp [htext.separated, alone]
      rw [htext.root, htext.key, stem_of_not_mem hplain]
  | member known inside _ ih =>
      intro symbol hsymbol hkey
      obtain ⟨owner, howner, hlabel, hroots⟩ := h.parent _ known _ inside
      rw [h.root_unique hkeys hsymbol known hkey, hroots]
      exact ih owner howner (congrArg Label.key hlabel)

end SymbolTable

end ApiSurface
