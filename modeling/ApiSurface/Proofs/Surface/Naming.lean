import ApiSurface.Proofs.Surface.Discovery

/-!
# Names without collisions

Names are given in the order of discovery.  The names under which entities are
exported are set aside first; no two entities may share one.  An entity that is
exported under its ideal name keeps it, and every other one takes the first
numbered form of its ideal name that is still free.  Numbered forms are all
different, so the search ends, and no two entities end up with one name.
-/

namespace ApiSurface

/-! ## Texts as keys -/

variable {datum : Datum}

theorem Datum.key?_eq_text {text : String} :
    datum.key? = some (.text text) ↔ datum = .text text := by
  cases datum with
  | text value => simp [key?]
  | real value =>
      simp only [key?]
      split <;> simp
  | _ => simp [key?]

theorem Datum.equals_text {text : String} :
    datum.equals (.text text) = true ↔ datum = .text text := by
  cases datum <;> simp [equals, amount?]

theorem Label.ofDatum_eq_ok {label : Label} :
    Label.ofDatum datum = .ok label ↔
      label.datum = datum ∧ datum.key? = some label.key := by
  simp only [ofDatum, Datum.key]
  cases hkey : datum.key? with
  | none => simp [bind, Except.bind]
  | some key =>
      simp only [bind, Except.bind, pure, Except.pure, Except.ok.injEq,
        Option.some.injEq]
      constructor
      · rintro rfl
        exact ⟨rfl, rfl⟩
      · rintro ⟨rfl, rfl⟩
        rfl

private theorem Import.localName_eq_error {source : Import} {fault : Fault}
    (h : source.localName = .error fault) :
    ∃ shape operation, fault = .noOperation shape operation := by
  have htext : ∀ (datum : Datum) operation fault,
      datum.asText operation = .error fault →
      ∃ shape operation, fault = .noOperation shape operation := by
    intro datum operation fault h
    cases datum <;> cases h <;> exact ⟨_, _, rfl⟩
  unfold localName topName at h
  split at h
  · split at h
    · cases hchain : source.exportName.asText "split" with
      | ok chain =>
          simp [hchain, bind, Except.bind, Except.map, pure, Except.pure] at h
      | error other =>
          simp only [hchain, bind, Except.bind, Except.map, Except.error.injEq] at h
          exact h ▸ htext _ _ _ hchain
    · cases hpath : source.modulePath.asText "rstrip" with
      | ok path => simp [hpath, Except.map] at h
      | error other =>
          simp only [hpath, Except.map, Except.error.injEq] at h
          exact h ▸ htext _ _ _ hpath
  · cases h

namespace Naming

/-! ## Numbered forms of a name -/

theorem numbered_injective (stem : String) :
    Function.Injective fun count : Nat => s!"{stem}_{count + 1}" := by
  intro first second h
  have hlists := congrArg String.toList h
  have hdigits : Nat.toDigits 10 (first + 1) = Nat.toDigits 10 (second + 1) := by
    simpa [toString, String.toList_append] using hlists
  have hvalues := congrArg (Nat.ofDigitChars 10 · 0) hdigits
  simpa using hvalues

variable {ideal : Label} {used : List Key} {entities earlier named : List Entity}
  {entity : Entity}

theorem key_ne_numbered (hideal : ideal.datum.key? = some ideal.key) (count : Nat) :
    ideal.key ≠ (candidate ideal (count + 1)).key := by
  intro h
  rw [h] at hideal
  have hdatum := Datum.key?_eq_text.mp hideal
  have hplain : s!"{ideal.plain}_{count + 1}" = ideal.plain := by
    simp only [Label.plain] at hdatum ⊢
    exact (congrArg Datum.plain hdatum).symm
  have hlength := congrArg String.length hplain
  have hseparator : "_".length = 1 := rfl
  simp [toString, hseparator] at hlength
  omega

private theorem candidate_injective (hideal : ideal.datum.key? = some ideal.key) :
    Function.Injective fun count => (candidate ideal count).key := by
  intro first second h
  cases first with
  | zero =>
      cases second with
      | zero => rfl
      | succ second => exact absurd h (key_ne_numbered hideal second)
  | succ first =>
      cases second with
      | zero => exact absurd h.symm (key_ne_numbered hideal first)
      | succ second => rw [numbered_injective ideal.plain (Key.text.inj h)]

theorem exists_candidate_not_mem (hideal : ideal.datum.key? = some ideal.key) (taken : List Key) :
    ∃ count < taken.length + 1, (candidate ideal count).key ∉ taken := by
  by_contra hall
  push Not at hall
  let tried := (List.range (taken.length + 1)).map fun count =>
    (candidate ideal count).key
  have hnodup : tried.Nodup :=
    List.nodup_range.map (candidate_injective hideal)
  have hsubset : tried ⊆ taken := by
    intro key hkey
    obtain ⟨count, hcount, rfl⟩ := List.mem_map.mp hkey
    exact hall count (List.mem_range.mp hcount)
  have hlength := (hnodup.subperm hsubset).length_le
  simp [tried] at hlength

theorem freshName_first (hideal : ideal.datum.key? = some ideal.key) (taken : List Key) :
    ∃ count, freshName taken ideal = candidate ideal count ∧
      (candidate ideal count).key ∉ taken ∧
      ∀ smaller < count, (candidate ideal smaller).key ∈ taken := by
  unfold freshName
  split
  · rename_i count hfound
    obtain ⟨hfree, -, hsmaller⟩ := List.find?_range_eq_some.mp hfound
    refine ⟨count, rfl, by simpa using hfree, fun smaller hlt => ?_⟩
    simpa using hsmaller smaller hlt
  · rename_i hnone
    obtain ⟨count, hcount, hfree⟩ := exists_candidate_not_mem hideal taken
    have htaken := List.find?_eq_none.mp hnone count (List.mem_range.mpr hcount)
    exact absurd (by simpa using htaken) hfree

/-! ## Names that are set aside -/

def exportKeys (entity : Entity) : List Key := entity.exportNames.map Label.key

def Apart (entities : List Entity) : Prop :=
  entities.Pairwise fun one other => ∀ key ∈ exportKeys one, key ∉ exportKeys other

theorem exportNames_of_apart
    (hused : ∀ entity ∈ entities, ∀ key ∈ exportKeys entity, key ∉ used)
    (hapart : Apart entities) :
    exportNames used entities = .ok (used ++ entities.flatMap exportKeys) := by
  induction entities generalizing used with
  | nil => simp [exportNames]
  | cons entity rest ih =>
      obtain ⟨hfirst, hrest⟩ := List.pairwise_cons.mp hapart
      have hnone : (entity.exportNames.find? fun name => used.contains name.key) =
          none := by
        rw [List.find?_eq_none]
        intro name hname
        simpa using hused entity (by simp) name.key (List.mem_map_of_mem hname)
      rw [exportNames, hnone]
      dsimp only
      rw [ih ?_ hrest, List.flatMap_cons, List.append_assoc]
      · rfl
      · intro other hother key hkey hmem
        rcases List.mem_append.mp hmem with hmem | hmem
        · exact hused other (by simp [hother]) key hkey hmem
        · exact hfirst other hother key hmem hkey

theorem exportNames_eq_error {fault : Fault} (h : exportNames used entities = .error fault) :
    ∃ name, fault = .defect (.duplicateExport name.datum) ∧
      ((∃ entity ∈ entities, name ∈ entity.exportNames ∧ name.key ∈ used) ∨
        ∃ before one between other after,
          entities = before ++ one :: between ++ other :: after ∧
          name.key ∈ exportKeys one ∧ name ∈ other.exportNames) := by
  induction entities generalizing used with
  | nil => cases h
  | cons entity rest ih =>
      rw [exportNames] at h
      split at h
      · rename_i name hfound
        refine ⟨name, (Except.error.inj h).symm, .inl ⟨entity, by simp, ?_, ?_⟩⟩
        · exact List.mem_of_find?_eq_some hfound
        · simpa using List.find?_some hfound
      · obtain ⟨name, rfl, hname⟩ := ih h
        refine ⟨name, rfl, ?_⟩
        rcases hname with ⟨other, hother, hmem, hused⟩ |
          ⟨before, one, between, other, after, rfl, hone, hother⟩
        · rcases List.mem_append.mp hused with hused | hused
          · exact .inl ⟨other, by simp [hother], hmem, hused⟩
          · obtain ⟨between, after, rfl⟩ := List.append_of_mem hother
            exact .inr ⟨[], entity, between, other, after, rfl, hused, hmem⟩
        · exact .inr ⟨entity :: before, one, between, other, after, rfl, hone, hother⟩

theorem apart_of_exportNames {all : List Key} (h : exportNames used entities = .ok all) :
    (∀ entity ∈ entities, ∀ key ∈ exportKeys entity, key ∉ used) ∧
      Apart entities := by
  induction entities generalizing used with
  | nil => simp [Apart]
  | cons entity rest ih =>
      rw [exportNames] at h
      split at h
      · cases h
      · rename_i hnone
        obtain ⟨hrest, hapart⟩ := ih h
        have hentity : ∀ key ∈ exportKeys entity, key ∉ used := by
          intro key hkey
          obtain ⟨name, hname, rfl⟩ := List.mem_map.mp hkey
          simpa using List.find?_eq_none.mp hnone name hname
        refine ⟨List.forall_mem_cons.mpr ⟨hentity, ?_⟩, List.pairwise_cons.mpr ⟨?_, hapart⟩⟩
        · intro other hother key hkey hmem
          exact hrest other hother key hkey (List.mem_append_left _ hmem)
        · intro other hother key hkey hmem
          exact hrest other hother key hmem (List.mem_append_right _ hkey)

/-! ## What a name has to be -/

/-- The ideal name of an entity is the only name it is exported under, unless
that is `default`, and otherwise its name in its own module. -/
inductive Ideal (entity : Entity) : Label → Prop
  | single {name : Label} (only : entity.exportNames = [name])
      (named : name.key ≠ .text "default") : Ideal entity name
  | own {name : Datum} {label : Label}
      (unnamed : ∀ single, entity.exportNames = [single] →
        single.key = .text "default")
      (isLocal : entity.localName = .ok name)
      (labelled : Label.ofDatum name = .ok label) : Ideal entity label

/-- The entity is exported under its ideal name, and nothing speaks against
that name. -/
def Keeps (globals : List Key) (entity : Entity) (ideal : Label) : Prop :=
  ideal.key ∈ exportKeys entity ∧ ideal.key ∉ globals ∧ ideal.key ≠ .text "default"

/-- A name that can be given away when some entities have got theirs. -/
structure Free (globals : List Key) (entities earlier : List Entity) (key : Key) :
    Prop where
  notDefault : key ≠ .text "default"
  notGlobal : key ∉ globals
  notExported : ∀ entity ∈ entities, key ∉ exportKeys entity
  notGiven : ∀ entity ∈ earlier, entity.name.key? ≠ some key

/-- The name of one entity among all entities, after the earlier ones. -/
def Chosen (globals : List Key) (entities earlier : List Entity) (entity : Entity) :
    Prop :=
  ∃ ideal, Ideal entity ideal ∧
    (Keeps globals entity ideal → entity.name = ideal.datum) ∧
    (¬ Keeps globals entity ideal →
      ∃ count, entity.name = (candidate ideal count).datum ∧
        Free globals entities earlier (candidate ideal count).key ∧
        ∀ smaller < count,
          ¬ Free globals entities earlier (candidate ideal smaller).key)

/-- The names of all entities, in the order in which they were given. -/
structure CollisionFree (globals : List Key) (entities : List Entity) : Prop where
  chosen : ∀ earlier entity later, entities = earlier ++ entity :: later →
    Chosen globals entities earlier entity
  allowed : ∀ entity ∈ entities, ∃ key, entity.name.key? = some key ∧
    key ≠ .text "default" ∧ key ∉ globals
  distinct : entities.Pairwise fun one other => one.name.key? ≠ other.name.key?
  foreign : ∀ entity ∈ entities, ∀ other ∈ entities,
    entity.subject.id ≠ other.subject.id →
    ∀ name ∈ other.exportNames, entity.name.key? ≠ some name.key


variable {globals : List Key}

def Proper (entity : Entity) : Prop :=
  ∀ name ∈ entity.exportNames,
    name.datum.key? = some name.key ∧ name.datum.isNull = false

theorem Ideal.key (hproper : Proper entity) (h : Ideal entity ideal) :
    ideal.datum.key? = some ideal.key := by
  cases h with
  | single only _ => exact (hproper ideal (by simp [only])).1
  | own _ _ labelled =>
      obtain ⟨hdatum, hkey⟩ := Label.ofDatum_eq_ok.mp labelled
      exact hdatum ▸ hkey

theorem Ideal.setName (h : Ideal entity ideal) (name : Datum) :
    Ideal (entity.setName name) ideal := by
  cases h with
  | single only named => exact .single only named
  | own unnamed isLocal labelled => exact .own unnamed isLocal labelled

/-- The name that is asked for first is the only export name, if that is not
`default`. -/
theorem idealName_eq (hproper : Proper entity) :
    (∃ name, entity.exportNames = [name] ∧ name.key ≠ .text "default" ∧
      idealName entity = .ok name) ∨
    ((∀ single, entity.exportNames = [single] → single.key = .text "default") ∧
      idealName entity = entity.localName >>= Label.ofDatum) := by
  have hnull : ∀ single : Datum, single.isNull = true →
      entity.singleExportName = single →
      idealName entity = entity.localName >>= Label.ofDatum := by
    intro single hsingle hname
    simp [idealName, hname, hsingle]
  cases hnames : entity.exportNames with
  | nil =>
      refine .inr ⟨by simp, hnull .null rfl ?_⟩
      simp [Entity.singleExportName, hnames]
  | cons name rest =>
      cases rest with
      | cons second rest =>
          refine .inr ⟨by simp, hnull .null rfl ?_⟩
          simp [Entity.singleExportName, hnames]
      | nil =>
          obtain ⟨hkey, hpresent⟩ := hproper name (by simp [hnames])
          have hsingle : entity.singleExportName = name.datum := by
            simp [Entity.singleExportName, hnames]
          by_cases hdefault : name.datum = .text "default"
          · have hequals := Datum.equals_text.mpr hdefault
            refine .inr ⟨?_, by simp [idealName, hsingle, hequals]⟩
            intro single hsame
            rw [← (List.cons.inj hsame).1]
            rw [hdefault] at hkey
            exact (Option.some.inj hkey).symm
          · have hequals : name.datum.equals (.text "default") = false :=
              Bool.eq_false_iff.mpr fun h => hdefault (Datum.equals_text.mp h)
            refine .inl ⟨name, rfl, ?_, ?_⟩
            · intro h
              exact hdefault (Datum.key?_eq_text.mp (h ▸ hkey))
            · simp only [idealName, hsingle, hpresent, hequals, Bool.or_self,
                Bool.false_eq_true, if_false]
              exact Label.ofDatum_eq_ok.mpr ⟨rfl, hkey⟩

theorem idealName_ideal (hproper : Proper entity) (h : idealName entity = .ok ideal) :
    Ideal entity ideal := by
  rcases idealName_eq hproper with ⟨name, hnames, hkey, hname⟩ | ⟨hnames, hname⟩
  · rw [h] at hname
    cases hname
    exact .single hnames hkey
  · rw [h] at hname
    obtain ⟨own, hown, hlabel⟩ := bind_eq_ok.mp hname.symm
    exact .own hnames hown hlabel

theorem keepsIdeal_iff :
    keepsIdeal globals entity ideal = true ↔ Keeps globals entity ideal := by
  simp [keepsIdeal, Keeps, exportKeys, Label.among, and_assoc]

/-! ## Naming one entity after the other -/

def Taken (entities earlier : List Entity) (key : Key) : Prop :=
  (∃ entity ∈ entities, key ∈ exportKeys entity) ∨
    ∃ entity ∈ earlier, entity.name.key? = some key

theorem free_iff {key : Key} (hused : ∀ key, key ∈ used ↔ Taken entities earlier key) :
    Free globals entities earlier key ↔
      key ∉ .text "default" :: used ++ globals := by
  have hkey := hused key
  constructor
  · rintro ⟨hdefault, hglobal, hexported, hgiven⟩ hmem
    simp only [List.cons_append, List.mem_cons, List.mem_append] at hmem
    rcases hmem with hmem | hmem | hmem
    · exact hdefault hmem
    · rcases hkey.mp hmem with ⟨entity, hentity, h⟩ | ⟨entity, hentity, h⟩
      · exact hexported entity hentity h
      · exact hgiven entity hentity h
    · exact hglobal hmem
  · intro hmem
    simp only [List.cons_append, List.mem_cons, List.mem_append, not_or] at hmem
    obtain ⟨hdefault, hfree, hglobal⟩ := hmem
    refine ⟨hdefault, hglobal, fun entity hentity h => ?_, fun entity hentity h => ?_⟩
    · exact hfree (hkey.mpr (.inl ⟨entity, hentity, h⟩))
    · exact hfree (hkey.mpr (.inr ⟨entity, hentity, h⟩))

theorem taken_append {key : Key} :
    Taken entities (earlier ++ [entity]) key ↔
      Taken entities earlier key ∨ entity.name.key? = some key := by
  simp [Taken, or_and_right, exists_or, or_assoc]

private theorem assign_cons {rest : List Entity} (hproper : Proper entity)
    (hlisted : ∀ key ∈ exportKeys entity,
      ∃ other ∈ entities, key ∈ exportKeys other)
    (hused : ∀ key, key ∈ used ↔ Taken entities earlier key)
    (h : assign globals used (entity :: rest) = .ok named) :
    ∃ name others more,
      named = entity.setName name :: others ∧
      Chosen globals entities earlier (entity.setName name) ∧
      assign globals more rest = .ok others ∧
      ∀ key, key ∈ more ↔ Taken entities (earlier ++ [entity.setName name]) key := by
  simp only [assign, bind_eq_ok] at h
  obtain ⟨ideal, hideal, h⟩ := h
  have hideal := idealName_ideal hproper hideal
  have hkey := hideal.key hproper
  split at h
  · rename_i hkeeps
    have hkeeps := keepsIdeal_iff.mp hkeeps
    simp only [bind_eq_ok, pure_eq_ok] at h
    obtain ⟨others, hothers, rfl⟩ := h
    refine ⟨ideal.datum, others, used, rfl, ?_, hothers, fun key => ?_⟩
    · exact ⟨ideal, hideal.setName _, fun _ => rfl, fun hnot => absurd hkeeps hnot⟩
    · -- The name was set aside for the entity from the start.
      rw [taken_append, hused]
      constructor
      · exact .inl
      · rintro (h | h)
        · exact h
        · have hsame : ideal.key = key := by
            simpa [Entity.setName, hkey] using h
          exact .inl (hsame ▸ hlisted ideal.key hkeeps.1)
  · rename_i hkeeps
    have hkeeps : ¬ Keeps globals entity ideal := by
      rwa [keepsIdeal_iff] at hkeeps
    simp only [bind_eq_ok, pure_eq_ok] at h
    obtain ⟨others, hothers, rfl⟩ := h
    obtain ⟨count, hname, hfree, hsmaller⟩ :=
      freshName_first hkey (.text "default" :: used ++ globals)
    refine ⟨_, others, _, rfl, ?_, hothers, fun key => ?_⟩
    · refine ⟨ideal, hideal.setName _, fun hkept => absurd hkept hkeeps,
        fun _ => ⟨count, ?_, (free_iff hused).mpr hfree, ?_⟩⟩
      · rw [hname]
        rfl
      · intro smaller hlt hfree
        exact (free_iff hused).mp hfree (hsmaller smaller hlt)
    · have hfresh : (candidate ideal count).datum.key? =
          some (candidate ideal count).key := by
        cases count with
        | zero => exact hkey
        | succ count => rfl
      rw [taken_append, List.mem_append, List.mem_singleton, hused, hname]
      simp [Entity.setName, hfresh, eq_comm]

theorem assign_chosen {rest : List Entity} (hproper : ∀ entity ∈ rest, Proper entity)
    (hlisted : ∀ entity ∈ rest, ∀ key ∈ exportKeys entity,
      ∃ other ∈ entities, key ∈ exportKeys other)
    (hused : ∀ key, key ∈ used ↔ Taken entities earlier key)
    (h : assign globals used rest = .ok named) :
    ∀ before entity after, named = before ++ entity :: after →
      Chosen globals entities (earlier ++ before) entity := by
  induction rest generalizing used earlier named with
  | nil =>
      cases h
      simp
  | cons first rest ih =>
      obtain ⟨name, others, more, rfl, hchosen, hothers, hmore⟩ :=
        assign_cons (hproper first (by simp)) (hlisted first (by simp)) hused h
      intro before entity after hsplit
      cases before with
      | nil =>
          obtain ⟨rfl, -⟩ := List.cons.inj hsplit
          simpa using hchosen
      | cons _ before =>
          obtain ⟨rfl, hlast⟩ := List.cons.inj hsplit
          have hlater := ih (fun entity hentity => hproper entity (by simp [hentity]))
            (fun entity hentity => hlisted entity (by simp [hentity])) hmore hothers
            before entity after hlast
          simpa using hlater

theorem assign_ok (hideal : ∀ entity ∈ entities, ∃ ideal, idealName entity = .ok ideal) :
    ∃ named, assign globals used entities = .ok named := by
  induction entities generalizing used with
  | nil => exact ⟨[], rfl⟩
  | cons entity rest ih =>
      obtain ⟨ideal, hname⟩ := hideal entity (by simp)
      have hrest : ∀ used, ∃ named, assign globals used rest = .ok named :=
        fun used => ih fun other hother => hideal other (by simp [hother])
      rw [assign, hname]
      simp only [bind, Except.bind]
      split
      · obtain ⟨others, hothers⟩ := hrest used
        exact ⟨_, by rw [hothers]; rfl⟩
      · obtain ⟨others, hothers⟩ :=
          hrest (used ++ [(freshName (.text "default" :: used ++ globals) ideal).key])
        exact ⟨_, by rw [hothers]; rfl⟩

/-! ## No collisions -/

theorem Chosen.key {entities earlier : List Entity} {entity : Entity}
    (hproper : Proper entity) (h : Chosen globals entities earlier entity) :
    ∃ key, entity.name.key? = some key ∧ key ≠ .text "default" ∧ key ∉ globals ∧
      (key ∈ exportKeys entity ∨ Free globals entities earlier key) := by
  obtain ⟨ideal, hideal, hkept, hnumbered⟩ := h
  have hkey := hideal.key hproper
  by_cases hkeeps : Keeps globals entity ideal
  · refine ⟨ideal.key, by rw [hkept hkeeps, hkey], hkeeps.2.2, hkeeps.2.1, .inl hkeeps.1⟩
  · obtain ⟨count, hname, hfree, -⟩ := hnumbered hkeeps
    refine ⟨(candidate ideal count).key, ?_, hfree.notDefault, hfree.notGlobal,
      .inr hfree⟩
    rw [hname]
    cases count with
    | zero => exact hkey
    | succ count => rfl

def Shared (entities : List Entity) : Prop :=
  ∃ one ∈ entities, ∃ other ∈ entities, one.subject.id ≠ other.subject.id ∧
    ∃ key ∈ exportKeys one, key ∈ exportKeys other

theorem apart_of_not_shared (hdistinct : (entities.map fun entity => entity.subject.id).Nodup)
    (hshared : ¬ Shared entities) : Apart entities := by
  have hpairs := List.pairwise_map.mp hdistinct
  refine hpairs.imp_of_mem fun {one other} hone hother hne key hkey hmem => ?_
  exact hshared ⟨one, hone, other, hother, hne, key, hkey, hmem⟩

private theorem collisionFree_of_chosen (hproper : ∀ entity ∈ entities, Proper entity)
    (hdistinct : (entities.map fun entity => entity.subject.id).Nodup)
    (hshared : ¬ Shared entities)
    (hchosen : ∀ earlier entity later, entities = earlier ++ entity :: later →
      Chosen globals entities earlier entity) :
    CollisionFree globals entities := by
  have hname : ∀ entity ∈ entities, ∃ key, entity.name.key? = some key ∧
      key ≠ .text "default" ∧ key ∉ globals ∧
      (key ∈ exportKeys entity ∨ ∀ other ∈ entities, key ∉ exportKeys other) := by
    intro entity hentity
    obtain ⟨earlier, later, hsplit⟩ := List.append_of_mem hentity
    obtain ⟨key, hkey, hdefault, hglobal, hown⟩ :=
      (hchosen earlier entity later hsplit).key (hproper entity hentity)
    exact ⟨key, hkey, hdefault, hglobal, hown.imp_right (·.notExported)⟩
  have hforeign : ∀ entity ∈ entities, ∀ other ∈ entities,
      entity.subject.id ≠ other.subject.id →
      ∀ key ∈ exportKeys other, entity.name.key? ≠ some key := by
    intro entity hentity other hother hne key hkey hsame
    obtain ⟨_, hown, -, -, hclear⟩ := hname entity hentity
    obtain rfl := Option.some.inj (hown.symm.trans hsame)
    rcases hclear with hown | hclear
    · exact hshared ⟨entity, hentity, other, hother, hne, _, hown, hkey⟩
    · exact hclear other hother hkey
  refine ⟨hchosen, fun entity hentity => ?_, ?_, ?_⟩
  · obtain ⟨key, hkey, hdefault, hglobal, -⟩ := hname entity hentity
    exact ⟨key, hkey, hdefault, hglobal⟩
  · rw [List.pairwise_iff_getElem]
    intro i j hi hj hlt hsame
    have hsplit : entities = entities.take j ++ entities[j] :: entities.drop (j + 1) := by
      simp
    have hearlier : entities[i] ∈ entities.take j := by
      rw [List.mem_take_iff_getElem]
      exact ⟨i, by omega, rfl⟩
    have hne : entities[i].subject.id ≠ entities[j].subject.id := by
      have hpairs := List.pairwise_iff_getElem.mp hdistinct i j (by simpa) (by simpa) hlt
      simpa using hpairs
    obtain ⟨key, hkey, -, -, hown⟩ :=
      (hchosen _ _ _ hsplit).key (hproper _ (List.getElem_mem hj))
    rcases hown with hown | hfree
    · exact hforeign _ (List.getElem_mem hi) _ (List.getElem_mem hj) hne key hown
        (hsame.trans hkey)
    · exact hfree.notGiven _ hearlier (hsame.trans hkey)
  · intro entity hentity other hother hne name hmem
    exact hforeign entity hentity other hother hne name.key (List.mem_map_of_mem hmem)

theorem not_shared_of_apart (h : Apart entities) :
    ¬ Shared entities := by
  rintro ⟨one, hone, other, hother, hne, key, hkey, hmem⟩
  have hsymm : Std.Symm fun one other : Entity =>
      ∀ key ∈ exportKeys one, key ∉ exportKeys other :=
    ⟨fun _ _ h key hkey hmem => h key hmem hkey⟩
  have hdiffer : one ≠ other := fun hsame => hne (hsame ▸ rfl)
  exact h.forall hone hother hdiffer key hkey hmem

/-- No ideal name fails because of an export. -/
theorem idealName_ne_duplicate (name : Datum) :
    idealName entity ≠ .error (.defect (.duplicateExport name)) := by
  have hlabel : ∀ datum, Label.ofDatum datum ≠
      .error (.defect (.duplicateExport name)) := by
    intro datum h
    simp only [Label.ofDatum, Datum.key] at h
    split at h <;> cases h
  have hlocal : entity.localName ≠ .error (.defect (.duplicateExport name)) := by
    unfold Entity.localName
    cases entity.subject with
    | symbol label own => simp [Subject.localName]
    | imported label source =>
        intro h
        obtain ⟨shape, operation, hfault⟩ := Import.localName_eq_error h
        cases hfault
  intro h
  simp only [idealName] at h
  split at h
  · cases hname : entity.localName with
    | ok own =>
        rw [hname] at h
        exact hlabel own h
    | error fault =>
        rw [hname] at h
        exact hlocal (Except.error.inj h ▸ hname)
  · exact hlabel _ h

theorem assign_eq_error {fault : Fault} (h : assign globals used entities = .error fault) :
    ∃ entity ∈ entities, idealName entity = .error fault := by
  induction entities generalizing used with
  | nil => cases h
  | cons entity rest ih =>
      rw [assign] at h
      cases hideal : idealName entity with
      | error other =>
          simp only [hideal, bind, Except.bind, Except.error.injEq] at h
          exact ⟨entity, by simp, h ▸ hideal⟩
      | ok ideal =>
          simp only [hideal, bind, Except.bind] at h
          have hrest : ∃ used, assign globals used rest = .error fault := by
            split at h
            all_goals
              split at h
              · rename_i hothers
                exact ⟨_, hothers.trans h⟩
              · cases h
          obtain ⟨used, hrest⟩ := hrest
          obtain ⟨other, hother, hname⟩ := ih hrest
          exact ⟨other, by simp [hother], hname⟩

theorem nameAll_eq_error_iff (hdistinct : (entities.map fun entity => entity.subject.id).Nodup) :
    (∃ name, nameAll globals entities = .error (.defect (.duplicateExport name))) ↔
      Shared entities := by
  constructor
  · rintro ⟨name, h⟩
    by_contra hshared
    have hnone : ∀ entity ∈ entities, ∀ key ∈ exportKeys entity, key ∉ [] := by simp
    have hused := exportNames_of_apart hnone (apart_of_not_shared hdistinct hshared)
    simp only [nameAll, hused, bind, Except.bind] at h
    obtain ⟨entity, -, hideal⟩ := assign_eq_error h
    exact idealName_ne_duplicate name hideal
  · intro hshared
    cases hused : exportNames [] entities with
    | ok used => exact absurd hshared (not_shared_of_apart (apart_of_exportNames hused).2)
    | error fault =>
        obtain ⟨name, rfl, -⟩ := exportNames_eq_error hused
        exact ⟨name.datum, by simp [nameAll, hused, bind, Except.bind]⟩

theorem nameAll_ok (hdistinct : (entities.map fun entity => entity.subject.id).Nodup)
    (hshared : ¬ Shared entities)
    (hideal : ∀ entity ∈ entities, ∃ ideal, idealName entity = .ok ideal) :
    ∃ named, nameAll globals entities = .ok named := by
  have hnone : ∀ entity ∈ entities, ∀ key ∈ exportKeys entity, key ∉ [] := by simp
  have hused := exportNames_of_apart hnone (apart_of_not_shared hdistinct hshared)
  obtain ⟨named, hnamed⟩ := assign_ok hideal
  exact ⟨named, by simpa only [nameAll, hused, bind, Except.bind] using hnamed⟩

theorem nameAll_collisionFree (hproper : ∀ entity ∈ entities, Proper entity)
    (hdistinct : (entities.map fun entity => entity.subject.id).Nodup)
    (h : nameAll globals entities = .ok named) : CollisionFree globals named := by
  have hunnamed := nameAll_unnamed h
  obtain ⟨used, hused, hassigned⟩ := bind_eq_ok.mp h
  obtain ⟨-, hapart⟩ := apart_of_exportNames hused
  -- Export names and subjects are those from before.
  have hkeys : named.flatMap exportKeys = entities.flatMap exportKeys := by
    have hsame := congrArg (List.flatMap exportKeys) hunnamed
    rw [List.flatMap_map, List.flatMap_map] at hsame
    exact hsame
  have hids : named.map (fun entity => entity.subject.id) =
      entities.map fun entity => entity.subject.id := by
    have hsame := congrArg (List.map fun entity => entity.subject.id) hunnamed
    rw [List.map_map, List.map_map] at hsame
    exact hsame
  have hnamed : ∀ entity ∈ named, Proper entity := by
    intro entity hentity
    obtain ⟨other, hother, -, hnames⟩ := Entity.exists_of_unnamed hunnamed hentity
    rw [Proper, ← hnames]
    exact hproper other hother
  have hshared : ¬ Shared named := by
    rintro ⟨one, hone, other, hother, hne, key, hkey, hmem⟩
    obtain ⟨first, hfirst, hsubject, hnames⟩ := Entity.exists_of_unnamed hunnamed hone
    obtain ⟨second, hsecond, hsubject', hnames'⟩ :=
      Entity.exists_of_unnamed hunnamed hother
    refine not_shared_of_apart hapart
      ⟨first, hfirst, second, hsecond, by rwa [hsubject, hsubject'], key, ?_, ?_⟩
    · rwa [exportKeys, hnames]
    · rwa [exportKeys, hnames']
  have hmem : ∀ key, (∃ entity ∈ named, key ∈ exportKeys entity) ↔
      key ∈ entities.flatMap exportKeys := by
    intro key
    rw [← hkeys, List.mem_flatMap]
  refine collisionFree_of_chosen hnamed (hids ▸ hdistinct) hshared ?_
  have hchosen : ∀ before entity after, named = before ++ entity :: after →
      Chosen globals named ([] ++ before) entity := by
    refine assign_chosen hproper ?_ ?_ hassigned
    · intro entity hentity key hkey
      exact (hmem key).mpr (List.mem_flatMap.mpr ⟨entity, hentity, hkey⟩)
    · intro key
      rw [exportNames_of_apart (by simp) hapart] at hused
      rw [← Except.ok.inj hused, Taken, hmem key]
      simp
  exact hchosen

end Naming

end ApiSurface
