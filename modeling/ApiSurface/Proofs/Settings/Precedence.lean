import ApiSurface.Message
import ApiSurface.Settings
import ApiSurface.Proofs.Extraction.Files

/-!
# Which setting holds

Two merges decide about a message rule: the rules of the user's file are merged
into the shipped ones id by id when the settings are laid over each other, and the
rule called `default` is laid under the rule of an id when a message is judged.
Together they give each field of a rule five sources in a fixed order.  Every other
setting comes from the last layer that has it.
-/

namespace ApiSurface

/-! ## Tables -/

namespace Entries

section Lookup

variable {α β : Type} [BEq α] [LawfulBEq α]

theorem lookup_eq_none {key : α} {entries : List (α × β)} (h : key ∉ entries.map Prod.fst) :
    entries.lookup key = none := by
  rw [List.lookup_eq_none_iff]
  intro entry hentry
  rw [bne_iff_ne]
  rintro rfl
  exact h (List.mem_map_of_mem hentry)

theorem lookup_merge (entries additions : List (α × β))
    (h : (additions.map Prod.fst).Nodup) (key : α) :
    (merge entries additions).lookup key = (additions.lookup key).or (entries.lookup key) := by
  induction additions generalizing entries with
  | nil => rfl
  | cons addition rest ih =>
      obtain ⟨first, value⟩ := addition
      obtain ⟨hfirst, hrest⟩ := List.nodup_cons.mp h
      have hmerge : merge entries ((first, value) :: rest) =
          merge (insert first value entries) rest := rfl
      rw [hmerge, ih _ hrest]
      by_cases hkey : key = first
      · subst hkey
        rw [lookup_eq_none hfirst, lookup_insert_self, List.lookup_cons_self, Option.none_or,
          Option.some_or]
      · have hother : (key == first) = false := by simpa using hkey
        rw [lookup_insert_of_ne hkey, List.lookup_cons, hother]

private theorem lookup_erase_self (key : α) (entries : List (α × β)) :
    (erase key entries).lookup key = none := by
  apply lookup_eq_none
  simp [erase]

theorem lookup_erase_of_ne {key other : α} (h : other ≠ key) (entries : List (α × β)) :
    (erase key entries).lookup other = entries.lookup other := by
  induction entries with
  | nil => rfl
  | cons entry rest ih =>
      obtain ⟨first, value⟩ := entry
      unfold erase at ih ⊢
      by_cases hkey : first = key
      · have hother : (other == first) = false := by simpa [hkey] using h
        simp [hkey, ← ih, List.lookup_cons, hkey ▸ hother]
      · simp [hkey, ih, List.lookup_cons]

private theorem lookup_filter_values (keep : β → Bool) {entries : List (α × β)}
    (h : (entries.map Prod.fst).Nodup) (key : α) :
    (entries.filter fun entry => keep entry.2).lookup key =
      (entries.lookup key).filter keep := by
  induction entries with
  | nil => rfl
  | cons entry rest ih =>
      obtain ⟨first, value⟩ := entry
      obtain ⟨hfirst, hrest⟩ := List.nodup_cons.mp h
      have hrest := ih hrest
      by_cases hkey : key = first
      · subst hkey
        rw [lookup_eq_none hfirst, Option.filter_none] at hrest
        cases hkept : keep value <;> simp [hkept, hrest, Option.filter]
      · have hother : (key == first) = false := by simpa using hkey
        cases hkept : keep value <;> simp [hkept, List.lookup_cons, hother, hrest]

private theorem keys_insert (key : α) (value : β) (entries : List (α × β)) :
    (insert key value entries).map Prod.fst = entries.map Prod.fst ∨
      key ∉ entries.map Prod.fst ∧
        (insert key value entries).map Prod.fst = entries.map Prod.fst ++ [key] := by
  induction entries with
  | nil => exact .inr ⟨by simp, rfl⟩
  | cons entry rest ih =>
      rw [insert]
      split
      · exact .inl rfl
      · rename_i hkey
        rcases ih with hsame | ⟨hnew, hadded⟩
        · exact .inl (by simp [hsame])
        · refine .inr ⟨?_, by simp [hadded]⟩
          rw [List.map_cons, List.mem_cons, not_or]
          exact ⟨fun hsame => hkey (by simp [hsame]), hnew⟩

private theorem nodup_insert (key : α) (value : β) {entries : List (α × β)}
    (h : (entries.map Prod.fst).Nodup) : ((insert key value entries).map Prod.fst).Nodup := by
  rcases keys_insert key value entries with hsame | ⟨hnew, hadded⟩
  · rwa [hsame]
  · rw [hadded]
    exact List.concat_eq_append ▸ h.concat hnew

private theorem nodup_merge {entries : List (α × β)} (additions : List (α × β))
    (h : (entries.map Prod.fst).Nodup) : ((merge entries additions).map Prod.fst).Nodup := by
  induction additions generalizing entries with
  | nil => exact h
  | cons addition rest ih => exact ih (nodup_insert addition.1 addition.2 h)

end Lookup

theorem nodup_filter {α β : Type} (keep : α × β → Bool) {entries : List (α × β)}
    (h : (entries.map Prod.fst).Nodup) : ((entries.filter keep).map Prod.fst).Nodup :=
  h.sublist (List.filter_sublist.map _)

end Entries

/-! ## Maps whose keys are texts -/

namespace Datum

def at? (key : Key) : Datum → Option Datum
  | .map entries => keyed? (some key) entries
  | _ => none

/-- A map as a file gives it: its keys are texts, and no key comes twice. -/
def IsObject (datum : Datum) : Prop :=
  ∃ fields : List (String × Datum), datum = .record fields ∧ (fields.map Prod.fst).Nodup

variable {fields additions : List (String × Datum)}

def recordEntries (fields : List (String × Datum)) : List (Datum × Datum) :=
  fields.map fun field => (.text field.1, field.2)

theorem recordEntries_cons (field : String × Datum) (rest : List (String × Datum)) :
    recordEntries (field :: rest) = (.text field.1, field.2) :: recordEntries rest := rfl

theorem named?_recordEntries (name : String) (fields : List (String × Datum)) :
    named? name (recordEntries fields) = fields.lookup name := by
  induction fields with
  | nil => rfl
  | cons field rest ih =>
      obtain ⟨first, value⟩ := field
      rw [recordEntries_cons, named?, ih, List.lookup_cons]
      by_cases h : first = name
      · simp [h]
      · have hother : (name == first) = false := by simpa using Ne.symm h
        simp [h, hother]

theorem keyed?_recordEntries_text (name : String) (fields : List (String × Datum)) :
    keyed? (some (.text name)) (recordEntries fields) = fields.lookup name := by
  induction fields with
  | nil => rfl
  | cons field rest ih =>
      obtain ⟨first, value⟩ := field
      unfold keyed? at ih ⊢
      rw [recordEntries_cons, List.find?_cons, List.lookup_cons]
      by_cases h : first = name
      · simp [key?, h]
      · have hother : (name == first) = false := by simpa using Ne.symm h
        simpa [key?, h, hother] using ih

theorem insertEntry_recordEntries (name : String) (value : Datum)
    (fields : List (String × Datum)) :
    insertEntry (.text name) value (recordEntries fields) =
      recordEntries (Entries.insert name value fields) := by
  induction fields with
  | nil => rfl
  | cons field rest ih =>
      rw [recordEntries_cons, insertEntry, ih, Entries.insert]
      by_cases h : field.1 = name
      · simp [key?, h, recordEntries]
      · simp [key?, h, recordEntries]

theorem mergeEntries_recordEntries (fields additions : List (String × Datum)) :
    mergeEntries (recordEntries fields) (recordEntries additions) =
      recordEntries (Entries.merge fields additions) := by
  induction additions generalizing fields with
  | nil => rfl
  | cons addition rest ih =>
      have hmerge : mergeEntries (recordEntries fields) (recordEntries (addition :: rest)) =
          mergeEntries (insertEntry (.text addition.1) addition.2 (recordEntries fields))
            (recordEntries rest) := rfl
      rw [hmerge, insertEntry_recordEntries, ih]
      rfl

theorem at?_record (name : String) (fields : List (String × Datum)) :
    (record fields).at? (.text name) = fields.lookup name :=
  keyed?_recordEntries_text name fields

theorem at?_cons (key : Key) (field : String × Datum) (rest : List (String × Datum)) :
    (record (field :: rest)).at? key =
      if key = .text field.1 then some field.2 else (record rest).at? key := by
  change keyed? (some key) (recordEntries (field :: rest)) = _
  rw [recordEntries_cons, keyed?, List.find?_cons]
  by_cases h : key = .text field.1
  · simp [key?, h]
  · simp [key?, h, Ne.symm h]
    rfl

theorem at?_insert (key : Key) (name : String) (value : Datum)
    (fields : List (String × Datum)) :
    (record (Entries.insert name value fields)).at? key =
      if key = .text name then some value else (record fields).at? key := by
  induction fields with
  | nil => exact at?_cons key (name, value) []
  | cons field rest ih =>
      rw [Entries.insert]
      split
      · rename_i hname
        rw [beq_iff_eq] at hname
        rw [at?_cons, at?_cons, hname]
        split <;> rfl
      · rename_i hname
        rw [beq_iff_eq] at hname
        rw [at?_cons, at?_cons, ih]
        by_cases h : key = .text field.1 <;> simp [h, hname]

theorem exists_mem_of_at? {key : Key} {value : Datum} (h : (record fields).at? key = some value) :
    ∃ field ∈ fields, field.2 = value := by
  obtain ⟨entry, hentry, rfl⟩ := Option.map_eq_some_iff.mp h
  obtain ⟨field, hfield, rfl⟩ := List.mem_map.mp (List.mem_of_find?_eq_some hentry)
  exact ⟨field, hfield, rfl⟩

theorem IsObject.empty : IsObject (.map []) := ⟨[], rfl, .nil⟩

end Datum

/-! ## Rules -/

namespace Settings

open Datum

def IsTable (rules : List (String × Datum)) : Prop :=
  ∀ id rule, (Datum.record rules).at? id = some rule → rule.IsObject

def fieldIn (rules : List (String × Datum)) (id : Key) (field : String) : Option Datum :=
  ((Datum.record rules).at? id).bind (Datum.at? (.text field))

variable {rules given : List (String × Datum)}

theorem IsTable.getD (h : IsTable rules) (id : Key) :
    (((Datum.record rules).at? id).getD (.map [])).IsObject := by
  cases hrule : (Datum.record rules).at? id with
  | none => exact .empty
  | some rule => exact h id rule hrule

theorem fieldIn_getD (rules : List (String × Datum)) (id : Key) (field : String) :
    fieldIn rules id field =
      (((Datum.record rules).at? id).getD (.map [])).at? (.text field) := by
  unfold fieldIn
  cases (Datum.record rules).at? id <;> rfl

theorem fieldIn_cons (rule : String × Datum) (rest : List (String × Datum)) (id : Key)
    (field : String) : fieldIn (rule :: rest) id field =
      if id = .text rule.1 then rule.2.at? (.text field) else fieldIn rest id field := by
  rw [fieldIn, at?_cons]
  split <;> rfl

theorem mergeRule_eq (h : IsTable rules) {rule : Datum} (hrule : rule.IsObject) (id : String) :
    ∃ merged, mergeRule (recordEntries rules) (.text id, rule) = .ok (recordEntries merged) ∧
      IsTable merged ∧ ∀ other field, fieldIn merged other field =
        if other = .text id then (rule.at? (.text field)).or (fieldIn rules other field)
        else fieldIn rules other field := by
  obtain ⟨specific, rfl, hspecific⟩ := hrule
  obtain ⟨shared, hshared, hdistinct⟩ := h.getD (.text id)
  refine ⟨Entries.insert id (.record (Entries.merge shared specific)) rules, ?_, ?_, ?_⟩
  · have hkeyed : (keyed? (Datum.key? (.text id)) (recordEntries rules)).getD (.map []) =
        .record shared := hshared
    rw [mergeRule, hkeyed]
    change Except.ok (insertEntry (.text id)
      (.map (mergeEntries (recordEntries shared) (recordEntries specific)))
      (recordEntries rules)) = _
    rw [insertEntry_recordEntries, mergeEntries_recordEntries]
    rfl
  · intro other found hfound
    rw [at?_insert] at hfound
    split at hfound
    · exact ⟨_, (Option.some.inj hfound).symm, Entries.nodup_merge specific hdistinct⟩
    · exact h other found hfound
  · intro other field
    rw [fieldIn_getD, at?_insert]
    split
    · rename_i hother
      rw [fieldIn_getD, hother, hshared, Option.getD_some, at?_record, at?_record, at?_record,
        Entries.lookup_merge shared specific hspecific]
    · rw [fieldIn_getD]

theorem foldlM_mergeRule (h : IsTable rules) (hgiven : ∀ entry ∈ given, entry.2.IsObject)
    (hdistinct : (given.map Prod.fst).Nodup) :
    ∃ merged, (recordEntries given).foldlM mergeRule (recordEntries rules) =
        .ok (recordEntries merged) ∧
      IsTable merged ∧ ∀ id field, fieldIn merged id field =
        (fieldIn given id field).or (fieldIn rules id field) := by
  induction given generalizing rules with
  | nil => exact ⟨rules, rfl, h, fun _ _ => rfl⟩
  | cons entry rest ih =>
      obtain ⟨hfirst, hrest⟩ := List.forall_mem_cons.mp hgiven
      obtain ⟨hnew, hdistinct⟩ := List.nodup_cons.mp hdistinct
      obtain ⟨next, hnext, htable, hfields⟩ := mergeRule_eq h hfirst entry.1
      obtain ⟨merged, hmerged, hlast, hall⟩ := ih htable hrest hdistinct
      refine ⟨merged, ?_, hlast, fun id field => ?_⟩
      · rw [recordEntries_cons, List.foldlM_cons, hnext]
        exact hmerged
      · have hnone : fieldIn rest (.text entry.1) field = none := by
          rw [fieldIn, at?_record, Entries.lookup_eq_none hnew, Option.bind_none]
        rw [hall, hfields, fieldIn_cons]
        split
        · rename_i hid
          rw [hid, hnone, Option.none_or]
        · rfl

/-! ## The layers -/

/-- A file of settings: a map whose message rules, if it has any, are maps too. -/
structure IsFile (file : Datum) : Prop where
  object : file.IsObject
  rules : ∀ rules, file.at? (.text "messages") = some rules → rules.IsObject
  fields : ∀ rules id rule, file.at? (.text "messages") = some rules →
    rules.at? id = some rule → rule.IsObject

theorem IsFile.ofRules {fields : List (String × Datum)} (hfields : (fields.map Prod.fst).Nodup)
    (hmessages : fields.lookup "messages" = some (.record rules))
    (hrules : (rules.map Prod.fst).Nodup) (hobjects : ∀ entry ∈ rules, entry.2.IsObject) :
    IsFile (.record fields) := by
  have hfound : (Datum.record fields).at? (.text "messages") = some (.record rules) := by
    rw [at?_record, hmessages]
  refine ⟨⟨fields, rfl, hfields⟩, ?_, ?_⟩ <;> intro table
  · rw [hfound, Option.some_inj]
    rintro rfl
    exact ⟨rules, rfl, hrules⟩
  · intro id rule
    rw [hfound, Option.some_inj]
    rintro rfl hrule
    obtain ⟨entry, hentry, rfl⟩ := exists_mem_of_at? hrule
    exact hobjects entry hentry

def ruleField? (id : Key) (field : String) (file : Datum) : Option Datum :=
  ((file.at? (.text "messages")).bind (Datum.at? id)).bind (Datum.at? (.text field))

theorem IsFile.table {file : Datum} (h : IsFile file) :
    ∃ rules, (file.at? (.text "messages")).getD (.map []) = .record rules ∧
      (rules.map Prod.fst).Nodup ∧ IsTable rules ∧
      ∀ id field, ruleField? id field file = fieldIn rules id field := by
  cases hmessages : file.at? (.text "messages") with
  | none =>
      have hempty : ∀ id, (Datum.record []).at? id = none := fun _ => rfl
      exact ⟨[], rfl, .nil, fun id rule hrule => by simp [hempty] at hrule,
        fun id field => by simp [ruleField?, hmessages, fieldIn, hempty]⟩
  | some messages =>
      obtain ⟨rules, rfl, hdistinct⟩ := h.rules messages hmessages
      refine ⟨rules, rfl, hdistinct, fun id rule => h.fields _ id rule hmessages, ?_⟩
      intro id field
      rw [ruleField?, hmessages, Option.bind_some, fieldIn]

theorem IsTable.forall_mem (h : IsTable rules) (hdistinct : (rules.map Prod.fst).Nodup) :
    ∀ entry ∈ rules, entry.2.IsObject := by
  intro entry hentry
  refine h (.text entry.1) entry.2 ?_
  rw [at?_record, (Entries.lookup_eq_some_iff_mem hdistinct).mpr hentry]

theorem ofEntries_recordEntries (fields : List (String × Datum)) :
    ofEntries (recordEntries fields) = fields := by
  simp [ofEntries, recordEntries, List.filterMap_map]

/-- What the settings say after the defaults and the user's file. -/
structure Layered (base : Datum) (user : Option Datum) (settings : Settings) : Prop where
  others : ∀ key, key ≠ "messages" → settings.lookup key =
    (user.bind (Datum.at? (.text key))).or (base.at? (.text key))
  messages : ∃ rules, ((settings.lookup "messages").getD (.map []) = .record rules) ∧
    IsTable rules ∧ ∀ id field, fieldIn rules id field =
      (user.bind (ruleField? id field)).or (ruleField? id field base)

theorem mergeUser_layered {base user : Datum} (hbase : IsFile base) (huser : IsFile user) :
    ∃ settings, mergeUser base user = .ok settings ∧ Layered base (some user) settings := by
  obtain ⟨shipped, hshipped, -, hobjects, hfields⟩ := hbase.table
  obtain ⟨given, hgiven, hdistinct, hobjects', hfields'⟩ := huser.table
  obtain ⟨defaults, rfl, hdefaults⟩ := hbase.object
  obtain ⟨entries, rfl, hentries⟩ := huser.object
  rw [at?_record] at hshipped hgiven
  obtain ⟨merged, hmerged, htable, hall⟩ :=
    foldlM_mergeRule hobjects (hobjects'.forall_mem hdistinct) hdistinct
  have hlookup : ∀ key, (Entries.merge defaults (Entries.erase "messages" entries)).lookup key =
      ((Entries.erase "messages" entries).lookup key).or (defaults.lookup key) :=
    Entries.lookup_merge defaults _ (Entries.nodup_filter _ hentries)
  have hrules : (Entries.merge defaults (Entries.erase "messages" entries)).lookup "messages" =
      defaults.lookup "messages" := by
    rw [hlookup, Entries.lookup_erase_self, Option.none_or]
  have hothers : ∀ key, key ≠ "messages" →
      (Entries.merge defaults (Entries.erase "messages" entries)).lookup key =
        ((some (Datum.record entries)).bind (Datum.at? (.text key))).or
          ((Datum.record defaults).at? (.text key)) := by
    intro key hkey
    rw [hlookup, Entries.lookup_erase_of_ne hkey, Option.bind_some, at?_record, at?_record]
  have huserEntries : userEntries (.record entries) = .ok entries :=
    congrArg Except.ok (ofEntries_recordEntries entries)
  have hofDefaults : ofDefaults (.record defaults) = .ok defaults :=
    congrArg Except.ok (ofEntries_recordEntries defaults)
  rw [mergeUser, huserEntries, hofDefaults]
  simp only [bind, Except.bind]
  by_cases hpresent : ((entries.lookup "messages").getD .null).present = true
  · have hgiven' : (entries.lookup "messages").getD .null = .record given := by
      cases hmessages : entries.lookup "messages" with
      | none => simp [hmessages, Datum.present] at hpresent
      | some messages => simpa [hmessages] using hgiven
    refine ⟨Entries.insert "messages" (.record merged)
      (Entries.merge defaults (Entries.erase "messages" entries)), ?_, ?_, ?_⟩
    · rw [if_pos hpresent, hrules, hshipped, hgiven']
      change ((recordEntries given).foldlM mergeRule (recordEntries shipped)).bind _ = _
      rw [hmerged]
      rfl
    · intro key hkey
      rw [Entries.lookup_insert_of_ne hkey, hothers key hkey]
    · refine ⟨merged, by rw [Entries.lookup_insert_self, Option.getD_some], htable, ?_⟩
      intro id field
      rw [hall, Option.bind_some, hfields, hfields']
  · have habsent : (Datum.record given).present = false := by
      rw [← hgiven]
      cases hmessages : entries.lookup "messages" with
      | none => rfl
      | some messages => simpa [hmessages] using hpresent
    have hnone : given = [] := by simpa [Datum.record, Datum.present] using habsent
    refine ⟨Entries.merge defaults (Entries.erase "messages" entries), by rw [if_neg hpresent]; rfl,
      hothers, shipped, by rw [hrules, hshipped], hobjects, fun id field => ?_⟩
    rw [Option.bind_some, hfields, hfields', hnone]
    rfl

private theorem ofDefaults_layered {base : Datum} (hbase : IsFile base) :
    ∃ settings, ofDefaults base = .ok settings ∧ Layered base none settings := by
  obtain ⟨shipped, hshipped, -, hobjects, hfields⟩ := hbase.table
  obtain ⟨defaults, rfl, -⟩ := hbase.object
  refine ⟨defaults, congrArg Except.ok (ofEntries_recordEntries defaults), fun key _ => ?_,
    shipped, by rw [← hshipped, at?_record], hobjects, fun id field => ?_⟩
  · rw [Option.bind_none, Option.none_or, at?_record]
  · rw [Option.bind_none, Option.none_or, hfields]

/-- What holds for a setting: what the caller asks for, unless that is null, then
what the user's file has, then the default. -/
def effective (base : Datum) (user : Option Datum) (overrides : Datum) (key : String) :
    Option Datum :=
  ((overrides.at? (.text key)).filter fun value => !value.isNull).or
    ((user.bind (Datum.at? (.text key))).or (base.at? (.text key)))

/-- What holds for a field of the rule for an id: the user's rule for the id, the
shipped one, the user's rule called `default`, the shipped one, and last a value that
is built in. -/
def effectiveField (base : Datum) (user : Option Datum) (id : Key) (field : String)
    (builtIn : Datum) : Datum :=
  ((user.bind (ruleField? id field)).or <| (ruleField? id field base).or <|
    (user.bind (ruleField? (.text "default") field)).or <|
      ruleField? (.text "default") field base).getD builtIn

theorem override_layered {base overrides : Datum} {user : Option Datum} {settings : Settings}
    (h : Layered base user settings) {wishes : List (String × Datum)}
    (hwishes : overrides = .record wishes) (hdistinct : (wishes.map Prod.fst).Nodup)
    (hmessages : ∀ value, overrides.at? (.text "messages") = some value → value = .null) :
    (∀ key, key ≠ "messages" →
      (settings.override wishes).lookup key = effective base user overrides key) ∧
    (settings.override wishes).lookup "messages" = settings.lookup "messages" := by
  have hlookup : ∀ key, (settings.override wishes).lookup key =
      ((overrides.at? (.text key)).filter fun value => !value.isNull).or
        (settings.lookup key) := by
    intro key
    rw [override, Entries.lookup_merge _ _ (Entries.nodup_filter _ hdistinct),
      Entries.lookup_filter_values (fun value => !value.isNull) hdistinct, hwishes, at?_record]
  refine ⟨fun key hkey => ?_, ?_⟩
  · rw [hlookup, h.others key hkey, effective]
  · rw [hlookup]
    cases hvalue : overrides.at? (.text "messages") with
    | none => rfl
    | some value =>
        rw [hmessages value hvalue]
        rfl

/-! ## Judging messages -/

theorem ruleFields_record (rules : List (String × Datum)) {id : Datum} {key : Key}
    (hid : id.key? = some key) {shared specific : List (String × Datum)}
    (hshared : (rules.lookup "default").getD (.map []) = .record shared)
    (hspecific : (keyed? (some key) (recordEntries rules)).getD (.map []) = .record specific) :
    ruleFields (.record rules) id = .ok (recordEntries (Entries.merge shared specific)) := by
  have htable : (Datum.record rules).orElse (.map []) = .record rules := by
    unfold Datum.orElse
    split
    · rfl
    · rename_i habsent
      have hnone : rules = [] := by simpa [Datum.record, Datum.present] using habsent
      rw [hnone]
      rfl
  have hkey : id.key = .ok key := by simp [Datum.key, hid]
  rw [ruleFields, htable]
  change (((named? "default" (recordEntries rules)).getD (.map [])).toEntries >>= _) = _
  rw [named?_recordEntries, hshared, hkey]
  change (((keyed? (some key) (recordEntries rules)).getD (.map [])).toEntries >>= _) = _
  rw [hspecific]
  change Except.ok (mergeEntries (recordEntries shared) (recordEntries specific)) = _
  rw [mergeEntries_recordEntries]

private theorem exists_ruleFields (h : IsTable rules) {id : Datum} {key : Key}
    (hid : id.key? = some key) :
    ∃ fields, ruleFields (.record rules) id = .ok fields ∧ ∀ field, named? field fields =
      (fieldIn rules key field).or (fieldIn rules (.text "default") field) := by
  obtain ⟨shared, hshared, -⟩ := h.getD (.text "default")
  obtain ⟨specific, hspecific, hdistinct⟩ := h.getD key
  refine ⟨recordEntries (Entries.merge shared specific),
    ruleFields_record rules hid ?_ hspecific, fun field => ?_⟩
  · rw [← hshared, at?_record]
  · rw [named?_recordEntries, Entries.lookup_merge shared specific hdistinct, fieldIn_getD,
      fieldIn_getD, hshared, hspecific, at?_record, at?_record]

theorem ruleFor_record (h : IsTable rules) {id : Datum} {key : Key} (hid : id.key? = some key)
    {level report : Datum}
    (hlevel : level = ((fieldIn rules key "log_level").or
      (fieldIn rules (.text "default") "log_level")).getD (.text "warning"))
    (hreport : report = ((fieldIn rules key "add_to_report").or
      (fieldIn rules (.text "default") "add_to_report")).getD (.bool true)) :
    (∀ known, LogLevel.ofDatum? level = some known →
      ruleFor (.record rules) id = .ok (known, report.present)) ∧
    (LogLevel.ofDatum? level = none →
      ruleFor (.record rules) id = .error (.problem (.invalidLevel level id))) := by
  obtain ⟨fields, hfields, hnamed⟩ := exists_ruleFields h hid
  rw [← hnamed] at hlevel hreport
  subst hlevel hreport
  refine ⟨fun known hknown => ?_, fun hunknown => ?_⟩
  · simp only [ruleFor, hfields, bind, Except.bind, hknown]
    rfl
  · simp only [ruleFor, hfields, bind, Except.bind, hunknown]
    rfl

private theorem validate_eq {settings : Settings}
    (h : (settings.lookup "messages").getD (.map []) = .record rules) :
    settings.validate =
      if isNewline ((settings.lookup "newline_kind").getD (.text "lf")) then .ok ()
      else .error (.problem (.invalidNewlineSetting
        ((settings.lookup "newline_kind").getD (.text "lf")))) := by
  unfold validate
  dsimp only
  rw [h]
  cases isNewline ((settings.lookup "newline_kind").getD (.text "lf")) <;> rfl

private theorem ruleFor_getD (settings : Settings) (id : Datum) :
    ruleFor ((settings.lookup "messages").getD .null) id =
      ruleFor ((settings.lookup "messages").getD (.map [])) id := by
  cases settings.lookup "messages" <;> rfl

theorem layer_eq {base overrides : Datum} {user : Option Datum} (hbase : IsFile base)
    (huser : ∀ file, user = some file → IsFile file) {wishes : List (String × Datum)}
    (hwishes : overrides = .record wishes) :
    ∃ settings, Layered base user settings ∧ layer base user overrides =
      (do (settings.override wishes).validate; pure (settings.override wishes)) := by
  have hentries : overrides.entries = .ok (recordEntries wishes) := by rw [hwishes]; rfl
  unfold layer
  rw [hentries]
  cases user with
  | none =>
      obtain ⟨settings, hsettings, hlayered⟩ := ofDefaults_layered hbase
      refine ⟨settings, hlayered, ?_⟩
      simp only [hsettings, bind, Except.bind, ofEntries_recordEntries]
  | some file =>
      obtain ⟨settings, hsettings, hlayered⟩ := mergeUser_layered hbase (huser file rfl)
      refine ⟨settings, hlayered, ?_⟩
      simp only [hsettings, bind, Except.bind, ofEntries_recordEntries]

/-- A known kind of line ends is all that is asked of files of settings.  Then each
setting comes from the last layer that has it, and each field of the rule for a message
id from the first of its five sources. -/
theorem layer_takes_first {base overrides : Datum} {user : Option Datum}
    (hbase : IsFile base) (huser : ∀ file, user = some file → IsFile file)
    (hoverrides : overrides.IsObject)
    (hmessages : ∀ value, overrides.at? (.text "messages") = some value → value = .null) :
    let newline := (effective base user overrides "newline_kind").getD (.text "lf")
    (isNewline newline = false →
      layer base user overrides = .error (.problem (.invalidNewlineSetting newline))) ∧
    (isNewline newline = true → ∃ settings, layer base user overrides = .ok settings ∧
      (∀ key, key ≠ "messages" →
        settings.lookup key = effective base user overrides key) ∧
      ∀ (id : Datum) (key : Key), id.key? = some key →
        let rules := (settings.lookup "messages").getD .null
        let level := effectiveField base user key "log_level" (.text "warning")
        let report := effectiveField base user key "add_to_report" (.bool true)
        (∀ known, LogLevel.ofDatum? level = some known →
          ruleFor rules id = .ok (known, report.present)) ∧
        (LogLevel.ofDatum? level = none →
          ruleFor rules id = .error (.problem (.invalidLevel level id)))) := by
  obtain ⟨wishes, hwishes, hdistinct⟩ := hoverrides
  obtain ⟨settings, hlayered, hlayer⟩ := layer_eq hbase huser hwishes
  obtain ⟨hothers, hsame⟩ := override_layered hlayered hwishes hdistinct hmessages
  obtain ⟨rules, hrules, htable, hfields⟩ := hlayered.messages
  intro newline
  have hmerged : ((settings.override wishes).lookup "messages").getD (.map []) =
      .record rules := by rw [hsame, hrules]
  have hvalid := validate_eq hmerged
  rw [hothers "newline_kind" (by decide)] at hvalid
  refine ⟨fun hunknown => ?_, fun hknown => ⟨settings.override wishes, ?_, hothers, ?_⟩⟩
  · rw [hlayer, hvalid, if_neg (by rw [hunknown]; decide)]
    rfl
  · rw [hlayer, hvalid, if_pos hknown]
    rfl
  · intro id key hid
    dsimp only
    rw [ruleFor_getD, hmerged]
    apply ruleFor_record htable hid
    · rw [hfields, hfields, effectiveField, Option.or_assoc]
    · rw [hfields, hfields, effectiveField, Option.or_assoc]

/-- A user's file that makes messages errors, has the incompatible trims in the report and
asks for another kind of line ends. -/
def sampleUser : Datum :=
  .record
    [("newline_kind", .text "crlf"), ("report_folder", .text "review"),
      ("messages", .record
        [("default", .record [("log_level", .text "error")]),
          ("ae-incompatible-trim", .record [("add_to_report", .bool true)])])]

private theorem isFile_defaults : IsFile (.record defaults) := by
  refine .ofRules (by decide) rfl (by decide) ?_
  simp only [List.forall_mem_cons, List.not_mem_nil, false_implies, implies_true, and_true]
  exact ⟨⟨_, rfl, by decide⟩, ⟨_, rfl, by decide⟩⟩

private theorem isFile_sampleUser : IsFile sampleUser := by
  refine .ofRules (by decide) rfl (by decide) ?_
  simp only [List.forall_mem_cons, List.not_mem_nil, false_implies, implies_true, and_true]
  exact ⟨⟨_, rfl, by decide⟩, ⟨_, rfl, by decide⟩⟩

/-- The shipped level for incompatible trims stands before the user's level for all
messages, and the user's word on the report before the shipped one. -/
theorem layer_takes_first_sampleUser :
    ∃ settings, layer (.record defaults) (some sampleUser)
        (.record [("newline_kind", .null), ("report_folder", .text "out")]) = .ok settings ∧
      settings.lookup "newline_kind" = some (.text "crlf") ∧
      settings.lookup "report_folder" = some (.text "out") ∧
      settings.lookup "report_enabled" = some (.bool true) ∧
      ruleFor ((settings.lookup "messages").getD .null) (.text "ae-incompatible-trim") =
        .ok (.warning, true) ∧
      ruleFor ((settings.lookup "messages").getD .null) (.text "ae-other") =
        .ok (.error, true) := by
  have huser : ∀ file, some sampleUser = some file → IsFile file := by
    rintro file ⟨⟩
    exact isFile_sampleUser
  have hmessages : ∀ value, (Datum.record [("newline_kind", .null),
      ("report_folder", .text "out")]).at? (.text "messages") = some value → value = .null := by
    intro value hvalue
    rw [at?_record] at hvalue
    cases hvalue
  obtain ⟨settings, hlayer, hothers, hrules⟩ :=
    (layer_takes_first isFile_defaults huser ⟨_, rfl, by decide⟩ hmessages).2 rfl
  refine ⟨settings, hlayer, ?_, ?_, ?_, ?_, ?_⟩
  · exact (hothers "newline_kind" (by decide)).trans rfl
  · exact (hothers "report_folder" (by decide)).trans rfl
  · exact (hothers "report_enabled" (by decide)).trans rfl
  · exact (hrules (.text "ae-incompatible-trim") _ rfl).1 .warning rfl
  · exact (hrules (.text "ae-other") _ rfl).1 .error rfl

end Settings

end ApiSurface
