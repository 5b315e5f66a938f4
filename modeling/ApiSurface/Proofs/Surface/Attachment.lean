import ApiSurface.Proofs.Surface.Metadata

/-!
# Who is ancillary to whom

Declarations of one symbol can be attached to one another by hand, also after the
analysis has grouped the accessors.  Whatever calls are made, every ancillary
declaration stands once in one list, that of its primary.  A declaration that was
attached to itself is its own primary; no other primary is ancillary.
-/

namespace ApiSurface

namespace Signatures

variable {signatures result : Signatures} {primary ancillary : Mention} {same : Bool}

/-! ## One attachment -/

def listed (signatures : Signatures) : List Nat :=
  signatures.flatMap fun entry => entry.2.ancillaries.map Mention.id

def attached (signatures : Signatures) (primary ancillary : Mention) : Signatures :=
  update (addAncillary ancillary) primary.id
    (update (setPrimary primary) ancillary.id signatures)

variable {id : Nat} {signature : Signature}

private theorem record_eq_ok_iff :
    signatures.record id = .ok signature ↔ signatures.lookup id = some signature := by
  unfold record
  cases signatures.lookup id <;> simp

private theorem ancillaryDefect?_eq_none_iff {target source : Signature} :
    ancillaryDefect? target source same = none ↔
      same = true ∧ target.isAncillary = false ∧ source.isAncillary = false ∧
        source.ancillaries = [] := by
  unfold ancillaryDefect?
  cases same <;> cases target.isAncillary <;> cases source.isAncillary <;>
    cases source.ancillaries <;> simp

/-- Neither side is ancillary, and the second one lists nothing. -/
structure Attachable (signatures : Signatures) (primary ancillary : Mention) : Prop where
  target : ∃ target, signatures.lookup primary.id = some target ∧
    target.isAncillary = false
  source : ∃ source, signatures.lookup ancillary.id = some source ∧
    source.isAncillary = false ∧ source.ancillaries = []

private theorem attach_cases (h : signatures.attach same primary ancillary = .ok result) :
    result = signatures ∨
      same = true ∧ signatures.Attachable primary ancillary ∧
        result = signatures.attached primary ancillary := by
  simp only [attach, bind_eq_ok, record_eq_ok_iff] at h
  obtain ⟨target, htarget, source, hsource, h⟩ := h
  split at h
  · exact .inl (pure_eq_ok.mp h).symm
  split at h
  · cases h
  · rename_i hnone
    obtain ⟨hsame, hprimary, hfree, hempty⟩ := ancillaryDefect?_eq_none_iff.mp hnone
    exact .inr ⟨hsame, ⟨⟨target, htarget, hprimary⟩, source, hsource, hfree, hempty⟩,
      (pure_eq_ok.mp h).symm⟩

theorem lookup_attached (id : Nat) :
    (signatures.attached primary ancillary).lookup id =
      (signatures.lookup id).map fun signature =>
        { signature with
          isAncillary := if id = ancillary.id then true else signature.isAncillary
          primary := if id = ancillary.id then some primary else signature.primary
          ancillaries :=
            if id = primary.id then signature.ancillaries ++ [ancillary]
            else signature.ancillaries } := by
  rw [attached, lookup_update, lookup_update]
  cases signatures.lookup id <;> split_ifs <;> rfl

theorem primary?_attached (hsource : (signatures.lookup ancillary.id).isSome = true)
    (id : Nat) :
    (signatures.attached primary ancillary).primary? id =
      if id = ancillary.id then some primary else signatures.primary? id := by
  rw [primary?, lookup_attached, primary?]
  by_cases hancillary : id = ancillary.id
  · obtain ⟨source, hsource⟩ := Option.isSome_iff_exists.mp hsource
    simp [hancillary, hsource]
  · cases signatures.lookup id <;> simp [hancillary]

theorem map_fst_update (change : Signature → Signature) (id : Nat) :
    (update change id signatures).map Prod.fst = signatures.map Prod.fst := by
  rw [update, List.map_map]
  refine List.map_congr_left fun entry _ => ?_
  by_cases hid : entry.1 = id <;> simp [hid]

private theorem listed_update_setPrimary (id : Nat) :
    (update (setPrimary primary) id signatures).listed = signatures.listed := by
  rw [listed, update, List.flatMap_map, listed]
  refine List.flatMap_congr fun entry _ => ?_
  by_cases hid : entry.1 = id <;> simp [hid, setPrimary]

theorem update_of_not_mem {change : Signature → Signature} (hid : id ∉ signatures.map Prod.fst) :
    update change id signatures = signatures := by
  rw [update]
  conv_rhs => rw [← List.map_id signatures]
  refine List.map_congr_left fun entry hentry => if_neg ?_
  rintro rfl
  exact hid (List.mem_map_of_mem hentry)

theorem update_cons (change : Signature → Signature) (id : Nat) (entry : Nat × Signature) :
    update change id (entry :: signatures) =
      (if entry.1 = id then (entry.1, change entry.2) else entry) ::
        update change id signatures := rfl

theorem listed_cons (entry : Nat × Signature) :
    listed (entry :: signatures) =
      entry.2.ancillaries.map Mention.id ++ listed signatures := rfl

private theorem listed_update_addAncillary (hdistinct : (signatures.map Prod.fst).Nodup)
    (hid : id ∈ signatures.map Prod.fst) :
    (update (addAncillary ancillary) id signatures).listed.Perm
      (ancillary.id :: signatures.listed) := by
  induction signatures with
  | nil => simp at hid
  | cons entry rest ih =>
      rw [List.map_cons, List.nodup_cons] at hdistinct
      rw [List.map_cons, List.mem_cons] at hid
      rw [update_cons, listed_cons, listed_cons]
      by_cases hhere : entry.1 = id
      · rw [if_pos hhere, update_of_not_mem (hhere ▸ hdistinct.1)]
        simp only [addAncillary, List.map_append, List.map_cons, List.map_nil,
          List.append_assoc, List.cons_append, List.nil_append]
        exact List.perm_middle
      · rw [if_neg hhere]
        have hperm := ih hdistinct.2 (hid.resolve_left (Ne.symm hhere))
        exact (hperm.append_left _).trans List.perm_middle

theorem listed_attached (ancillary : Mention) (hdistinct : (signatures.map Prod.fst).Nodup)
    (hprimary : primary.id ∈ signatures.map Prod.fst) :
    (signatures.attached primary ancillary).listed.Perm
      (ancillary.id :: signatures.listed) := by
  have hperm : (signatures.attached primary ancillary).listed.Perm (ancillary.id ::
      (update (setPrimary primary) ancillary.id signatures).listed) :=
    listed_update_addAncillary (by rwa [map_fst_update]) (by rwa [map_fst_update])
  rwa [listed_update_setPrimary] at hperm

private theorem mem_map_fst_of_lookup (h : signatures.lookup id = some signature) :
    id ∈ signatures.map Prod.fst :=
  List.mem_map.mpr ⟨_, Entries.mem_of_lookup h, rfl⟩

theorem mem_listed_iff (hdistinct : (signatures.map Prod.fst).Nodup) :
    id ∈ signatures.listed ↔ ∃ owner signature, signatures.lookup owner = some signature ∧
      ∃ other ∈ signature.ancillaries, other.id = id := by
  simp only [listed, List.mem_flatMap, List.mem_map, Prod.exists,
    Entries.lookup_eq_some_iff_mem hdistinct]

/-! ## What every attachment keeps -/

/-- Who lists whom among the declarations of a package.  Those that are primary and
ancillary at once are `alone`. -/
structure Exclusive (inventory : Inventory) (alone : Nat → Prop)
    (signatures : Signatures) : Prop where
  numbers : signatures.map Prod.fst = inventory.allDeclarations.map Declaration.id
  distinct : (signatures.map Prod.fst).Nodup
  coherent : signatures.Coherent
  complete : signatures.Listed
  owned : ∀ id signature, signatures.lookup id = some signature →
    ∀ other ∈ signature.ancillaries, inventory.sameSymbol id other.id = true ∧
      (signatures.primary? other.id).map Mention.id = some id
  once : signatures.listed.Nodup
  apart : ∀ id signature, signatures.lookup id = some signature →
    signature.ancillaries ≠ [] → signature.isAncillary = true → alone id

variable {inventory : Inventory} {alone : Nat → Prop}

theorem Exclusive.not_mem_listed (h : Exclusive inventory alone signatures)
    (hprimary : signatures.primary? id = none) : id ∉ signatures.listed := by
  intro hid
  obtain ⟨owner, signature, hlookup, other, hother, rfl⟩ := (mem_listed_iff h.distinct).mp hid
  have howned := (h.owned owner signature hlookup other hother).2
  simp [hprimary] at howned

theorem Exclusive.mem_listed (h : Exclusive inventory alone signatures) :
    id ∈ signatures.listed ↔ (signatures.primary? id).isSome = true := by
  constructor
  · intro hid
    by_contra hnone
    exact h.not_mem_listed (by simpa using hnone) hid
  · intro hsome
    obtain ⟨primary, hprimary⟩ := Option.isSome_iff_exists.mp hsome
    obtain ⟨signature, hlookup, other, hother, hid⟩ := h.complete id primary hprimary
    exact (mem_listed_iff h.distinct).mpr ⟨primary.id, signature, hlookup, other, hother, hid⟩

private theorem Exclusive.exists_lookup (h : Exclusive inventory alone signatures)
    {declaration : Declaration} (hdeclaration : declaration ∈ inventory.allDeclarations) :
    ∃ signature, signatures.lookup declaration.id = some signature := by
  have hid : declaration.id ∈ signatures.map Prod.fst := by
    rw [h.numbers]
    exact List.mem_map_of_mem hdeclaration
  obtain ⟨⟨id, signature⟩, hentry, rfl⟩ := List.mem_map.mp hid
  exact ⟨signature, (Entries.lookup_eq_some_iff_mem h.distinct).mpr hentry⟩

theorem Exclusive.primary?_ancillary (h : Exclusive inventory alone signatures)
    (hattachable : signatures.Attachable primary ancillary) :
    signatures.primary? ancillary.id = none := by
  obtain ⟨-, source, hsource, hfree, -⟩ := hattachable
  rw [h.coherent.isAncillary_eq hsource] at hfree
  simpa using hfree

private theorem Exclusive.owned_attached (h : Exclusive inventory alone signatures)
    (hattachable : signatures.Attachable primary ancillary)
    (hsame : inventory.sameSymbol primary.id ancillary.id = true)
    (hlookup : (signatures.attached primary ancillary).lookup id = some signature)
    {other : Mention} (hother : other ∈ signature.ancillaries) :
    inventory.sameSymbol id other.id = true ∧
      ((signatures.attached primary ancillary).primary? other.id).map Mention.id = some id := by
  have hnone := h.primary?_ancillary hattachable
  obtain ⟨-, source, hsource, -⟩ := hattachable
  rw [primary?_attached (by simp [hsource])]
  rw [lookup_attached] at hlookup
  obtain ⟨old, hold, rfl⟩ := Option.map_eq_some_iff.mp hlookup
  have hcases : other ∈ old.ancillaries ∨ id = primary.id ∧ other = ancillary := by
    by_cases hid : id = primary.id <;> simpa [hid] using hother
  rcases hcases with hother | ⟨rfl, rfl⟩
  · obtain ⟨hsymbol, howner⟩ := h.owned id old hold other hother
    have hother : other.id ≠ ancillary.id := by
      intro hid
      simp [hid, hnone] at howner
    exact ⟨hsymbol, by rw [if_neg hother, howner]⟩
  · exact ⟨hsame, by simp⟩

private theorem Exclusive.apart_attached (h : Exclusive inventory alone signatures)
    (hattachable : signatures.Attachable primary ancillary)
    (halone : primary.id = ancillary.id → alone primary.id)
    (hlookup : (signatures.attached primary ancillary).lookup id = some signature)
    (hlists : signature.ancillaries ≠ []) (hancillary : signature.isAncillary = true) :
    alone id := by
  obtain ⟨⟨target, htarget, hprimary⟩, source, hsource, -, hempty⟩ := hattachable
  rw [lookup_attached] at hlookup
  obtain ⟨old, hold, rfl⟩ := Option.map_eq_some_iff.mp hlookup
  by_cases hid : id = primary.id
  · subst hid
    by_cases hself : primary.id = ancillary.id
    · exact halone hself
    · obtain rfl : target = old := by rwa [hold, Option.some.injEq, eq_comm] at htarget
      simp [hself, hprimary] at hancillary
  · by_cases hself : id = ancillary.id
    · subst hself
      obtain rfl : source = old := by rwa [hold, Option.some.injEq, eq_comm] at hsource
      simp [hid, hempty] at hlists
    · exact h.apart id old hold (by simpa [hid] using hlists)
        (by simpa [hself] using hancillary)

theorem Exclusive.attach (h : Exclusive inventory alone signatures)
    (halone : primary.id = ancillary.id → alone primary.id)
    (hattach : signatures.attach (inventory.sameSymbol primary.id ancillary.id) primary ancillary =
      .ok result) : Exclusive inventory alone result := by
  have hcomplete := h.complete.attach hattach
  rcases attach_cases hattach with rfl | ⟨hsame, hattachable, rfl⟩
  · exact h
  have hnumbers : (signatures.attached primary ancillary).map Prod.fst =
      signatures.map Prod.fst := by
    rw [attached, map_fst_update, map_fst_update]
  constructor
  case numbers => exact hnumbers ▸ h.numbers
  case distinct => exact hnumbers ▸ h.distinct
  case coherent => exact h.coherent.attach hattach
  case complete => exact hcomplete
  case owned => exact fun _ _ hlookup _ => h.owned_attached hattachable hsame hlookup
  case once =>
    -- A declaration is listed by its primary only, so one without a primary is in no list.
    obtain ⟨target, htarget, -⟩ := hattachable.target
    rw [(listed_attached ancillary h.distinct (mem_map_fst_of_lookup htarget)).nodup_iff]
    exact h.once.cons (h.not_mem_listed (h.primary?_ancillary hattachable))
  case apart => exact fun _ _ hlookup => h.apart_attached hattachable halone hlookup

end Signatures

namespace Inventory

variable {graph : ModuleGraph} {inventory : Inventory} {signatures : Signatures}
  {alone : Nat → Prop}

private theorem signatures_exclusive (hdeclared : ofGraph graph = .ok inventory) :
    Signatures.Exclusive inventory alone (inventory.signatures graph) := by
  have hfirst : Signatures.Attached [] (inventory.signatures graph)
      (inventory.signatures graph) := attached_signatures []
  have hempty : ∀ id signature, (inventory.signatures graph).lookup id = some signature →
      signature.ancillaries = [] := by
    intro id signature hlookup
    refine List.eq_nil_iff_forall_not_mem.mpr fun other hother => ?_
    simpa using (hfirst.owned id signature hlookup other hother).1
  have hnumbers : (inventory.signatures graph).map Prod.fst =
      inventory.allDeclarations.map Declaration.id := by
    rw [signatures, List.map_map]
    rfl
  have hdistinct : ((inventory.signatures graph).map Prod.fst).Nodup :=
    hnumbers ▸ ids_nodup hdeclared
  have hlisted : (inventory.signatures graph).listed = [] := by
    refine List.eq_nil_iff_forall_not_mem.mpr fun id hid => ?_
    obtain ⟨owner, signature, hlookup, other, hother, -⟩ :=
      (Signatures.mem_listed_iff hdistinct).mp hid
    simp [hempty owner signature hlookup] at hother
  refine ⟨hnumbers, hdistinct, hfirst.coherent, hfirst.listed,
    fun id signature hlookup other hother => ?_, ?_,
    fun id signature hlookup hlists => absurd (hempty id signature hlookup) hlists⟩
  · simp [hempty id signature hlookup] at hother
  · simp [hlisted]

theorem groupAccessors_exclusive (hdeclared : ofGraph graph = .ok inventory)
    (hgrouped : inventory.groupAccessors graph = .ok signatures) :
    Signatures.Exclusive inventory alone signatures := by
  refine foldlM_preserves (Signatures.Exclusive inventory alone) ?_
    (signatures_exclusive hdeclared) hgrouped
  intro state pair next hpair hstate hattach
  refine hstate.attach (fun hself => ?_) hattach
  have hpair : (pair.1, pair.2) ∈ inventory.allPairs := hpair
  rw [show pair.1 = pair.2 from hself] at hpair
  exact absurd hpair (allPairs_disjoint (ids_nodup hdeclared) hpair)

end Inventory

/-! ## Runs of calls -/

namespace Surface

variable {surface state : Surface}

def writeSignature (change : Signature → Signature) (id : Nat) (surface : Surface) : Surface :=
  { surface with signatures := surface.signatures.update change id }

/-- Attaches one declaration to another in place.  What has been written when a call
fails stays written. -/
def attaching (primary ancillary : Datum) : ExceptT Fault (StateM Surface) Unit := do
  let surface ← getThe Surface
  let primary ← surface.recorded primary
  let ancillary ← surface.recorded ancillary
  let target ← surface.signatures.record primary.id
  let source ← surface.signatures.record ancillary.id
  if target.ancillaries.any fun other => other.id = ancillary.id then pure ()
  else
    match Signatures.ancillaryDefect? target source
        (surface.inventory.sameSymbol primary.id ancillary.id) with
    | some defect => throw (.defect defect)
    | none =>
        modify (writeSignature (Signatures.setPrimary primary) ancillary.id)
        modify (writeSignature (Signatures.addAncillary ancillary) primary.id)

theorem ends_getThe {before after value : Surface} :
    Ends (getThe Surface : ExceptT Fault (StateM Surface) Surface) before value after ↔
      before = value ∧ before = after := by
  change (Except.ok before, before) = (Except.ok value, after) ↔ _
  simp

variable {fault : Fault}

private theorem not_fails_getThe {before after : Surface} :
    ¬ Fails (getThe Surface : ExceptT Fault (StateM Surface) Surface) before fault after := by
  change ¬ (Except.ok before, before) = (Except.error fault, after)
  simp

variable {primary ancillary : Datum} {after : Surface}

private theorem attach_of_ends (h : Ends (attaching primary ancillary) surface () after) :
    surface.attach primary ancillary = .ok after := by
  simp only [attaching, ends_bind, ends_getThe, ends_liftM] at h
  obtain ⟨_, _, ⟨rfl, rfl⟩, first, _, ⟨hfirst, rfl⟩, second, _, ⟨hsecond, rfl⟩, target, _,
    ⟨htarget, rfl⟩, source, _, ⟨hsource, rfl⟩, h⟩ := h
  simp only [attach, Signatures.attach, hfirst, hsecond, htarget, hsource, bind, Except.bind]
  split at h
  · obtain ⟨-, rfl⟩ := ends_pure.mp h
    rename_i hlisted
    rw [if_pos hlisted]
    rfl
  · rename_i hunlisted
    rw [if_neg hunlisted]
    cases hdefect : Signatures.ancillaryDefect? target source
        (surface.inventory.sameSymbol first.id second.id) with
    | some defect =>
        simp only [hdefect] at h
        exact absurd h not_ends_throw
    | none =>
        simp only [hdefect, ends_bind, ends_modify] at h
        obtain ⟨_, _, rfl, rfl⟩ := h
        rfl

theorem error_of_reads {α : Type} {value : Except Fault α}
    {next : α → ExceptT Fault (StateM Surface) Unit} {follow : α → Except Fault Surface}
    (h : Fails (liftM value >>= next) surface fault after)
    (hnext : ∀ produced, Fails (next produced) surface fault after →
      follow produced = .error fault ∧ after = surface) :
    (value >>= follow) = .error fault ∧ after = surface := by
  rcases fails_bind.mp h with hread | ⟨produced, _, hread, hrest⟩
  · obtain ⟨hvalue, rfl⟩ := fails_liftM.mp hread
    rw [hvalue]
    exact ⟨rfl, rfl⟩
  · obtain ⟨hvalue, rfl⟩ := ends_liftM.mp hread
    rw [hvalue]
    exact hnext produced hrest

theorem attach_of_fails (h : Fails (attaching primary ancillary) surface fault after) :
    surface.attach primary ancillary = .error fault ∧ after = surface := by
  rcases fails_bind.mp h with h | ⟨_, _, hread, h⟩
  · exact absurd h not_fails_getThe
  obtain ⟨rfl, rfl⟩ := ends_getThe.mp hread
  simp only [attach, Signatures.attach, bind_assoc]
  refine error_of_reads h fun first h => error_of_reads h fun second h =>
    error_of_reads h fun target h => error_of_reads h fun source h => ?_
  split at h
  · exact absurd h not_fails_pure
  rename_i hunlisted
  rw [if_neg hunlisted]
  cases hdefect : Signatures.ancillaryDefect? target source
      (surface.inventory.sameSymbol first.id second.id) with
  | some defect =>
      simp only [hdefect] at h
      obtain ⟨rfl, rfl⟩ := fails_throw.mp h
      exact ⟨rfl, rfl⟩
  | none =>
      simp only [hdefect, fails_bind, not_fails_modify, and_false, exists_false,
        or_self] at h

/-- The surface after a call, whether the call succeeded or failed. -/
def called (surface : Surface) (call : Datum × Datum) : Surface :=
  (Id.run ((attaching call.1 call.2).run.run surface)).2

private theorem called_cases (surface : Surface) (call : Datum × Datum) :
    surface.called call = surface ∨
      surface.attach call.1 call.2 = .ok (surface.called call) := by
  rcases ends_or_fails (attaching call.1 call.2) surface with ⟨⟨⟩, after, h⟩ | ⟨fault, after, h⟩
  · have hstate : surface.called call = after := congrArg Prod.snd h
    exact .inr (hstate ▸ attach_of_ends h)
  · have hstate : surface.called call = after := congrArg Prod.snd h
    exact .inl (hstate.trans (attach_of_fails h).2)

theorem recorded_eq_ok {id : Datum} {mention : Mention}
    (h : surface.recorded id = .ok mention) : id.key? = some (.whole mention.id) := by
  simp only [recorded, bind_eq_ok, Datum.key] at h
  obtain ⟨key, hkey, h⟩ := h
  split at hkey
  · rename_i found hfound
    cases hkey
    split at h
    · rename_i entry hentry
      have hmatch := List.find?_some hentry
      rw [← pure_eq_ok.mp h, hfound, ← of_decide_eq_true hmatch]
    · cases h
  · cases hkey

theorem attach_eq_ok {first second : Datum} (h : surface.attach first second = .ok state) :
    ∃ primary ancillary signatures, first.key? = some (.whole primary.id) ∧
      second.key? = some (.whole ancillary.id) ∧
      surface.signatures.attach (surface.inventory.sameSymbol primary.id ancillary.id)
        primary ancillary = .ok signatures ∧
      state = { surface with signatures := signatures } := by
  simp only [attach, bind_eq_ok, pure_eq_ok] at h
  obtain ⟨primary, hprimary, ancillary, hancillary, signatures, hattach, rfl⟩ := h
  exact ⟨primary, ancillary, signatures, recorded_eq_ok hprimary, recorded_eq_ok hancillary,
    hattach, rfl⟩

private theorem exists_of_sameSymbol {inventory : Inventory} {declaration : Declaration}
    (hdistinct : (inventory.allDeclarations.map Declaration.id).Nodup)
    (hdeclaration : declaration ∈ inventory.allDeclarations) {id : Nat}
    (h : inventory.sameSymbol declaration.id id = true) :
    ∃ other ∈ inventory.allDeclarations, other.id = id ∧
      other.symbol.key = declaration.symbol.key := by
  rw [Inventory.sameSymbol, Inventory.declaration?_id hdistinct hdeclaration] at h
  cases hother : inventory.declaration? id with
  | none => simp [hother] at h
  | some other =>
      have hid : other.id = id := by simpa using List.find?_some hother
      rw [hother, decide_eq_true_eq] at h
      exact ⟨other, List.mem_of_find?_eq_some hother, hid, h.symm⟩

def NamesTwice (call : Datum × Datum) (id : Nat) : Prop :=
  call.1.key? = some (.whole id) ∧ call.2.key? = some (.whole id)

private theorem called_exclusive {alone : Nat → Prop} {call : Datum × Datum}
    (halone : ∀ id, NamesTwice call id → alone id)
    (h : surface.signatures.Exclusive surface.inventory alone) :
    (surface.called call).inventory = surface.inventory ∧
      (surface.called call).signatures.Exclusive surface.inventory alone := by
  rcases called_cases surface call with hsame | hattach
  · rw [hsame]
    exact ⟨rfl, h⟩
  · obtain ⟨primary, ancillary, signatures, hfirst, hsecond, hattach, hstate⟩ :=
      attach_eq_ok hattach
    rw [hstate]
    refine ⟨rfl, h.attach (fun hself => halone _ ⟨hfirst, ?_⟩) hattach⟩
    rw [hself]
    exact hsecond

private theorem calls_exclusive {alone : Nat → Prop} {calls : List (Datum × Datum)}
    (halone : ∀ call ∈ calls, ∀ id, NamesTwice call id → alone id)
    (h : surface.signatures.Exclusive surface.inventory alone) :
    (calls.foldl called surface).inventory = surface.inventory ∧
      (calls.foldl called surface).signatures.Exclusive surface.inventory alone := by
  induction calls generalizing surface with
  | nil => exact ⟨rfl, h⟩
  | cons call rest ih =>
      obtain ⟨hinventory, hnext⟩ := called_exclusive (halone call (by simp)) h
      rw [← hinventory] at hnext ⊢
      exact ih (fun other hother => halone other (by simp [hother])) hnext

/-- After any calls, failed ones included, who is ancillary is listed exactly once, by
its primary, which has the same symbol; marked as ancillary is what has a primary.  What
lists something is not ancillary, unless a call attached it to itself.  A call that fails
changes nothing. -/
theorem attachments_exclusive {graph : ModuleGraph} {router : Router}
    (h : analyze graph router = .ok surface) {calls : List (Datum × Datum)}
    (hcalls : calls.foldl called surface = state) :
    (∀ declaration ∈ surface.inventory.allDeclarations, ∃ signature,
      state.signature (.int declaration.id) = .ok signature ∧
      signature.isAncillary = signature.primary.isSome ∧
      (signature.ancillaries ≠ [] → signature.isAncillary = true →
        ∃ call ∈ calls, NamesTwice call declaration.id) ∧
      (∀ mention ∈ signature.ancillaries,
        ∃ other ∈ surface.inventory.allDeclarations, other.id = mention.id ∧
          other.symbol.key = declaration.symbol.key ∧
          ∃ own, state.signature (.int other.id) = .ok own ∧
            own.primary.map Mention.id = some declaration.id) ∧
      state.signatures.listed.count declaration.id =
        if signature.isAncillary = true then 1 else 0) ∧
    ∀ primary ancillary fault after, Fails (attaching primary ancillary) state fault after →
      state.attach primary ancillary = .error fault ∧ after = state := by
  refine ⟨fun declaration hdeclaration => ?_, fun _ _ _ _ => attach_of_fails⟩
  obtain ⟨_, _, _, hsteps⟩ := analyze_steps h
  have hgrouped : surface.signatures.Exclusive surface.inventory
      fun id => ∃ call ∈ calls, NamesTwice call id :=
    Inventory.groupAccessors_exclusive hsteps.declared hsteps.grouped
  have hexclusive := (calls_exclusive (fun call hcall id hid => ⟨call, hcall, hid⟩) hgrouped).2
  rw [hcalls] at hexclusive
  have hknown : ∀ other ∈ surface.inventory.allDeclarations, ∃ signature,
      state.signatures.lookup other.id = some signature ∧
      state.signature (.int other.id) = .ok signature := by
    intro other hother
    obtain ⟨signature, hlookup⟩ := hexclusive.exists_lookup hother
    exact ⟨signature, hlookup, by rw [signature_int, hlookup]⟩
  obtain ⟨signature, hlookup, hsignature⟩ := hknown declaration hdeclaration
  refine ⟨signature, hsignature, hexclusive.coherent _ _ hlookup,
    hexclusive.apart declaration.id signature hlookup, fun mention hmention => ?_, ?_⟩
  · obtain ⟨hsame, howner⟩ := hexclusive.owned declaration.id signature hlookup mention hmention
    obtain ⟨other, hother, hid, hkey⟩ :=
      exists_of_sameSymbol (Inventory.ids_nodup hsteps.declared) hdeclaration hsame
    obtain ⟨own, hown, hfound⟩ := hknown other hother
    refine ⟨other, hother, hid, hkey, own, hfound, ?_⟩
    simpa [Signatures.primary?, ← hid, hown] using howner
  · have hlisted : declaration.id ∈ state.signatures.listed ↔ signature.isAncillary = true := by
      rw [hexclusive.mem_listed, hexclusive.coherent.isAncillary_eq hlookup]
    simp only [hexclusive.once.count, hlisted]

def overloadsFile : SourceFile where
  path := .text "index.d.ts"
  text := "f;f;f;".toList
  root := .mk .sourceFile 0 6 0 .null
    [.mk .functionDeclaration 0 2 1 .null [.mk .identifier 0 1 2 .null []],
    .mk .functionDeclaration 2 4 3 .null [.mk .identifier 2 3 4 .null []],
    .mk .functionDeclaration 4 6 5 .null [.mk .identifier 4 5 6 .null []]]

def overloadsPackage : ModuleGraph where
  packageName := .text "overloads"
  files := [overloadsFile]
  symbols :=
    [{ key := .text "f"
       localName := .text "f"
       declarations := overloadsFile.root.children.map fun node =>
         ⟨overloadsFile, [overloadsFile.root], node⟩ }]
  exports := [(.text "f", .text "f")]

def links (surface : Surface) : List (Nat × List Nat × Option Nat) :=
  surface.signatures.map fun entry =>
    (entry.1, entry.2.ancillaries.map Mention.id, entry.2.primary.map Mention.id)

/-- The second and the third call fail, and the last one finds its work done. -/
def overloadCalls : List (Datum × Datum) :=
  [(.int 1, .int 2), (.int 2, .int 3), (.int 3, .int 1), (.int 1, .int 3), (.int 1, .int 2)]

theorem attachments_exclusive_overloads :
    ∃ surface, analyze overloadsPackage {} = .ok surface ∧
      (overloadCalls.foldl called surface).links =
        [(1, [2, 3], none), (2, [], some 1), (3, [], some 1)] ∧
      ∀ declaration ∈ surface.inventory.allDeclarations, ∃ signature,
        (overloadCalls.foldl called surface).signature (.int declaration.id) = .ok signature ∧
        (overloadCalls.foldl called surface).signatures.listed.count declaration.id =
          if signature.isAncillary = true then 1 else 0 := by
  have hrun : (do
      let surface ← analyze overloadsPackage {}
      pure (overloadCalls.foldl called surface).links) =
        .ok [(1, [2, 3], none), (2, [], some 1), (3, [], some 1)] := by
    cbv
  simp only [bind_eq_ok, pure_eq_ok] at hrun
  obtain ⟨surface, hsurface, hlinks⟩ := hrun
  refine ⟨surface, hsurface, hlinks, fun declaration hdeclaration => ?_⟩
  obtain ⟨signature, hsignature, -, -, -, hcount⟩ :=
    (attachments_exclusive hsurface rfl).1 declaration hdeclaration
  exact ⟨signature, hsignature, hcount⟩

/-- A declaration that is attached to itself lists itself, and so is primary and
ancillary at once. -/
theorem attached_to_itself :
    ∃ surface signature, analyze overloadsPackage {} = .ok surface ∧
      (surface.called (.int 1, .int 1)).signature (.int 1) = .ok signature ∧
      signature.ancillaries.map Mention.id = [1] ∧ signature.isAncillary = true := by
  have hrun : (do
      let surface ← analyze overloadsPackage {}
      let signature ← (surface.called (.int 1, .int 1)).signature (.int 1)
      pure (signature.ancillaries.map Mention.id, signature.isAncillary)) =
        .ok ([1], true) := by
    cbv
  simp only [bind_eq_ok, pure_eq_ok, Prod.mk.injEq] at hrun
  obtain ⟨surface, hsurface, signature, hsignature, hlist, hancillary⟩ := hrun
  exact ⟨surface, signature, hsurface, hsignature, hlist, hancillary⟩

end Surface

end ApiSurface
