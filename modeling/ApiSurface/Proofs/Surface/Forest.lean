import ApiSurface.Proofs.Success
import ApiSurface.Surface.Declaration

/-!
# The forest of declarations

Declaring a package enters symbols into a table and builds a forest of
declarations over the nodes of the package.  `Entered` says how the table grows,
and `Members` which members the nodes below a declaration give it.  Everything
else about symbols and members follows from these two by induction.

Declarations are numbered one after the other meanwhile, so no two declarations of
a package have the same number.
-/

namespace ApiSurface

theorem find?_key {α κ : Type} [DecidableEq κ] {key : α → κ} {values : List α}
    (hdistinct : (values.map key).Nodup) {value : α} (hvalue : value ∈ values) :
    values.find? (fun other => key other = key value) = some value := by
  cases hfound : values.find? (fun other => key other = key value) with
  | none => simpa using List.find?_eq_none.mp hfound value hvalue
  | some found =>
      have hkey : key found = key value := by simpa using List.find?_some hfound
      exact congrArg some (List.inj_on_of_nodup_map hdistinct
        (List.mem_of_find?_eq_some hfound) hvalue hkey)

/-! ## Walking over declarations -/

namespace Declaration

theorem walk_eq (declaration : Declaration) :
    declaration.walk = declaration :: walkAll declaration.members := by
  cases declaration
  rfl

theorem mem_walk_self (declaration : Declaration) :
    declaration ∈ declaration.walk := by
  simp [walk_eq]

theorem walkAll_append (first second : List Declaration) :
    walkAll (first ++ second) = walkAll first ++ walkAll second := by
  induction first with
  | nil => rfl
  | cons declaration rest ih => simp [walkAll, ih]

theorem mem_walkAll {declarations : List Declaration} {inner : Declaration} :
    inner ∈ walkAll declarations ↔
      ∃ outer ∈ declarations, inner ∈ outer.walk := by
  induction declarations with
  | nil => simp [walkAll]
  | cons declaration rest ih => simp [walkAll, ih]

mutual

theorem walk_sublist {inner : Declaration} :
    (outer : Declaration) → inner ∈ outer.walk → inner.walk.Sublist outer.walk
  | .mk id site symbol parent members, h => by
      rw [walk_eq, List.mem_cons] at h
      rcases h with rfl | h
      · exact .refl _
      · exact (walkAll_sublist members h).cons _

theorem walkAll_sublist {inner : Declaration} :
    (outers : List Declaration) → inner ∈ walkAll outers → inner.walk.Sublist (walkAll outers)
  | [], h => by simp [walkAll] at h
  | outer :: rest, h => by
      rw [walkAll, List.mem_append] at h
      rcases h with h | h
      · exact (walk_sublist outer h).trans (List.sublist_append_left _ _)
      · exact (walkAll_sublist rest h).trans (List.sublist_append_right _ _)

end

theorem mem_walkAll_member {declarations : List Declaration}
    {inner member : Declaration} (h : inner ∈ walkAll declarations)
    (hmember : member ∈ inner.members) : member ∈ walkAll declarations := by
  refine (walkAll_sublist declarations h).subset ?_
  rw [walk_eq]
  exact List.mem_cons_of_mem _ (mem_walkAll.mpr ⟨member, hmember, mem_walk_self member⟩)

end Declaration

namespace SymbolTable

open Declaration (walkAll)

/-! ## How the table grows -/

def outermost (entry : SymbolEntry) (label : Label) : Symbol :=
  { label := label, name := entry.localName, root := label, external := entry.external }

def memberOf (owner : Symbol) (name : String) (static : Bool) : Symbol :=
  { label := memberLabel owner name static
    name := .text name
    parent := some owner.label
    root := owner.root
    external := owner.external }

/-- A list of symbols grows by outermost symbols and by members of symbols that
it holds already. -/
inductive Entered (entries : List SymbolEntry) (before : List Symbol) :
    List Symbol → Prop
  | nothing : Entered entries before before
  | entry {symbols : List Symbol} {entry : SymbolEntry} {label : Label}
      (earlier : Entered entries before symbols) (given : entry ∈ entries)
      (labelled : Label.ofDatum entry.key = .ok label)
      (fresh : ∀ symbol ∈ symbols, symbol.key ≠ label.key) :
      Entered entries before (symbols ++ [outermost entry label])
  | member {symbols : List Symbol} {owner : Symbol} {name : String} {static : Bool}
      (earlier : Entered entries before symbols) (known : owner ∈ symbols)
      (fresh : ∀ symbol ∈ symbols, symbol.key ≠ (memberLabel owner name static).key) :
      Entered entries before (symbols ++ [memberOf owner name static])

variable {entries : List SymbolEntry}

theorem Entered.trans {first second third : List Symbol}
    (hfirst : Entered entries first second) (hsecond : Entered entries second third) :
    Entered entries first third := by
  induction hsecond with
  | nothing => exact hfirst
  | entry _ given labelled fresh ih => exact .entry ih given labelled fresh
  | member _ known fresh ih => exact .member ih known fresh

theorem Entered.subset {before after : List Symbol}
    (h : Entered entries before after) : before ⊆ after := by
  induction h with
  | nothing => exact List.Subset.refl _
  | entry _ _ _ _ ih => exact List.subset_append_of_subset_left _ ih
  | member _ _ _ ih => exact List.subset_append_of_subset_left _ ih

variable {symbols more : List Symbol} {owner symbol : Symbol} {number : Nat}
  {declarations : List Declaration} {before after : SymbolTable}

theorem Entered.name_text (h : Entered entries [] symbols)
    (hentries : ∀ entry ∈ entries, ∃ text, entry.localName = .text text) :
    ∀ symbol ∈ symbols, ∃ text, symbol.name = .text text := by
  induction h with
  | nothing => simp
  | entry _ given _ _ ih =>
      refine List.forall_mem_append.mpr ⟨ih, ?_⟩
      simpa [outermost] using hentries _ given
  | member _ _ _ ih =>
      refine List.forall_mem_append.mpr ⟨ih, ?_⟩
      simp [memberOf]

theorem Entered.staysLocal {before after : List Symbol} (h : Entered entries before after)
    (hentries : ∀ entry ∈ entries, entry.external = false)
    (hbefore : ∀ symbol ∈ before, symbol.external = false) :
    ∀ symbol ∈ after, symbol.external = false := by
  induction h with
  | nothing => exact hbefore
  | entry _ given _ _ ih =>
      refine List.forall_mem_append.mpr ⟨ih, ?_⟩
      simpa [outermost] using hentries _ given
  | member _ known _ ih =>
      refine List.forall_mem_append.mpr ⟨ih, ?_⟩
      simpa [memberOf] using ih _ known

/-! ## The members below a node -/

/-- What the nodes below a declaration give it: a node that declares something is
a member, with members of its own below, and any other node is looked through. -/
inductive Members (symbols : List Symbol) (file : SourceFile) :
    List Node → Symbol → Nat → List Node → List Declaration → Prop
  | nil {ancestors : List Node} {owner : Symbol} {number : Nat} :
      Members symbols file ancestors owner number [] []
  | declared {ancestors rest : List Node} {owner symbol : Symbol}
      {number own : Nat} {node : Node} {name : String}
      {inner others : List Declaration}
      (declares : node.kind.isDeclaration = true)
      (named : node.declaredName file.text = .ok name)
      (known : symbol ∈ symbols)
      (labelled : symbol.key =
        (memberLabel owner name (node.modifiers.contains .staticKeyword)).key)
      (below : Members symbols file (node :: ancestors) symbol own node.children inner)
      (after : Members symbols file ancestors owner number rest others) :
      Members symbols file ancestors owner number (node :: rest)
        (.mk own ⟨file, ancestors, node⟩ symbol (some number) inner :: others)
  | through {ancestors rest : List Node} {owner : Symbol} {number : Nat}
      {node : Node} {here others : List Declaration}
      (transparent : node.kind.isDeclaration = false)
      (below : Members symbols file (node :: ancestors) owner number node.children here)
      (after : Members symbols file ancestors owner number rest others) :
      Members symbols file ancestors owner number (node :: rest) (here ++ others)

theorem Members.mono {file : SourceFile} {ancestors nodes : List Node} (hmore : symbols ⊆ more)
    (h : Members symbols file ancestors owner number nodes declarations) :
    Members more file ancestors owner number nodes declarations := by
  induction h with
  | nil => exact .nil
  | declared declares named known labelled _ _ below after =>
      exact .declared declares named (hmore known) labelled below after
  | through transparent _ _ below after => exact .through transparent below after

theorem Members.located {file : SourceFile} {ancestors nodes : List Node}
    (h : Members symbols file ancestors owner number nodes declarations) :
    ∀ inner ∈ walkAll declarations,
      inner.site.file = file ∧ inner.symbol ∈ symbols := by
  induction h with
  | nil => simp [walkAll]
  | declared _ _ known _ _ _ below after =>
      intro inner hinner
      rw [walkAll, Declaration.walk, List.cons_append, List.mem_cons,
        List.mem_append] at hinner
      rcases hinner with rfl | hinner | hinner
      · exact ⟨rfl, known⟩
      · exact below inner hinner
      · exact after inner hinner
  | through _ _ _ below after =>
      intro inner hinner
      rw [Declaration.walkAll_append, List.mem_append] at hinner
      rcases hinner with hinner | hinner
      · exact below inner hinner
      · exact after inner hinner

inductive Declares (symbols : List Symbol) (symbol : Symbol) (parent : Option Nat)
    (site : Site) : Declaration → Prop
  | mk {number : Nat} {members : List Declaration}
      (declares : site.node.kind.isDeclaration = true)
      (below : Members symbols site.file (site.node :: site.ancestors) symbol number
        site.node.children members) :
      Declares symbols symbol parent site (.mk number site symbol parent members)

theorem Declares.mono {parent : Option Nat} {site : Site} {declaration : Declaration}
    (hmore : symbols ⊆ more) (h : Declares symbols symbol parent site declaration) :
    Declares more symbol parent site declaration := by
  obtain ⟨declares, below⟩ := h
  exact .mk declares (below.mono hmore)

/-! ## Where symbols come from -/

def Founded (declarations : List Declaration) (symbol : Symbol) : Prop :=
  ∃ outer ∈ walkAll declarations, ∃ member ∈ outer.members,
    member.symbol = symbol ∧ symbol.parent = some outer.symbol.label

def FoundedIn (owner : Symbol) (declarations : List Declaration) (symbol : Symbol) : Prop :=
  (∃ member ∈ declarations, member.symbol = symbol ∧ symbol.parent = some owner.label) ∨
    Founded declarations symbol

variable {first second : List Declaration}

theorem founded_append :
    Founded (first ++ second) symbol ↔ Founded first symbol ∨ Founded second symbol := by
  simp only [Founded, Declaration.walkAll_append, List.mem_append, or_and_right,
    exists_or]

theorem foundedIn_append : FoundedIn owner (first ++ second) symbol ↔
    FoundedIn owner first symbol ∨ FoundedIn owner second symbol := by
  simp only [FoundedIn, founded_append, List.mem_append, or_and_right, exists_or]
  exact or_or_or_comm

theorem FoundedIn.outer {site : Site} {parent : Option Nat}
    (h : FoundedIn owner declarations symbol) :
    Founded [.mk number site owner parent declarations] symbol := by
  rcases h with ⟨member, hmember, hfound⟩ | ⟨outer, houter, hfound⟩
  · exact ⟨_, Declaration.mem_walkAll.mpr ⟨_, List.mem_singleton_self _,
      Declaration.mem_walk_self _⟩, member, hmember, hfound⟩
  · exact ⟨outer, by simp [walkAll, Declaration.walk, houter], hfound⟩

def Adds (before after : SymbolTable) (origin : Symbol → Prop) : Prop :=
  ∀ symbol ∈ after.symbols, symbol ∈ before.symbols ∨ origin symbol

variable {origin origin' : Symbol → Prop}

theorem Adds.nothing : Adds before before origin := fun _ => .inl

theorem Adds.imp (h : Adds before after origin) (himp : ∀ symbol, origin symbol → origin' symbol) :
    Adds before after origin' := fun symbol hsymbol =>
  (h symbol hsymbol).imp_right (himp symbol)

theorem Adds.trans {between : SymbolTable} (hfirst : Adds before between origin)
    (hsecond : Adds between after origin') :
    Adds before after fun symbol => origin symbol ∨ origin' symbol := by
  intro symbol hsymbol
  rcases hsecond symbol hsymbol with hsymbol | horigin
  · exact (hfirst symbol hsymbol).imp_right .inl
  · exact .inr (.inr horigin)

/-! ## Declaring step by step -/

/-- What declaring does to a table: symbols are entered, and the nodes of the
declarations, at every depth, are noted, each of them once.  The declarations take
the next numbers of the table. -/
structure Grown (entries : List SymbolEntry) (before after : SymbolTable)
    (declarations : List Declaration) : Prop where
  entered : Entered entries before.symbols after.symbols
  noted : after.declared.Perm
    ((walkAll declarations).map (fun declaration => declaration.node.id) ++
      before.declared)
  distinct : before.declared.Nodup → after.declared.Nodup
  numbers : (walkAll declarations).map Declaration.id =
    List.range' (before.count + 1) (walkAll declarations).length
  count : after.count = before.count + (walkAll declarations).length

theorem Grown.nil (hentered : Entered entries before.symbols after.symbols)
    (hdeclared : after.declared = before.declared) (hcount : after.count = before.count) :
    Grown entries before after [] :=
  ⟨hentered, hdeclared ▸ List.Perm.refl _, hdeclared ▸ id, rfl, hcount⟩

theorem Grown.append {between : SymbolTable}
    (hfirst : Grown entries before between first) (hsecond : Grown entries between after second) :
    Grown entries before after (first ++ second) where
  entered := hfirst.entered.trans hsecond.entered
  noted := by
    rw [Declaration.walkAll_append, List.map_append, List.append_assoc]
    refine hsecond.noted.trans ?_
    refine ((List.Perm.refl _).append hfirst.noted).trans ?_
    simp only [← List.append_assoc]
    exact List.perm_append_comm.append_right _
  distinct := fun h => hsecond.distinct (hfirst.distinct h)
  numbers := by
    have hshift : between.count + 1 =
        before.count + 1 + (walkAll first).length := by
      rw [hfirst.count]
      omega
    rw [Declaration.walkAll_append, List.map_append, List.length_append,
      hfirst.numbers, hsecond.numbers, hshift, List.range'_append_1]
  count := by
    rw [Declaration.walkAll_append, List.length_append, hsecond.count,
      hfirst.count]
    omega

theorem Grown.outer {site : Site} {parent : Option Nat} {members : List Declaration}
    (hnew : site.node.id ∉ before.declared) (h : Grown entries { before with
      declared := site.node.id :: before.declared, count := before.count + 1 } after members) :
    Grown entries before after [.mk (before.count + 1) site symbol parent members] where
  entered := h.entered
  noted := by
    refine h.noted.trans ?_
    simp only [walkAll, Declaration.walk, List.append_nil, List.map_cons,
      List.cons_append]
    exact List.perm_middle
  distinct := fun hnodup => h.distinct (hnodup.cons hnew)
  numbers := by
    simp only [walkAll, Declaration.walk, List.append_nil, List.map_cons,
      List.length_cons, List.range'_succ, Declaration.id]
    rw [h.numbers]
  count := by
    simp only [walkAll, Declaration.walk, List.append_nil, List.length_cons]
    rw [h.count]
    dsimp only
    omega

theorem enter_eq {node : Node} (h : (enter symbol node).run before = .ok (number, after)) :
    number = before.count + 1 ∧ node.kind.isDeclaration = true ∧
      node.id ∉ before.declared ∧ after = { before with
        declared := node.id :: before.declared, count := before.count + 1 } := by
  unfold enter at h
  split at h
  · cases h
  · rename_i hkind
    simp only [run_bind_eq_ok, StateT.run_get, pure_eq_ok, Prod.mk.injEq] at h
    obtain ⟨table, between, ⟨rfl, rfl⟩, h⟩ := h
    split at h
    · cases h
    · rename_i hnew
      simp only [run_bind_eq_ok, StateT.run_set, pure_eq_ok, run_pure_eq_ok,
        Prod.mk.injEq] at h
      obtain ⟨_, state, ⟨_, rfl⟩, rfl, rfl⟩ := h
      exact ⟨rfl, by simpa using hkind, by simpa using hnew, rfl⟩

private theorem memberSymbol_eq {name : String} {static : Bool}
    (h : (memberSymbol owner name static).run before = .ok (symbol, after))
    (howner : owner ∈ before.symbols) :
    symbol ∈ after.symbols ∧ symbol.key = (memberLabel owner name static).key ∧
      Grown entries before after [] ∧
      Adds before after fun other => symbol = other ∧ other.parent = some owner.label := by
  simp only [memberSymbol, run_bind_eq_ok, StateT.run_get, pure_eq_ok,
    Prod.mk.injEq] at h
  obtain ⟨table, between, ⟨rfl, rfl⟩, h⟩ := h
  split at h
  · rename_i found hfound
    rw [run_pure_eq_ok] at h
    obtain ⟨rfl, rfl⟩ := h
    refine ⟨List.mem_of_find?_eq_some hfound, ?_, .nil .nothing rfl rfl, .nothing⟩
    simpa using List.find?_some hfound
  · rename_i hnone
    simp only [run_bind_eq_ok, StateT.run_set, pure_eq_ok, run_pure_eq_ok,
      Prod.mk.injEq] at h
    obtain ⟨_, state, ⟨_, rfl⟩, rfl, rfl⟩ := h
    refine ⟨by simp, rfl, .nil (.member .nothing howner ?_) rfl rfl, ?_⟩
    · intro other hother
      simpa using List.find?_eq_none.mp hnone other hother
    · exact List.forall_mem_append.mpr ⟨fun _ => .inl, by simp⟩

mutual

theorem declare_grown {file : SourceFile} {ancestors : List Node}
    {symbol : Symbol} {parent : Option Nat} {before after : SymbolTable}
    {declaration : Declaration} (hsymbol : symbol ∈ before.symbols) :
    (node : Node) →
    (declare file ancestors symbol parent node).run before =
      .ok (declaration, after) →
    Grown entries before after [declaration] ∧
      Declares after.symbols symbol parent ⟨file, ancestors, node⟩ declaration ∧
      Adds before after (Founded [declaration])
  | .mk kind start stop id label children, h => by
      simp only [declare, run_bind_eq_ok, run_pure_eq_ok] at h
      obtain ⟨number, between, henter, members, last, hmembers, rfl, rfl⟩ := h
      obtain ⟨rfl, hkind, hnew, hbetween⟩ := enter_eq henter
      have hkept : symbol ∈ between.symbols := hbetween ▸ hsymbol
      obtain ⟨hgrown, hbelow, hadds⟩ := declareMembers_grown hkept children hmembers
      subst hbetween
      exact ⟨.outer hnew hgrown, .mk hkind hbelow, hadds.imp fun _ => FoundedIn.outer⟩

theorem declareMembers_grown {file : SourceFile} {ancestors : List Node}
    {owner : Symbol} {number : Nat} {before after : SymbolTable}
    {declarations : List Declaration} (howner : owner ∈ before.symbols) :
    (nodes : List Node) →
    (declareMembers file ancestors owner number nodes).run before =
      .ok (declarations, after) →
    Grown entries before after declarations ∧
      Members after.symbols file ancestors owner number nodes declarations ∧
      Adds before after (FoundedIn owner declarations)
  | [], h => by
      simp only [declareMembers, run_pure_eq_ok] at h
      obtain ⟨rfl, rfl⟩ := h
      exact ⟨.nil .nothing rfl rfl, .nil, .nothing⟩
  | .mk kind start stop id label children :: rest, h => by
      simp only [declareMembers] at h
      split at h
      · rename_i hkind
        simp only [run_bind_eq_ok, run_pure_eq_ok, run_liftM_eq_ok] at h
        obtain ⟨name, _, ⟨hname, rfl⟩, symbol, entered, hmember, member, between,
          hdeclare, _, _, ⟨rfl, rfl⟩, others, last, hothers, rfl, rfl⟩ := h
        obtain ⟨hsymbol, hkey, hentered, hnew⟩ := memberSymbol_eq hmember howner
        obtain ⟨hhere, hdeclares, haddsHere⟩ := declare_grown hsymbol
          (.mk kind start stop id label children) hdeclare
        obtain ⟨hrest, hafter, haddsRest⟩ := declareMembers_grown
          (hhere.entered.subset (hentered.entered.subset howner)) rest hothers
        have hmore := hrest.entered.subset
        obtain ⟨_, hbelow⟩ := hdeclares.mono hmore
        refine ⟨hentered.append (hhere.append hrest), .declared hkind hname
          (hmore (hhere.entered.subset hsymbol)) hkey hbelow hafter, ?_⟩
        refine ((hnew.trans haddsHere).trans haddsRest).imp fun other horigin => ?_
        refine foundedIn_append.mpr (horigin.imp_left (Or.imp_left fun hother => ?_))
        exact ⟨_, List.mem_singleton_self _, hother⟩
      · rename_i hkind
        simp only [run_bind_eq_ok, run_pure_eq_ok] at h
        obtain ⟨here, between, hhere, others, last, hothers, rfl, rfl⟩ := h
        obtain ⟨hinner, hbelow, haddsHere⟩ := declareMembers_grown howner children hhere
        obtain ⟨hrest, hafter, haddsRest⟩ :=
          declareMembers_grown (hinner.entered.subset howner) rest hothers
        exact ⟨hinner.append hrest, .through (Bool.eq_false_iff.mpr hkind)
          (hbelow.mono hrest.entered.subset) hafter,
          (haddsHere.trans haddsRest).imp fun _ => foundedIn_append.mpr⟩

end

private theorem declareSites_grown {sites : List Site} (hsymbol : symbol ∈ before.symbols)
    (h : (declareSites symbol sites).run before = .ok (declarations, after)) :
    Grown entries before after declarations ∧
      List.Forall₂ (Declares after.symbols symbol none) sites declarations ∧
      Adds before after (Founded declarations) := by
  induction sites generalizing before declarations with
  | nil =>
      simp only [declareSites, run_pure_eq_ok] at h
      obtain ⟨rfl, rfl⟩ := h
      exact ⟨.nil .nothing rfl rfl, .nil, .nothing⟩
  | cons site rest ih =>
      simp only [declareSites, run_bind_eq_ok, run_pure_eq_ok] at h
      obtain ⟨declaration, between, hhere, others, last, hothers, rfl, rfl⟩ := h
      obtain ⟨hfirst, hdeclares, haddsFirst⟩ := declare_grown hsymbol site.node hhere
      obtain ⟨hrest, hafter, haddsRest⟩ := ih (hfirst.entered.subset hsymbol) hothers
      exact ⟨hfirst.append hrest, .cons (hdeclares.mono hrest.entered.subset) hafter,
        (haddsFirst.trans haddsRest).imp fun _ => founded_append.mpr⟩

def DeclaresEntry (symbols : List Symbol) (entry : SymbolEntry)
    (declarations : List Declaration) : Prop :=
  ∃ label, Label.ofDatum entry.key = .ok label ∧ outermost entry label ∈ symbols ∧
    List.Forall₂ (Declares symbols (outermost entry label) none) entry.declarations
      declarations

theorem DeclaresEntry.mono {entry : SymbolEntry} (hmore : symbols ⊆ more)
    (h : DeclaresEntry symbols entry declarations) :
    DeclaresEntry more entry declarations := by
  obtain ⟨label, hlabel, hknown, hdeclares⟩ := h
  exact ⟨label, hlabel, hmore hknown, hdeclares.imp fun _ _ => Declares.mono hmore⟩

/-- A symbol is the outermost one of an entry or founded by a member. -/
def Originates (entries : List SymbolEntry) (declarations : List Declaration)
    (symbol : Symbol) : Prop :=
  (∃ entry ∈ entries, ∃ label, Label.ofDatum entry.key = .ok label ∧
    symbol = outermost entry label) ∨ Founded declarations symbol

theorem declareSymbol_grown {entry : SymbolEntry} (hentry : entry ∈ entries)
    (h : (declareSymbol entry).run before = .ok (declarations, after)) :
    Grown entries before after declarations ∧
      DeclaresEntry after.symbols entry declarations ∧
      (∀ label, Label.ofDatum entry.key = .ok label →
        ∀ symbol ∈ before.symbols, symbol.key ≠ label.key) ∧
      Adds before after (Originates entries declarations) := by
  simp only [declareSymbol, run_bind_eq_ok, StateT.run_get, pure_eq_ok,
    run_liftM_eq_ok, Prod.mk.injEq] at h
  obtain ⟨table, _, ⟨rfl, rfl⟩, label, _, ⟨hlabel, rfl⟩, h⟩ := h
  split at h
  · cases h
  · rename_i hfresh
    simp only [run_bind_eq_ok, StateT.run_set, pure_eq_ok, Prod.mk.injEq] at h
    obtain ⟨_, state, ⟨_, rfl⟩, h⟩ := h
    have hunknown : ∀ symbol ∈ before.symbols, symbol.key ≠ label.key := by
      simpa [find?] using hfresh
    have hentered : Grown entries before
        { before with symbols := before.symbols ++ [outermost entry label] } [] :=
      .nil (.entry .nothing hentry hlabel hunknown) rfl rfl
    have hknown : outermost entry label ∈
        before.symbols ++ [outermost entry label] := by simp
    obtain ⟨hgrown, hsites, hadds⟩ := declareSites_grown hknown h
    refine ⟨hentered.append hgrown, ⟨label, hlabel, hgrown.entered.subset hknown, hsites⟩,
      fun other hother => ?_, fun symbol hsymbol => ?_⟩
    · exact Except.ok.inj (hlabel.symm.trans hother) ▸ hunknown
    · rcases hadds symbol hsymbol with hsymbol | hfounded
      · refine (List.mem_append.mp hsymbol).imp_right fun hsymbol => .inl ?_
        exact ⟨entry, hentry, label, hlabel, List.mem_singleton.mp hsymbol⟩
      · exact .inr (.inr hfounded)

private theorem declareSymbols_grown {rest : List SymbolEntry} (hrest : rest ⊆ entries)
    (h : (declareSymbols rest).run before = .ok (declarations, after)) :
    Grown entries before after declarations ∧ (∃ groups, declarations = groups.flatten ∧
        List.Forall₂ (DeclaresEntry after.symbols) rest groups) ∧
      Adds before after (Originates entries declarations) := by
  induction rest generalizing before declarations with
  | nil =>
      simp only [declareSymbols, run_pure_eq_ok] at h
      obtain ⟨rfl, rfl⟩ := h
      exact ⟨.nil .nothing rfl rfl, ⟨[], rfl, .nil⟩, .nothing⟩
  | cons entry rest ih =>
      simp only [declareSymbols, run_bind_eq_ok, run_pure_eq_ok] at h
      obtain ⟨first, between, hfirst, others, last, hothers, rfl, rfl⟩ := h
      obtain ⟨hhere, hdeclares, -, haddsHere⟩ :=
        declareSymbol_grown (hrest (by simp)) hfirst
      obtain ⟨hgrown, ⟨groups, rfl, hgroups⟩, haddsRest⟩ :=
        ih (fun _ hmem => hrest (by simp [hmem])) hothers
      refine ⟨hhere.append hgrown, ⟨first :: groups, rfl,
        .cons (hdeclares.mono hgrown.entered.subset) hgroups⟩,
        (haddsHere.trans haddsRest).imp fun symbol => ?_⟩
      rintro ((hentry | hfounded) | (hentry | hfounded))
      · exact .inl hentry
      · exact .inr (founded_append.mpr (.inl hfounded))
      · exact .inl hentry
      · exact .inr (founded_append.mpr (.inr hfounded))

end SymbolTable

/-! ## The forest of a package -/

open SymbolTable in
structure Inventory.Forest (graph : ModuleGraph) (inventory : Inventory) : Prop where
  entered : Entered graph.symbols [] inventory.symbols
  sites : ∃ groups, inventory.declarations = groups.flatten ∧
    List.Forall₂ (DeclaresEntry inventory.symbols) graph.symbols groups
  distinct : (inventory.allDeclarations.map
    fun declaration => declaration.node.id).Nodup

theorem Inventory.ofGraph_grown {graph : ModuleGraph} {inventory : Inventory}
    (h : ofGraph graph = .ok inventory) :
    inventory.Forest graph ∧ inventory.allDeclarations.map Declaration.id =
      List.range' 1 inventory.allDeclarations.length ∧ ∀ symbol ∈ inventory.symbols,
        SymbolTable.Originates graph.symbols inventory.declarations symbol := by
  simp only [ofGraph, bind_eq_ok, pure_eq_ok] at h
  obtain ⟨⟨declarations, table⟩, hdeclare, imports, _, rfl⟩ := h
  obtain ⟨hgrown, hsites, hadds⟩ :=
    SymbolTable.declareSymbols_grown (List.Subset.refl _) hdeclare
  refine ⟨⟨hgrown.entered, hsites, ?_⟩, hgrown.numbers, fun symbol hsymbol =>
    (hadds symbol hsymbol).resolve_left List.not_mem_nil⟩
  have hnodes := hgrown.noted.nodup_iff.mp (hgrown.distinct List.nodup_nil)
  simpa [allDeclarations] using hnodes

namespace Inventory.Forest

open SymbolTable

variable {graph : ModuleGraph} {inventory : Inventory}

theorem exists_site (h : inventory.Forest graph) {outer : Declaration}
    (houter : outer ∈ inventory.declarations) :
    ∃ entry ∈ graph.symbols, ∃ label, Label.ofDatum entry.key = .ok label ∧
      outermost entry label ∈ inventory.symbols ∧
      ∃ site ∈ entry.declarations,
        Declares inventory.symbols (outermost entry label) none site outer := by
  obtain ⟨groups, hgroups, hentries⟩ := h.sites
  rw [hgroups] at houter
  obtain ⟨group, hgroup, houter⟩ := List.mem_flatten.mp houter
  obtain ⟨entry, hentry, label, hlabel, hknown, hsites⟩ :=
    exists_left_of_forall₂ hentries hgroup
  obtain ⟨site, hsite, hdeclares⟩ := exists_left_of_forall₂ hsites houter
  exact ⟨entry, hentry, label, hlabel, hknown, site, hsite, hdeclares⟩

theorem exists_outer (h : inventory.Forest graph) {entry : SymbolEntry}
    (hentry : entry ∈ graph.symbols) :
    ∃ label, Label.ofDatum entry.key = .ok label ∧
      outermost entry label ∈ inventory.symbols ∧
      ∀ site ∈ entry.declarations, ∃ outer ∈ inventory.declarations,
        Declares inventory.symbols (outermost entry label) none site outer := by
  obtain ⟨groups, hgroups, hentries⟩ := h.sites
  obtain ⟨group, hgroup, label, hlabel, hknown, hsites⟩ :=
    exists_right_of_forall₂ hentries hentry
  refine ⟨label, hlabel, hknown, fun site hsite => ?_⟩
  obtain ⟨outer, houter, hdeclares⟩ := exists_right_of_forall₂ hsites hsite
  refine ⟨outer, ?_, hdeclares⟩
  rw [hgroups]
  exact List.mem_flatten.mpr ⟨group, hgroup, houter⟩

theorem located (h : inventory.Forest graph) {declaration : Declaration}
    (hdeclaration : declaration ∈ inventory.allDeclarations) :
    declaration.symbol ∈ inventory.symbols ∧
      ∃ entry ∈ graph.symbols, ∃ site ∈ entry.declarations,
        declaration.site.file = site.file := by
  obtain ⟨outer, houter, hinner⟩ := Declaration.mem_walkAll.mp hdeclaration
  obtain ⟨entry, hentry, label, -, hknown, site, hsite, hdeclares⟩ := h.exists_site houter
  obtain ⟨-, below⟩ := hdeclares
  rw [Declaration.walk, List.mem_cons] at hinner
  rcases hinner with rfl | hinner
  · exact ⟨hknown, entry, hentry, site, hsite, rfl⟩
  · obtain ⟨hfile, hsymbol⟩ := below.located declaration hinner
    exact ⟨hsymbol, entry, hentry, site, hsite, hfile⟩

end Inventory.Forest

namespace Inventory

variable {graph : ModuleGraph} {inventory : Inventory} (h : ofGraph graph = .ok inventory)
include h

theorem ofGraph_forest : inventory.Forest graph := (ofGraph_grown h).1

theorem ids_eq_range : inventory.allDeclarations.map Declaration.id =
    List.range' 1 inventory.allDeclarations.length := (ofGraph_grown h).2.1

theorem ids_nodup : (inventory.allDeclarations.map Declaration.id).Nodup := by
  rw [ids_eq_range h]
  exact List.nodup_range'

theorem symbol_mem {declaration : Declaration}
    (hdeclaration : declaration ∈ inventory.allDeclarations) :
    declaration.symbol ∈ inventory.symbols :=
  ((ofGraph_forest h).located hdeclaration).1

variable (hgraph : ∀ entry ∈ graph.symbols, entry.external = false)
include hgraph

theorem symbols_local : ∀ symbol ∈ inventory.symbols, symbol.external = false :=
  (ofGraph_forest h).entered.staysLocal hgraph (by simp)

theorem declarations_local : ∀ declaration ∈ inventory.allDeclarations,
    declaration.symbol.external = false := fun _ hdeclaration =>
  symbols_local h hgraph _ (symbol_mem h hdeclaration)

theorem symbol?_local {key : Key} {symbol : Symbol}
    (hsymbol : inventory.symbol? key = some symbol) : symbol.external = false :=
  symbols_local h hgraph symbol (List.mem_of_find?_eq_some hsymbol)

end Inventory

end ApiSurface
