import ApiSurface.Proofs.Surface.Inheritance

/-!
# When declarations share a symbol

A member finds its symbol by a label that is put together from texts: the label of
its owner, a separator, its name and a mark if it is static.  Declarations that are
listed under one entry share a symbol, and so do members of one name in owners that
share one.  Whether these are the only ones depends on how the labels can be read
back.  Two lines of members with one spelling are the same names, one after the
other, if no name goes on where another one ends with a separator.
-/

namespace ApiSurface

/-! ## Lines of members -/

namespace Declaration

inductive Descends : Declaration → List Declaration → Declaration → Prop
  | here {outer : Declaration} : Descends outer [] outer
  | down {outer member inner : Declaration} {line : List Declaration}
      (nested : member ∈ outer.members) (below : Descends member line inner) :
      Descends outer (member :: line) inner

mutual

private theorem exists_descends {inner : Declaration} : (outer : Declaration) →
    inner ∈ outer.walk → ∃ line, Descends outer line inner
  | .mk id site symbol parent members, h => by
      rw [walk, List.mem_cons] at h
      rcases h with rfl | h
      · exact ⟨[], .here⟩
      · obtain ⟨member, hmember, line, hline⟩ := exists_descends_of_walkAll members h
        exact ⟨member :: line, .down hmember hline⟩

theorem exists_descends_of_walkAll {inner : Declaration} :
    (outers : List Declaration) → inner ∈ walkAll outers →
      ∃ outer ∈ outers, ∃ line, Descends outer line inner
  | [], h => by simp [walkAll] at h
  | outer :: rest, h => by
      rw [walkAll, List.mem_append] at h
      rcases h with h | h
      · exact ⟨outer, by simp, exists_descends outer h⟩
      · obtain ⟨found, hfound, hline⟩ := exists_descends_of_walkAll rest h
        exact ⟨found, by simp [hfound], hline⟩

end

theorem Descends.last {all line : List Declaration} {outer inner : Declaration}
    (h : Descends outer line inner) (houter : outer ∈ walkAll all) :
    inner = outer ∨ ∃ owner ∈ walkAll all, inner ∈ owner.members := by
  induction h with
  | here => exact .inl rfl
  | @down outer member inner line nested _ ih =>
      rcases ih (mem_walkAll_member houter nested) with rfl | hdeeper
      · exact .inr ⟨outer, houter, nested⟩
      · exact .inr hdeeper

def declaredName (declaration : Declaration) : Except Fault String :=
  declaration.node.declaredName declaration.site.file.text

/-- What the label of a member has after that of its owner and the separator. -/
def segment (declaration : Declaration) : String :=
  declaration.declaredName.toOption.getD "" ++
    if declaration.isStatic then ":static" else ""

private theorem declaredName_eq {one other : Declaration}
    (hone : ∃ name, one.declaredName = .ok name)
    (hother : ∃ name, other.declaredName = .ok name)
    (hsegment : one.segment = other.segment) (hstatic : one.isStatic = other.isStatic) :
    one.declaredName = other.declaredName := by
  obtain ⟨name, hname⟩ := hone
  obtain ⟨name', hname'⟩ := hother
  rw [segment, segment, hname, hname', hstatic, ← String.toList_inj, String.toList_append,
    String.toList_append, List.append_left_inj, String.toList_inj] at hsegment
  rw [hname, hname']
  exact congrArg Except.ok hsegment

/-- What the label at the end of a line has after the label at its start. -/
def spelling : List Declaration → List Char
  | [] => []
  | member :: line => '#' :: member.segment.toList ++ spelling line

private theorem spelling_eq_nil {line : List Declaration} (h : spelling line = []) :
    line = [] := by
  cases line with
  | nil => rfl
  | cons member line => simp [spelling] at h

end Declaration

open Declaration (Descends spelling walkAll)

/-- The second text goes on with a separator where the first one ends. -/
def Continues (one other : String) : Prop := one.toList ++ ['#'] <+: other.toList

instance (one other : String) : Decidable (Continues one other) :=
  inferInstanceAs (Decidable (_ <+: _))

/-- Of two texts with lines behind them, neither of which continues the other, the
texts and the lines can be read back. -/
theorem cancel_of_not_continues {one other : String} {line line' : List Declaration}
    (hone : ¬Continues one other) (hother : ¬Continues other one)
    (h : one.toList ++ spelling line = other.toList ++ spelling line') :
    one = other ∧ spelling line = spelling line' := by
  -- The longer text would have the separator of the shorter one's line inside.
  have hread : ∀ {short long : String} {line line' : List Declaration} (gap : List Char),
      ¬Continues short long → long.toList = short.toList ++ gap →
      spelling line = gap ++ spelling line' → gap = [] := by
    intro short long line line' gap hapart hlong hline
    cases gap with
    | nil => rfl
    | cons first gap =>
        cases line with
        | nil => simp [spelling] at hline
        | cons member line =>
            obtain rfl : '#' = first := (List.cons.inj hline).1
            exact absurd ⟨gap, by simp [hlong]⟩ hapart
  rcases List.append_eq_append_iff.mp h with ⟨gap, htext, hline⟩ | ⟨gap, htext, hline⟩
  · obtain rfl := hread gap hone htext hline
    exact ⟨String.toList_inj.mp (by simpa using htext.symm), by simpa using hline⟩
  · obtain rfl := hread gap hother htext hline
    exact ⟨String.toList_inj.mp (by simpa using htext), by simpa using hline.symm⟩

/-! ## Where symbols come from -/

namespace SymbolTable

variable {entries : List SymbolEntry} {symbols : List Symbol}

structure Nests (symbols : List Symbol) (owner : Symbol) (number : Nat)
    (member : Declaration) : Prop where
  parent : member.parent = some number
  named : ∃ name, member.declaredName = .ok name
  known : member.symbol ∈ symbols
  key : member.symbol.key = .text (owner.label.plain ++ "#" ++ member.segment)

variable {owner : Symbol} {declarations : List Declaration} {before after : SymbolTable}

theorem Members.nests {file : SourceFile} {ancestors nodes : List Node} {number : Nat}
    (h : Members symbols file ancestors owner number nodes declarations) :
    (∀ member ∈ declarations, Nests symbols owner number member) ∧
      ∀ outer ∈ walkAll declarations, ∀ member ∈ outer.members,
        Nests symbols outer.symbol outer.id member := by
  induction h with
  | nil => simp [walkAll]
  | @declared ancestors rest owner symbol number own node name inner others declares
      named known labelled _ _ below after =>
      have hsegment : ∀ member : Declaration, member.node = node →
          member.site.file = file → member.segment =
            name ++ if node.modifiers.contains .staticKeyword then ":static" else "" := by
        intro member hnode hfile
        rw [Declaration.segment, Declaration.declaredName, Declaration.isStatic, hnode,
          hfile, named]
        rfl
      constructor
      · refine List.forall_mem_cons.mpr ⟨⟨rfl, ⟨name, named⟩, known, ?_⟩, after.1⟩
        rw [hsegment _ rfl rfl, ← String.append_assoc]
        exact labelled
      · intro outer houter
        simp only [walkAll, Declaration.walk, List.cons_append, List.mem_cons,
          List.mem_append] at houter
        rcases houter with rfl | houter | houter
        · exact below.1
        · exact below.2 outer houter
        · exact after.2 outer houter
  | through _ _ _ below after =>
      refine ⟨List.forall_mem_append.mpr ⟨below.1, after.1⟩, fun outer houter => ?_⟩
      rw [Declaration.walkAll_append, List.mem_append] at houter
      exact houter.elim (below.2 outer) (after.2 outer)

private theorem Entered.key?_datum (h : Entered entries [] symbols) :
    ∀ symbol ∈ symbols, symbol.label.datum.key? = some symbol.key := by
  induction h with
  | nothing => simp
  | entry _ _ labelled _ ih =>
      refine List.forall_mem_append.mpr ⟨ih, ?_⟩
      obtain ⟨hdatum, hkey⟩ := Label.ofDatum_eq_ok.mp labelled
      simp only [List.mem_singleton, forall_eq]
      exact hdatum ▸ hkey
  | member _ _ _ ih => exact List.forall_mem_append.mpr ⟨ih, by simp [memberOf]; rfl⟩

theorem Nests.plain {number : Nat} {member : Declaration}
    (h : Nests symbols owner number member) (hentered : Entered entries [] symbols) :
    member.symbol.label.plain = owner.label.plain ++ "#" ++ member.segment := by
  have hdatum := hentered.key?_datum _ h.known
  rw [h.key, Datum.key?_eq_text] at hdatum
  rw [Label.plain, hdatum]
  rfl

private theorem declareSymbols_distinct {rest : List SymbolEntry}
    (h : (declareSymbols rest).run before = .ok (declarations, after)) :
    (rest.map fun entry => entry.key.key?).Nodup ∧
      ∀ entry ∈ rest, ∀ symbol ∈ before.symbols, entry.key.key? ≠ some symbol.key := by
  induction rest generalizing before declarations with
  | nil => simp
  | cons entry rest ih =>
      simp only [declareSymbols, run_bind_eq_ok, run_pure_eq_ok] at h
      obtain ⟨first, between, hfirst, others, last, hothers, rfl, rfl⟩ := h
      obtain ⟨hgrown, ⟨label, hlabel, hknown, -⟩, hfresh, -⟩ :=
        declareSymbol_grown (List.mem_singleton_self entry) hfirst
      obtain ⟨hnodup, hlater⟩ := ih hothers
      have hkey : entry.key.key? = some label.key := (Label.ofDatum_eq_ok.mp hlabel).2
      constructor
      · refine List.nodup_cons.mpr ⟨fun hmem => ?_, hnodup⟩
        obtain ⟨other, hother, hsame⟩ := List.mem_map.mp hmem
        exact hlater other hother _ hknown (hsame.trans hkey)
      · refine List.forall_mem_cons.mpr ⟨fun symbol hsymbol hsame => ?_, ?_⟩
        · exact hfresh label hlabel symbol hsymbol (Option.some.inj (hsame.symm.trans hkey))
        · exact fun other hother symbol hsymbol =>
            hlater other hother symbol (hgrown.entered.subset hsymbol)

end SymbolTable

/-! ## Reading labels back -/

namespace Inventory

open SymbolTable

variable {graph : ModuleGraph} {inventory : Inventory}

/-- Both declarations are nested, in declarations of one symbol. -/
def Siblings (inventory : Inventory) (one other : Declaration) : Prop :=
  ∃ owner ∈ inventory.allDeclarations, ∃ owner' ∈ inventory.allDeclarations,
    one.parent = some owner.id ∧ other.parent = some owner'.id ∧
      owner.symbol = owner'.symbol

/-- Siblings with the same declared name, both of them static or neither. -/
def Namesakes (inventory : Inventory) (one other : Declaration) : Prop :=
  inventory.Siblings one other ∧ one.declaredName = other.declaredName ∧
    one.isStatic = other.isStatic

def ListedTogether (graph : ModuleGraph) (one other : Declaration) : Prop :=
  ∃ entry ∈ graph.symbols, one.site ∈ entry.declarations ∧
    other.site ∈ entry.declarations

/-- The labels of a package can be read back: no key and no name among siblings
continues another one, keys that are written alike are the same, and no name looks
like a static one. -/
structure Readable (graph : ModuleGraph) (inventory : Inventory) : Prop where
  keys : ∀ one ∈ graph.symbols, ∀ other ∈ graph.symbols,
    ¬Continues one.key.plain other.key.plain ∧
      (one.key.plain = other.key.plain → one.key.key? = other.key.key?)
  names : ∀ one ∈ inventory.allDeclarations, ∀ other ∈ inventory.allDeclarations,
    inventory.Siblings one other → ¬Continues one.segment other.segment ∧
      (one.segment = other.segment → one.isStatic = other.isStatic)

variable {outer member inner : Declaration}

theorem nests (hdeclared : ofGraph graph = .ok inventory)
    (houter : outer ∈ inventory.allDeclarations) (hmember : member ∈ outer.members) :
    Nests inventory.symbols outer.symbol outer.id member := by
  obtain ⟨top, htop, houter⟩ := Declaration.mem_walkAll.mp houter
  obtain ⟨entry, -, label, -, -, site, -, ⟨-, hbelow⟩⟩ :=
    (ofGraph_forest hdeclared).exists_site htop
  rw [Declaration.walk, List.mem_cons] at houter
  rcases houter with rfl | houter
  · exact hbelow.nests.1 member hmember
  · exact hbelow.nests.2 outer houter member hmember

theorem mem_members (hdeclared : ofGraph graph = .ok inventory) {owner : Declaration}
    (hmember : member ∈ inventory.allDeclarations) (howner : owner ∈ inventory.allDeclarations)
    (hparent : member.parent = some owner.id) : member ∈ owner.members := by
  obtain ⟨outer, houter, line, hline⟩ :=
    Declaration.exists_descends_of_walkAll _ hmember
  have hmem : outer ∈ inventory.allDeclarations :=
    Declaration.mem_walkAll.mpr ⟨outer, houter, Declaration.mem_walk_self outer⟩
  rcases hline.last hmem with rfl | ⟨found, hfound, hnested⟩
  · obtain ⟨entry, -, label, -, -, site, -, ⟨-, -⟩⟩ :=
      (ofGraph_forest hdeclared).exists_site houter
    cases hparent
  · have hid := hparent.symm.trans (nests hdeclared hfound hnested).parent
    rwa [List.inj_on_of_nodup_map (ids_nodup hdeclared) howner hfound (Option.some.inj hid)]

theorem symbol_eq_of_key (hdeclared : ofGraph graph = .ok inventory)
    {one other : Symbol} (hone : one ∈ inventory.symbols)
    (hother : other ∈ inventory.symbols) (hkey : one.key = other.key) : one = other :=
  List.inj_on_of_nodup_map (ofGraph_forest hdeclared).entered.keys_nodup hone hother hkey

theorem symbol_eq_of_segment (hdeclared : ofGraph graph = .ok inventory)
    {outer' member' : Declaration} (houter : outer ∈ inventory.allDeclarations)
    (houter' : outer' ∈ inventory.allDeclarations) (hmember : member ∈ outer.members)
    (hmember' : member' ∈ outer'.members) (hsymbol : outer.symbol = outer'.symbol)
    (hsegment : member.segment = member'.segment) :
    member.symbol = member'.symbol := by
  have hnests := nests hdeclared houter hmember
  have hnests' := nests hdeclared houter' hmember'
  refine symbol_eq_of_key hdeclared hnests.known hnests'.known ?_
  rw [hnests.key, hnests'.key, hsymbol, hsegment]

private theorem symbol_eq_of_namesakes (hdeclared : ofGraph graph = .ok inventory)
    {one other : Declaration} (hone : one ∈ inventory.allDeclarations)
    (hother : other ∈ inventory.allDeclarations) (h : inventory.Namesakes one other) :
    one.symbol = other.symbol := by
  obtain ⟨⟨owner, howner, owner', howner', hparent, hparent', hsymbol⟩, hname, hstatic⟩ := h
  refine symbol_eq_of_segment hdeclared howner howner'
    (mem_members hdeclared hone howner hparent)
    (mem_members hdeclared hother howner' hparent') hsymbol ?_
  rw [Declaration.segment, Declaration.segment, hname, hstatic]

theorem exists_label_of_listed (hdeclared : ofGraph graph = .ok inventory)
    {entry : SymbolEntry} (hentry : entry ∈ graph.symbols) :
    ∃ label, Label.ofDatum entry.key = .ok label ∧
      ∀ declaration ∈ inventory.allDeclarations,
        declaration.site ∈ entry.declarations →
          declaration.symbol = outermost entry label ∧ declaration.parent = none := by
  have hforest := ofGraph_forest hdeclared
  obtain ⟨label, hlabel, -, hsites⟩ := hforest.exists_outer hentry
  refine ⟨label, hlabel, fun declaration hdeclaration hsite => ?_⟩
  obtain ⟨outer, houter, ⟨-, -⟩⟩ := hsites _ hsite
  -- A node is declared once, so that the site has no other declaration.
  have hsame : declaration = _ := List.inj_on_of_nodup_map hforest.distinct hdeclaration
    (Declaration.mem_walkAll.mpr ⟨_, houter, Declaration.mem_walk_self _⟩) rfl
  rw [hsame]
  exact ⟨rfl, rfl⟩

private theorem entries_distinct (hdeclared : ofGraph graph = .ok inventory) :
    (graph.symbols.map fun entry => entry.key.key?).Nodup := by
  simp only [ofGraph, bind_eq_ok, pure_eq_ok] at hdeclared
  obtain ⟨⟨declarations, table⟩, hdeclare, imports, -, rfl⟩ := hdeclared
  exact (declareSymbols_distinct hdeclare).1

theorem plain_of_descends (hdeclared : ofGraph graph = .ok inventory) {line : List Declaration}
    (h : Descends outer line inner) (houter : outer ∈ inventory.allDeclarations) :
    inner.symbol.label.plain.toList =
      outer.symbol.label.plain.toList ++ spelling line := by
  induction h with
  | here => simp [spelling]
  | @down outer member inner line nested _ ih =>
      have hplain := (nests hdeclared houter nested).plain (ofGraph_forest hdeclared).entered
      rw [ih (Declaration.mem_walkAll_member houter nested), hplain]
      simp [String.toList_append, spelling]

/-- Lines of one spelling that start in one symbol lead to namesakes, unless both
end where they start. -/
theorem Readable.namesakes_of_spelling (h : inventory.Readable graph)
    (hdeclared : ofGraph graph = .ok inventory) {outer' inner' : Declaration}
    {line line' : List Declaration} (hline : Descends outer line inner)
    (hline' : Descends outer' line' inner') (houter : outer ∈ inventory.allDeclarations)
    (houter' : outer' ∈ inventory.allDeclarations) (hsymbol : outer.symbol = outer'.symbol)
    (hspelling : spelling line = spelling line') :
    (line = [] ∧ line' = []) ∨ inventory.Namesakes inner inner' := by
  induction hline generalizing outer' line' with
  | here => exact .inl ⟨rfl, Declaration.spelling_eq_nil hspelling.symm⟩
  | @down outer member inner line nested below ih =>
      cases hline' with
      | here => simp [spelling] at hspelling
      | @down _ member' _ line' nested' below' =>
          have hmember := Declaration.mem_walkAll_member houter nested
          have hmember' := Declaration.mem_walkAll_member houter' nested'
          have hsiblings : inventory.Siblings member member' :=
            ⟨outer, houter, outer', houter', (nests hdeclared houter nested).parent,
              (nests hdeclared houter' nested').parent, hsymbol⟩
          have hsiblings' : inventory.Siblings member' member :=
            ⟨outer', houter', outer, houter, (nests hdeclared houter' nested').parent,
              (nests hdeclared houter nested).parent, hsymbol.symm⟩
          obtain ⟨hsegment, hrest⟩ := cancel_of_not_continues
            (h.names _ hmember _ hmember' hsiblings).1
            (h.names _ hmember' _ hmember hsiblings').1 (List.cons.inj hspelling).2
          have hsame := symbol_eq_of_segment hdeclared houter houter' nested nested'
            hsymbol hsegment
          rcases ih below' hmember hmember' hsame hrest with ⟨rfl, rfl⟩ | hdeeper
          · cases below
            cases below'
            have hstatic := (h.names _ hmember _ hmember' hsiblings).2 hsegment
            exact .inr ⟨hsiblings, Declaration.declaredName_eq
              (nests hdeclared houter nested).named (nests hdeclared houter' nested').named
              hsegment hstatic, hstatic⟩
          · exact .inr hdeeper

theorem exists_line (hdeclared : ofGraph graph = .ok inventory)
    (hinner : inner ∈ inventory.allDeclarations) :
    ∃ outer ∈ inventory.allDeclarations, ∃ line, Descends outer line inner ∧
      ∃ entry ∈ graph.symbols, ∃ label, Label.ofDatum entry.key = .ok label ∧
        outer.site ∈ entry.declarations ∧ outer.parent = none ∧
        outer.symbol = outermost entry label ∧
        inner.symbol.label.plain.toList = entry.key.plain.toList ++ spelling line := by
  obtain ⟨outer, houter, line, hline⟩ := Declaration.exists_descends_of_walkAll _ hinner
  have hmem : outer ∈ inventory.allDeclarations :=
    Declaration.mem_walkAll.mpr ⟨outer, houter, Declaration.mem_walk_self outer⟩
  obtain ⟨entry, hentry, label, hlabel, -, site, hsite, hdeclares⟩ :=
    (ofGraph_forest hdeclared).exists_site houter
  have hplain := plain_of_descends hdeclared hline hmem
  obtain ⟨-, -⟩ := hdeclares
  refine ⟨_, hmem, line, hline, entry, hentry, label, hlabel, hsite, rfl, rfl, ?_⟩
  rw [hplain, ← (Label.ofDatum_eq_ok.mp hlabel).1]
  rfl

theorem Readable.together (h : inventory.Readable graph)
    (hdeclared : ofGraph graph = .ok inventory) {one other : Declaration}
    (hone : one ∈ inventory.allDeclarations) (hother : other ∈ inventory.allDeclarations)
    (hsymbol : one.symbol = other.symbol) :
    ListedTogether graph one other ∨ inventory.Namesakes one other := by
  obtain ⟨outer, houter, line, hline, entry, hentry, label, hlabel, hsite, -, hown,
    hplain⟩ := exists_line hdeclared hone
  obtain ⟨outer', houter', line', hline', entry', hentry', label', hlabel', hsite', -,
    hown', hplain'⟩ := exists_line hdeclared hother
  rw [hsymbol, hplain'] at hplain
  obtain ⟨hkey, hspelling⟩ := cancel_of_not_continues (h.keys _ hentry' _ hentry).1
    (h.keys _ hentry _ hentry').1 hplain
  -- The lines start under one entry, since no two entries have one key.
  obtain rfl : entry' = entry := List.inj_on_of_nodup_map (entries_distinct hdeclared)
    hentry' hentry ((h.keys _ hentry' _ hentry).2 hkey)
  obtain rfl : label' = label := Except.ok.inj (hlabel'.symm.trans hlabel)
  rcases h.namesakes_of_spelling hdeclared hline hline' houter houter'
    (hown.trans hown'.symm) hspelling.symm with ⟨rfl, rfl⟩ | hnamesakes
  · cases hline
    cases hline'
    exact .inl ⟨entry', hentry', hsite, hsite'⟩
  · exact .inr hnamesakes

private theorem Readable.symbol_parent (h : inventory.Readable graph)
    (hdeclared : ofGraph graph = .ok inventory) {owner : Declaration}
    (hmember : member ∈ inventory.allDeclarations) (howner : owner ∈ inventory.allDeclarations)
    (hparent : member.parent = some owner.id) :
    member.symbol.parent = some owner.symbol.label := by
  have hnests := nests hdeclared howner (mem_members hdeclared hmember howner hparent)
  rcases (ofGraph_grown hdeclared).2.2 _ hnests.known with
    ⟨entry, hentry, label, hlabel, hsymbol⟩ | ⟨outer, houter, first, hfirst, hsymbol, hfound⟩
  · -- The key of the entry would continue that of the entry around the member.
    obtain ⟨top, -, line, hline, around, haround, -, -, -, htop, -, hplain⟩ :=
      exists_line hdeclared hmember
    cases hline with
    | here => cases htop.symm.trans hparent
    | down _ _ =>
        refine absurd ?_ (h.keys _ haround _ hentry).1
        rw [hsymbol, outermost, Label.plain, (Label.ofDatum_eq_ok.mp hlabel).1] at hplain
        exact ⟨_, by rw [hplain, List.append_assoc]; rfl⟩
  · -- The member that the symbol was entered for is a namesake.
    have hmem := Declaration.mem_walkAll_member houter hfirst
    have hown := (nests hdeclared houter hfirst).parent
    rcases h.together hdeclared hmem hmember hsymbol with
      ⟨entry, hentry, hsite, -⟩ | ⟨⟨one, hone, other, hother, hparents, hparent', hsame⟩, -⟩
    · obtain ⟨label, -, hlisted⟩ := exists_label_of_listed hdeclared hentry
      cases (hlisted first hmem hsite).2.symm.trans hown
    · have hdistinct := ids_nodup hdeclared
      obtain rfl : outer = one := List.inj_on_of_nodup_map hdistinct houter hone
        (Option.some.inj (hown.symm.trans hparents))
      obtain rfl : owner = other := List.inj_on_of_nodup_map hdistinct howner hother
        (Option.some.inj (hparent.symm.trans hparent'))
      rw [hfound, hsame]

/-- Whether two declarations share a symbol is decided by the texts of their labels.
What is listed together shares a symbol, and so do namesakes.  Where the labels can be
read back, nothing else does, and the symbol of a member belongs to that of its
owner. -/
theorem symbols_identified (hdeclared : ofGraph graph = .ok inventory)
    {one other : Declaration} (hone : one ∈ inventory.allDeclarations)
    (hother : other ∈ inventory.allDeclarations) :
    (one.symbol = other.symbol ↔ one.symbol.key = other.symbol.key) ∧
      (∀ owner ∈ inventory.allDeclarations, one.parent = some owner.id →
        one.symbol.key = .text (owner.symbol.label.plain ++ "#" ++ one.segment)) ∧
      (ListedTogether graph one other ∨ inventory.Namesakes one other →
        one.symbol = other.symbol) ∧
      (inventory.Readable graph →
        (one.symbol = other.symbol ↔
          ListedTogether graph one other ∨ inventory.Namesakes one other) ∧
        ∀ owner ∈ inventory.allDeclarations, one.parent = some owner.id →
          one.symbol.parent = some owner.symbol.label) := by
  have hshared : ListedTogether graph one other ∨ inventory.Namesakes one other →
      one.symbol = other.symbol := by
    rintro (⟨entry, hentry, hsite, hsite'⟩ | hnamesakes)
    · obtain ⟨label, -, hlisted⟩ := exists_label_of_listed hdeclared hentry
      rw [(hlisted one hone hsite).1, (hlisted other hother hsite').1]
    · exact symbol_eq_of_namesakes hdeclared hone hother hnamesakes
  refine ⟨⟨fun h => by rw [h], ?_⟩, fun owner howner hparent => ?_, hshared, fun h => ?_⟩
  · exact symbol_eq_of_key hdeclared (symbol_mem hdeclared hone)
      (symbol_mem hdeclared hother)
  · exact (nests hdeclared howner (mem_members hdeclared hone howner hparent)).key
  · exact ⟨⟨h.together hdeclared hone hother, hshared⟩, fun owner howner hparent =>
      h.symbol_parent hdeclared hone howner hparent⟩

/-- A class with a property and a static property of the same name, an interface with
a property of that name, and a function. -/
def membersFile : SourceFile where
  path := .text "index.d.ts"
  text := "A{x;static x}A{x}B".toList
  root := .mk .sourceFile 0 18 0 .null
    [.mk .classDeclaration 0 13 1 .null
      [.mk .identifier 0 1 2 .null [],
      .mk .propertyDeclaration 2 4 3 .null [.mk .identifier 2 3 4 .null []],
      .mk .propertyDeclaration 4 12 5 .null
        [.mk .syntaxList 4 10 6 .null [.mk .staticKeyword 4 10 7 .null []],
        .mk .identifier 11 12 8 .null []]],
    .mk .interfaceDeclaration 13 17 9 .null
      [.mk .identifier 13 14 10 .null [],
      .mk .propertySignature 15 16 11 .null [.mk .identifier 15 16 12 .null []]],
    .mk .functionDeclaration 17 18 13 .null [.mk .identifier 17 18 14 .null []]]

def membersPackage (keys : List (String × List Nat)) : ModuleGraph where
  packageName := .text "members"
  files := [membersFile]
  symbols := keys.map fun (key, ids) =>
    { key := .text key
      localName := .text key
      declarations := (membersFile.root.children.filter fun node => ids.contains node.id).map
        fun node => ⟨membersFile, [membersFile.root], node⟩ }

/-- The segments of all declarations, and which of them are static. -/
def membersSegments : List (String × Bool) :=
  [("A", false), ("x", false), ("x:static", true), ("A", false), ("x", false), ("B", false)]

theorem symbols_identified_merged :
    ∃ inventory one other owner, ofGraph (membersPackage [("A", [1, 9]), ("B", [13])]) =
        .ok inventory ∧ inventory.Readable (membersPackage [("A", [1, 9]), ("B", [13])]) ∧
      one ∈ inventory.allDeclarations ∧ other ∈ inventory.allDeclarations ∧
      owner ∈ inventory.allDeclarations ∧ one.parent = some owner.id ∧
      other.parent ≠ some owner.id ∧ inventory.Namesakes one other ∧
      one.symbol = other.symbol ∧ one.symbol.parent = some owner.symbol.label := by
  have hrun : (do
      let inventory ← ofGraph (membersPackage [("A", [1, 9]), ("B", [13])])
      let owner ← pick inventory.allDeclarations 0
      let one ← pick inventory.allDeclarations 1
      let other ← pick inventory.allDeclarations 4
      pure (inventory.allDeclarations.map fun declaration : Declaration =>
          (declaration.segment, declaration.isStatic),
        owner.id, one.parent, other.parent, one.symbol.key, other.symbol.key)) =
      .ok (membersSegments, 1, some 1, some 4, .text "A#x", .text "A#x") := by
    cbv
  simp only [bind_eq_ok, pure_eq_ok, pick_eq_ok, Prod.mk.injEq] at hrun
  obtain ⟨inventory, hdeclared, owner, howner, one, hone, other, hother, hsegments, hid,
    hparent, hparent', hkey, hkey'⟩ := hrun
  have howner := List.mem_of_getElem? howner
  have hone := List.mem_of_getElem? hone
  have hother := List.mem_of_getElem? hother
  have hreadable : inventory.Readable (membersPackage [("A", [1, 9]), ("B", [13])]) := by
    constructor
    · intro one hone other hother
      simp only [membersPackage, List.map_cons, List.map_nil, List.mem_cons,
        List.not_mem_nil, or_false] at hone hother
      rcases hone with rfl | rfl <;> rcases hother with rfl | rfl <;>
        exact ⟨by decide, by decide⟩
    · intro one hone other hother _
      have hapart : ∀ first ∈ membersSegments, ∀ second ∈ membersSegments,
          ¬Continues first.1 second.1 ∧ (first.1 = second.1 → first.2 = second.2) := by
        decide
      rw [← hsegments] at hapart
      exact hapart _ (List.mem_map_of_mem hone) _ (List.mem_map_of_mem hother)
  obtain ⟨hsame, -, -, hread⟩ := symbols_identified hdeclared hone hother
  obtain ⟨hshared, hbelongs⟩ := hread hreadable
  have hsymbol := hsame.mpr (hkey.trans hkey'.symm)
  have hnested : one.parent = some owner.id := by rw [hparent, hid]
  refine ⟨inventory, one, other, owner, hdeclared, hreadable, hone, hother, howner, hnested,
    by simp [hparent', hid], ?_, hsymbol, hbelongs owner howner hnested⟩
  rcases hshared.mp hsymbol with ⟨entry, hentry, hsite, -⟩ | hnamesakes
  · obtain ⟨label, -, hlisted⟩ := exists_label_of_listed hdeclared hentry
    cases (hlisted one hone hsite).2.symm.trans hparent
  · exact hnamesakes

/-- A function under a key that reads like the label of a property shares its symbol
with the property, which then belongs to no other symbol. -/
theorem symbol_of_entry_shared :
    ∃ inventory one member, ofGraph (membersPackage [("A#x", [13]), ("A", [1])]) =
        .ok inventory ∧ one ∈ inventory.allDeclarations ∧
      member ∈ inventory.allDeclarations ∧ one.symbol = member.symbol ∧
      ¬ListedTogether (membersPackage [("A#x", [13]), ("A", [1])]) one member ∧
      ¬inventory.Namesakes one member ∧ member.parent = some 2 ∧
      member.symbol.parent.isNone = true := by
  have hrun : (do
      let inventory ← ofGraph (membersPackage [("A#x", [13]), ("A", [1])])
      let one ← pick inventory.allDeclarations 0
      let member ← pick inventory.allDeclarations 2
      pure (one.parent, member.parent, one.symbol.key, member.symbol.key,
        member.symbol.parent.isNone)) =
      .ok (none, some 2, .text "A#x", .text "A#x", true) := by
    cbv
  simp only [bind_eq_ok, pure_eq_ok, pick_eq_ok, Prod.mk.injEq] at hrun
  obtain ⟨inventory, hdeclared, one, hone, member, hmember, houtermost, hparent, hkey, hkey',
    halone⟩ := hrun
  have hone := List.mem_of_getElem? hone
  have hmember := List.mem_of_getElem? hmember
  refine ⟨inventory, one, member, hdeclared, hone, hmember, ?_, ?_, ?_, hparent, halone⟩
  · exact symbol_eq_of_key hdeclared (symbol_mem hdeclared hone)
      (symbol_mem hdeclared hmember) (hkey.trans hkey'.symm)
  · rintro ⟨entry, hentry, -, hsite⟩
    obtain ⟨label, -, hlisted⟩ := exists_label_of_listed hdeclared hentry
    cases (hlisted member hmember hsite).2.symm.trans hparent
  · rintro ⟨⟨owner, -, owner', -, howner, -⟩, -⟩
    cases houtermost.symm.trans howner

end Inventory

end ApiSurface
