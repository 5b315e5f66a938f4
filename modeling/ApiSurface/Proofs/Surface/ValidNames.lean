import ApiSurface.Proofs.Surface.ExportOrder
import ApiSurface.Proofs.Trim.References
import ApiSurface.Text.Digit

/-!
# Names that can be written

An entity is named after an export, after its symbol, after what an import takes
from a module, or, if an import takes a whole module, after the last segment of the
module's path.  Where the package gives identifiers, the first three are identifiers,
and numbering a name keeps it one.  A segment of a path can have any characters.  All
that cannot stand in an identifier are replaced, but a digit at the beginning stays,
and this is the only way to a name that is no identifier.
-/

namespace ApiSurface

/-! ## Identifiers -/

namespace Text

def isNameChar (character : Char) : Bool := isWordChar character || character == '$'

def startsWithDigit (text : Text) : Bool := text.head?.any isDecimal

/-- Word characters and dollar signs, with something else than a digit in front. -/
def isIdentifier (text : Text) : Bool :=
  !text.isEmpty && !startsWithDigit text && text.all isNameChar

theorem isIdentifier_iff {text : Text} : isIdentifier text = true ↔
    text ≠ [] ∧ startsWithDigit text = false ∧ ∀ character ∈ text, isNameChar character = true := by
  simp [isIdentifier, and_assoc]

private theorem zeros_within_wordRanges : (zeros.all fun first => first == 0x30 ||
    Nat.ble 0x80 first && wordRanges.any fun range =>
      Nat.ble range.1 first && Nat.ble (first + 9) range.2) = true := by
  decide +kernel

theorem isWordChar_of_isDecimal {character : Char} (h : isDecimal character = true) :
    isWordChar character = true := by
  have hascii : ∀ code < 10, (Char.ofNat (0x30 + code)).isAlphanum = true := by decide
  rw [isDecimal, digitValue?, Option.isSome_map, List.find?_isSome] at h
  obtain ⟨first, hfirst, hwithin⟩ := h
  have hlisted := List.all_eq_true.mp zeros_within_wordRanges first hfirst
  simp only [Bool.or_eq_true, Bool.and_eq_true, beq_iff_eq, Nat.ble_eq, List.any_eq_true,
    decide_eq_true_eq] at hlisted hwithin
  rcases hlisted with rfl | ⟨hfar, range, hrange, hlow, hhigh⟩
  · have hchar := hascii (character.toNat - 0x30) (by omega)
    rw [Nat.add_sub_cancel' hwithin.1, Char.ofNat_toNat] at hchar
    rw [isWordChar, if_pos (by omega), hchar, Bool.true_or]
  · rw [isWordChar, if_neg (by omega), Ranges.holds, List.any_eq_true]
    exact ⟨range, hrange, by simp only [Bool.and_eq_true, decide_eq_true_eq]; omega⟩

private theorem startsWithDigit_append {text : Text} (h : text ≠ []) (rest : Text) :
    startsWithDigit (text ++ rest) = startsWithDigit text := by
  cases text with
  | nil => exact absurd rfl h
  | cons first text => rfl

/-! ## Segments and chains -/

theorem isNameChar_of_mem_wordsOnly {text : Text} {character : Char}
    (h : character ∈ wordsOnly text) : isNameChar character = true := by
  obtain ⟨given, -, rfl⟩ := List.mem_map.mp h
  unfold isNameChar
  split
  · rename_i hword
    rw [hword, Bool.true_or]
  · decide

private theorem startsWithDigit_wordsOnly (text : Text) :
    startsWithDigit (wordsOnly text) = startsWithDigit text := by
  cases text with
  | nil => rfl
  | cons first rest =>
      change isDecimal (if isWordChar first then first else '_') = isDecimal first
      split
      · rfl
      · rename_i hother
        have hfirst : isDecimal first = false :=
          Bool.eq_false_iff.mpr fun h => hother (isWordChar_of_isDecimal h)
        rw [hfirst]
        decide

private theorem beforeFirst_mem_splitOn (separator : Char) (text : Text) :
    beforeFirst separator text ∈ splitOn separator text := by
  have hhead : (splitOn separator text).head? = some (beforeFirst separator text) := by
    induction text with
    | nil => rfl
    | cons character rest ih =>
        by_cases hsame : character = separator
        · simp [splitOn, beforeFirst, hsame]
        · obtain ⟨others, hothers⟩ := List.head?_eq_some_iff.mp ih
          rw [splitOn, if_neg hsame, hothers]
          simp [beforeFirst, hsame]
  exact List.mem_of_mem_head? hhead

end Text

namespace Import

def lastSegment (modulePath : String) : Text :=
  Text.afterLast '/' (modulePath.toList.reverse.dropWhile (· = '/')).reverse

private theorem moduleName_cases (modulePath : String) :
    Text.wordsOnly (lastSegment modulePath) = [] ∧ moduleName modulePath = "_module" ∨
    Text.wordsOnly (lastSegment modulePath) ≠ [] ∧
      moduleName modulePath = String.ofList (Text.wordsOnly (lastSegment modulePath)) := by
  unfold moduleName lastSegment
  dsimp only
  split
  · rename_i hempty
    exact .inl ⟨hempty, rfl⟩
  · rename_i hfilled
    exact .inr ⟨hfilled, rfl⟩

/-- A name made from a module path is an identifier unless the last segment of the
path starts with a digit. -/
theorem moduleName_spec (modulePath : String) :
    (moduleName modulePath).toList ≠ [] ∧
    (∀ character ∈ (moduleName modulePath).toList, Text.isNameChar character = true) ∧
    Text.startsWithDigit (moduleName modulePath).toList =
      Text.startsWithDigit (lastSegment modulePath) := by
  have hdigit := Text.startsWithDigit_wordsOnly (lastSegment modulePath)
  rcases moduleName_cases modulePath with ⟨hempty, hname⟩ | ⟨hfilled, hname⟩
  · rw [hempty] at hdigit
    rw [hname, ← hdigit]
    exact ⟨by decide +kernel, List.all_eq_true.mp (by decide +kernel), by decide +kernel⟩
  · rw [hname, String.toList_ofList]
    exact ⟨hfilled, fun _ => Text.isNameChar_of_mem_wordsOnly, hdigit⟩

end Import

/-! ## Where names come from -/

def Datum.IsIdentifier (datum : Datum) : Prop :=
  ∃ text, datum = .text text ∧ Text.isIdentifier text.toList = true

/-- Wherever a package gives a name it gives an identifier, and where an import type
follows a chain it is a chain of identifiers. -/
structure ModuleGraph.ValidNames (graph : ModuleGraph) : Prop where
  symbols : ∀ entry ∈ graph.symbols, entry.localName.IsIdentifier
  exports : ∀ entry ∈ graph.exports, entry.1.IsIdentifier
  imports : ∀ entry ∈ graph.imports, entry.source.kind ≠ .importType →
    entry.source.exportName.IsIdentifier
  chains : ∀ entry ∈ graph.imports, entry.source.kind = .importType →
    entry.source.exportName.present = true → ∃ chain, entry.source.exportName = .text chain ∧
      ∀ name ∈ Text.splitOn '.' chain.toList, Text.isIdentifier name = true

/-- The entity has no export to be named after, and as an import of a whole module it
is named after the path of the module. -/
def Entity.NamedAfter (entity : Entity) (modulePath : String) : Prop :=
  (∀ single, entity.exportNames = [single] → single.key = .text "default") ∧
    ∃ label source, entity.subject = .imported label source ∧ source.kind = .importType ∧
      source.exportName.present = false ∧ source.modulePath = .text modulePath

/-- What an entity stands for is an outermost symbol or an import of the package. -/
inductive ModuleGraph.Gives (graph : ModuleGraph) : Subject → Prop
  | symbol {entry : SymbolEntry} {label : Label} (given : entry ∈ graph.symbols) :
      Gives graph (.symbol label entry.localName)
  | imported {entry : ImportEntry} {label : Label} (given : entry ∈ graph.imports) :
      Gives graph (.imported label entry.source)

private theorem SymbolTable.Entered.name_outermost {entries : List SymbolEntry}
    {symbols : List Symbol} (h : Entered entries [] symbols) :
    ∀ symbol ∈ symbols, symbol.parent = none →
      ∃ entry ∈ entries, symbol.name = entry.localName := by
  induction h with
  | nothing => simp
  | entry _ given _ _ ih =>
      refine List.forall_mem_append.mpr ⟨ih, ?_⟩
      simp only [List.mem_singleton, forall_eq]
      exact fun _ => ⟨_, given, rfl⟩
  | member _ _ _ ih =>
      refine List.forall_mem_append.mpr ⟨ih, ?_⟩
      simp [memberOf]

namespace Inventory

variable {graph : ModuleGraph} {inventory : Inventory} {references : References}

def Outermost (inventory : Inventory) (id : EntityId) : Prop :=
  ∀ key, id = .symbol key → ∃ symbol ∈ inventory.symbols, symbol.key = key ∧ symbol.parent = none

theorem Denotes.outermost {key : Key} {id : EntityId} (h : inventory.Denotes key id) :
    inventory.Outermost id := by
  rintro key rfl
  cases h with
  | symbol inside => exact inside.known

private theorem exportTarget_outermost {entry : Datum × Datum} {id : EntityId}
    (h : inventory.exportTarget entry = .ok id) : inventory.Outermost id := by
  simp only [exportTarget, bind_eq_ok] at h
  obtain ⟨subject, hlookup, h⟩ := h
  have hknown := lookup_known hlookup
  split at h
  · rename_i key hkey
    split at h
    · cases h
    · rename_i hparent
      rw [hkey] at hknown
      obtain ⟨symbol, hsymbol, -⟩ := Option.map_eq_some_iff.mp hknown
      rintro _ rfl
      obtain rfl := EntityId.symbol.inj (pure_eq_ok.mp h)
      refine ⟨symbol, List.mem_of_find?_eq_some hsymbol, symbol?_key hsymbol, ?_⟩
      rwa [hsymbol, Option.bind_some] at hparent
  · rintro _ rfl
    cases pure_eq_ok.mp h

private theorem outermost_of_discovered (hdeclared : ofGraph graph = .ok inventory)
    (hreferred : inventory.references graph = .ok references)
    {exported : List (Option Label × EntityId)}
    (hexports : graph.exports.mapM (resolveExport inventory) = .ok exported) :
    ∀ id ∈ discover (references.outgoing inventory) inventory.entityIds
      (exported.map Prod.snd).eraseDups, inventory.Outermost id := by
  refine discover_forall (fun id hid => ?_) fun _ _ _ next hnext => ?_
  · obtain ⟨⟨name, found⟩, hmem, rfl⟩ := List.mem_map.mp (List.mem_eraseDups.mp hid)
    obtain ⟨entry, -, hresolved⟩ := exists_of_mem_mapM hexports hmem
    exact exportTarget_outermost (resolveExport_eq_ok hresolved).1
  · obtain ⟨key, hdenotes⟩ := outgoing_denoted hdeclared hreferred hnext
    exact hdenotes.outermost

theorem gives_of_outermost (hdeclared : ofGraph graph = .ok inventory) {id : EntityId}
    (hid : inventory.Outermost id) {subject : Subject}
    (hsubject : inventory.subject? id = some subject) : graph.Gives subject := by
  cases id with
  | symbol key =>
      obtain ⟨symbol, hsymbol, rfl⟩ := Option.map_eq_some_iff.mp hsubject
      obtain ⟨outer, houter, hkey, halone⟩ := hid key rfl
      have hentered := (ofGraph_forest hdeclared).entered
      have hsame : symbol = outer := by
        apply List.inj_on_of_nodup_map hentered.keys_nodup
          (List.mem_of_find?_eq_some hsymbol) houter
        rw [symbol?_key hsymbol, hkey]
      subst hsame
      obtain ⟨entry, hentry, hname⟩ := hentered.name_outermost symbol houter halone
      rw [Symbol.subject, hname]
      exact .symbol hentry
  | imported key =>
      obtain ⟨entry, hentry, rfl⟩ := Option.map_eq_some_iff.mp hsubject
      simp only [ofGraph, bind_eq_ok, pure_eq_ok] at hdeclared
      obtain ⟨_, -, imports, himports, rfl⟩ := hdeclared
      obtain ⟨⟨given, hgiven, hsource⟩, -⟩ := labelImports_eq_ok himports entry
        (List.mem_of_find?_eq_some hentry)
      rw [LabelledImport.subject, hsource]
      exact .imported hgiven

end Inventory

/-! ## Names of entities -/

/-- A text that is an identifier, except that a digit may be in front if and only if
some condition holds. -/
structure Text.Names (text : Text) (condition : Prop) : Prop where
  nonempty : text ≠ []
  characters : ∀ character ∈ text, isNameChar character = true
  digit : startsWithDigit text = true ↔ condition

namespace Text.Names

variable {text : Text} {condition : Prop}

theorem of_isIdentifier (h : isIdentifier text = true) (hnot : ¬ condition) :
    Names text condition := by
  obtain ⟨hthere, hdigit, hcharacters⟩ := isIdentifier_iff.mp h
  exact ⟨hthere, hcharacters, by simp [hdigit, hnot]⟩

theorem append {rest : Text} (h : Names text condition)
    (hrest : ∀ character ∈ rest, isNameChar character = true) :
    Names (text ++ rest) condition where
  nonempty := List.append_ne_nil_of_left_ne_nil h.nonempty rest
  characters := List.forall_mem_append.mpr ⟨h.characters, hrest⟩
  digit := by rw [startsWithDigit_append h.nonempty, h.digit]

theorem isIdentifier_iff (h : Names text condition) :
    isIdentifier text = true ↔ ¬ condition := by
  rw [Text.isIdentifier_iff, ← h.digit, Bool.not_eq_true]
  exact ⟨fun hidentifier => hidentifier.2.1, fun hdigit => ⟨h.nonempty, hdigit, h.characters⟩⟩

end Text.Names

/-- The entity is named after a module whose path has a digit where its last segment
starts. -/
def Entity.NamedAfterDigit (entity : Entity) : Prop :=
  ∃ path, entity.NamedAfter path ∧ Text.startsWithDigit (Import.lastSegment path) = true

private theorem isNameChar_of_isDigit {character : Char} (h : character.isDigit = true) :
    Text.isNameChar character = true := by
  have hcode : character.toNat < 0x80 := by
    simp only [Char.isDigit, Bool.and_eq_true, decide_eq_true_eq] at h
    have := UInt32.le_iff_toNat_le.mp h.2
    change character.toNat ≤ 57 at this
    omega
  simp [Text.isNameChar, Text.isWordChar, hcode, Char.isAlphanum, h]

namespace Naming

private theorem candidate_names {ideal : Label} {text : String} {condition : Prop}
    (hideal : ideal.datum = .text text) (h : Text.Names text.toList condition) (count : Nat) :
    ∃ name, (candidate ideal count).datum = .text name ∧ Text.Names name.toList condition := by
  cases count with
  | zero => exact ⟨text, hideal, h⟩
  | succ count =>
      refine ⟨s!"{text}_{count + 1}", ?_, ?_⟩
      · rw [candidate, Label.plain, hideal]
        rfl
      · have hspelled : (s!"{text}_{count + 1}").toList =
            text.toList ++ '_' :: Nat.toDigits 10 (count + 1) := by
          simp [toString, String.toList_append]
        rw [hspelled]
        refine h.append (List.forall_mem_cons.mpr ⟨by decide, fun character hdigit => ?_⟩)
        exact isNameChar_of_isDigit (Nat.isDigit_of_mem_toDigits (by omega) (by omega) hdigit)

end Naming

namespace Import

variable {source : Import} {name : Datum}

private theorem localName_eq_exportName (hkind : source.kind ≠ .importType)
    (h : source.localName = .ok name) : name = source.exportName := by
  unfold localName at h
  split at h
  · rename_i hsame
    exact absurd hsame hkind
  · exact (Except.ok.inj h).symm

private theorem localName_chain {chain : String} (hkind : source.kind = .importType)
    (hpresent : source.exportName.present = true) (hchain : source.exportName = .text chain)
    (h : source.localName = .ok name) :
    name = .text (String.ofList (Text.beforeFirst '.' chain.toList)) := by
  unfold localName topName at h
  simp only [hkind, hpresent, if_true] at h
  rw [hchain] at h
  exact (Except.ok.inj h).symm

private theorem localName_module (hkind : source.kind = .importType)
    (habsent : source.exportName.present = false) (h : source.localName = .ok name) :
    ∃ path, source.modulePath = .text path ∧ name = .text (moduleName path) := by
  unfold localName at h
  simp only [hkind, habsent, Bool.false_eq_true, if_false] at h
  cases hpath : source.modulePath with
  | text path =>
      rw [hpath] at h
      exact ⟨path, rfl, (Except.ok.inj h).symm⟩
  | _ =>
      rw [hpath] at h
      cases h

end Import

theorem ModuleGraph.ValidNames.localName {graph : ModuleGraph} (hnames : graph.ValidNames)
    {entity : Entity} (hgives : graph.Gives entity.subject)
    (hunnamed : ∀ single, entity.exportNames = [single] → single.key = .text "default")
    {name : Datum} (h : entity.localName = .ok name) :
    ∃ text, name = .text text ∧ Text.Names text.toList entity.NamedAfterDigit := by
  -- Only an import can be named after its module.
  have hsource : entity.NamedAfterDigit → ∃ label source, entity.subject = .imported label source ∧
      source.kind = .importType ∧ source.exportName.present = false := by
    rintro ⟨path, ⟨-, label, source, hsubject, hkind, habsent, -⟩, -⟩
    exact ⟨label, source, hsubject, hkind, habsent⟩
  rw [Entity.localName] at h
  generalize hsubject : entity.subject = subject at hgives h hsource
  cases hgives with
  | @symbol entry label given =>
      obtain ⟨text, htext, hidentifier⟩ := hnames.symbols entry given
      obtain rfl := Except.ok.inj h
      refine ⟨text, htext, .of_isIdentifier hidentifier fun hdigit => ?_⟩
      obtain ⟨_, _, hother, -⟩ := hsource hdigit
      cases hother
  | @imported entry label given =>
      have hown : entity.NamedAfterDigit → entry.source.kind = .importType ∧
          entry.source.exportName.present = false := by
        intro hdigit
        obtain ⟨_, _, hother, hkind⟩ := hsource hdigit
        obtain ⟨-, rfl⟩ := Subject.imported.inj hother
        exact hkind
      change entry.source.localName = .ok name at h
      by_cases hkind : entry.source.kind = .importType
      · cases hpresent : entry.source.exportName.present with
        | true =>
            obtain ⟨chain, hchain, hparts⟩ := hnames.chains entry given hkind hpresent
            refine ⟨_, Import.localName_chain hkind hpresent hchain h, ?_⟩
            rw [String.toList_ofList]
            refine .of_isIdentifier (hparts _ (Text.beforeFirst_mem_splitOn '.' _)) fun hdigit => ?_
            rw [hpresent] at hown
            cases (hown hdigit).2
        | false =>
            obtain ⟨path, hpath, hname⟩ := Import.localName_module hkind hpresent h
            obtain ⟨hthere, hcharacters, hdigit⟩ := Import.moduleName_spec path
            refine ⟨_, hname, hthere, hcharacters, ?_⟩
            rw [hdigit]
            constructor
            · exact fun hstarts => ⟨path,
                ⟨hunnamed, label, entry.source, hsubject, hkind, hpresent, hpath⟩, hstarts⟩
            · rintro ⟨other, ⟨-, _, source, hother, -, -, hpath'⟩, hstarts⟩
              obtain ⟨-, rfl⟩ := Subject.imported.inj (hsubject.symm.trans hother)
              obtain rfl := Datum.text.inj (hpath.symm.trans hpath')
              exact hstarts
      · obtain rfl := Import.localName_eq_exportName hkind h
        obtain ⟨text, htext, hidentifier⟩ := hnames.imports entry given hkind
        exact ⟨text, htext, .of_isIdentifier hidentifier fun hdigit => hkind (hown hdigit).1⟩

namespace Surface

open Naming

variable {graph : ModuleGraph} {router : Router} {surface : Surface}

private theorem analyze_gives (h : analyze graph router = .ok surface) {entity : Entity}
    (hentity : entity ∈ surface.entities) :
    graph.Gives entity.subject ∧
    (∀ name ∈ entity.exportNames, ∃ entry ∈ graph.exports, name.datum = entry.1) ∧
    ∃ named earlier, Chosen (graph.globalNames.map Label.key) named earlier entity := by
  obtain ⟨exported, named, hexports, hunnamed, hsettled, hsorted⟩ := analyze_settled h
  obtain ⟨_, _, _, hsteps⟩ := analyze_steps h
  have hmem := (sortByKey_perm hsorted).mem_iff.mp hentity
  obtain ⟨other, hother, hsubject, hnames⟩ := Entity.exists_of_unnamed hunnamed hmem
  refine ⟨?_, ?_, ?_⟩
  · obtain ⟨hid, hknown⟩ := mem_collectEntities hother
    rw [← hsubject]
    exact Inventory.gives_of_outermost hsteps.declared
      (Inventory.outermost_of_discovered hsteps.declared hsteps.referred hexports _ hid) hknown
  · intro name hname
    have hlisted := (exportNames_collectEntities hother).1 name (hnames ▸ hname)
    obtain ⟨entry, hentry, hresolved⟩ := exists_of_mem_mapM hexports hlisted
    obtain ⟨-, -, hlabel⟩ := resolveExport_eq_ok hresolved
    exact ⟨entry, hentry, (Label.ofDatum_eq_ok.mp (hlabel name rfl)).1⟩
  · obtain ⟨earlier, later, hsplit⟩ := List.append_of_mem hmem
    exact ⟨named, earlier, hsettled.free.chosen earlier entity later hsplit⟩

/-- If a package gives identifiers wherever it gives names, the name of every entity
is a text of word characters and dollar signs.  It is an identifier unless the entity
is named after a module and the last segment of the path of that module starts with
a digit. -/
theorem analyze_names_identifiers (h : analyze graph router = .ok surface)
    (hnames : graph.ValidNames) {entity : Entity} (hentity : entity ∈ surface.entities) :
    ∃ name, entity.name = .text name ∧ name ≠ "" ∧
      (∀ character ∈ name.toList, Text.isNameChar character = true) ∧
      (Text.isIdentifier name.toList = true ↔ ¬ entity.NamedAfterDigit) := by
  obtain ⟨hgives, hexports, named, earlier, ideal, hideal, hkept, hnumbered⟩ :=
    analyze_gives h hentity
  obtain ⟨text, htext, hspelled⟩ : ∃ text, ideal.datum = .text text ∧
      Text.Names text.toList entity.NamedAfterDigit := by
    cases hideal with
    | single only named =>
        obtain ⟨entry, hentry, hdatum⟩ := hexports ideal (by simp [only])
        obtain ⟨text, htext, hidentifier⟩ := hnames.exports entry hentry
        refine ⟨text, hdatum.trans htext, .of_isIdentifier hidentifier ?_⟩
        rintro ⟨path, ⟨hunnamed, -⟩, -⟩
        exact named (hunnamed ideal only)
    | own unnamed isLocal labelled =>
        rw [(Label.ofDatum_eq_ok.mp labelled).1]
        exact hnames.localName hgives unnamed isLocal
  obtain ⟨name, hname, hfinal⟩ : ∃ name, entity.name = .text name ∧
      Text.Names name.toList entity.NamedAfterDigit := by
    by_cases hkeeps : Keeps (graph.globalNames.map Label.key) entity ideal
    · exact ⟨text, (hkept hkeeps).trans htext, hspelled⟩
    · obtain ⟨count, hcount, -⟩ := hnumbered hkeeps
      rw [hcount]
      exact candidate_names htext hspelled count
  exact ⟨name, hname, by simpa using hfinal.nonempty, hfinal.characters, hfinal.isIdentifier_iff⟩

def importingFile : SourceFile where
  path := .text "index.d.ts"
  text := "C I J K L".toList
  root := .mk .sourceFile 0 9 0 .null
    [.mk .classDeclaration 0 9 1 .null
      [.mk .identifier 0 1 2 .null [], .mk .identifier 2 3 3 .null [],
        .mk .identifier 4 5 4 .null [], .mk .identifier 6 7 5 .null [],
        .mk .identifier 8 9 6 .null []]]

/-- Of the imports one has the name of the class, one follows a chain, and two take
whole modules. -/
def importingPackage : ModuleGraph where
  packageName := .text "importing"
  files := [importingFile]
  symbols := [{
    key := .text "C"
    localName := .text "C"
    declarations := importingFile.root.children.map
      fun node => ⟨importingFile, [importingFile.root], node⟩ }]
  imports :=
    [{ key := .text "I", source :=
        { kind := .named, modulePath := .text "lib", exportName := .text "C" } },
      { key := .text "J", source :=
        { kind := .importType, modulePath := .text "lib", exportName := .text "$n.Member" } },
      { key := .text "K", source :=
        { kind := .importType, modulePath := .text "@scope/my-lib//", exportName := .text "" } },
      { key := .text "L", source :=
        { kind := .importType, modulePath := .text "@scope/3d-lib", exportName := .text "" } }]
  bindings := [(3, .text "I"), (4, .text "J"), (5, .text "K"), (6, .text "L")]
  exports := [(.text "C", .text "C")]

theorem importingPackage_validNames : importingPackage.ValidNames := by
  have hclass : (Datum.text "C").IsIdentifier := ⟨"C", rfl, by decide +kernel⟩
  constructor
  · simpa [importingPackage] using hclass
  · simpa [importingPackage] using hclass
  · simpa [importingPackage] using hclass
  · intro entry hentry hkind hpresent
    simp only [importingPackage, List.mem_cons, List.not_mem_nil, or_false] at hentry
    rcases hentry with rfl | rfl | rfl | rfl
    · cases hkind
    · exact ⟨"$n.Member", rfl, List.all_eq_true.mp (by decide +kernel)⟩
    · cases hpresent
    · cases hpresent

theorem importingPackage_names :
    ∃ surface, analyze importingPackage {} = .ok surface ∧ surface.entities.map Entity.name =
      [.text "$n", .text "3d_lib", .text "C", .text "C_1", .text "my_lib"] := by
  have hrun : (do
      let surface ← analyze importingPackage {}
      pure (surface.entities.map Entity.name)) =
        .ok [.text "$n", .text "3d_lib", .text "C", .text "C_1", .text "my_lib"] := by
    cbv
  simp only [bind_eq_ok, pure_eq_ok] at hrun
  exact hrun

theorem analyze_names_identifiers_importing :
    ∃ surface, analyze importingPackage {} = .ok surface ∧ importingPackage.ValidNames ∧
      surface.entities.map Entity.name =
        [.text "$n", .text "3d_lib", .text "C", .text "C_1", .text "my_lib"] ∧
      ∀ entity ∈ surface.entities, ∃ name, entity.name = .text name ∧ name ≠ "" ∧
        (∀ character ∈ name.toList, Text.isNameChar character = true) ∧
        (Text.isIdentifier name.toList = true ↔ ¬ entity.NamedAfterDigit) := by
  obtain ⟨surface, hanalyze, hwritten⟩ := importingPackage_names
  exact ⟨surface, hanalyze, importingPackage_validNames, hwritten, fun entity hentity =>
    analyze_names_identifiers hanalyze importingPackage_validNames hentity⟩

/-- A module whose path has a digit in that place gives it to the name of the import. -/
theorem module_digit_kept :
    ∃ surface, analyze importingPackage {} = .ok surface ∧ importingPackage.ValidNames ∧
      ∃ entity ∈ surface.entities, entity.name = .text "3d_lib" ∧
        Text.isIdentifier "3d_lib".toList = false := by
  obtain ⟨surface, hanalyze, hwritten⟩ := importingPackage_names
  have hmem : Datum.text "3d_lib" ∈ surface.entities.map Entity.name := by simp [hwritten]
  obtain ⟨entity, hentity, hname⟩ := List.mem_map.mp hmem
  exact ⟨surface, hanalyze, importingPackage_validNames, entity, hentity, hname,
    by decide +kernel⟩

end Surface

end ApiSurface
