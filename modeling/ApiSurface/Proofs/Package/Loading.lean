import ApiSurface.Package.Load
import ApiSurface.Proofs.Surface.Arena
import ApiSurface.Proofs.Tree.Sources

/-!
# What loading keeps of a dump

The trees of a dump are nested data.  What is meant by them is said twice here
without any loading: which mappings they hold, as outlines, and which text they
spell.  Every file that is loaded has an outline and a text of its own, and these
are the ones that were meant unless something in the dump hides something else: a
text hides the children next to it, and a mapping in the place of a list of parts
is read as its keys.
-/

namespace ApiSurface

/-! ## Mappings and texts of a tree -/

inductive Outline where
  | mk (kind label : Datum) (children : List Outline)

namespace Datum

def childrenOf (entries : List (Datum × Datum)) : Datum :=
  (named? "children" entries).getD .null

/-- The text that a mapping gives to its node; null is no text. -/
def ownText (entries : List (Datum × Datum)) : Text :=
  match named? "text" entries with
  | none | some .null => []
  | some content => content.characters

variable {α : Type}

mutual

/-- Goes through a tree in the order of the dump.  Texts are trivia; what a mapping gives
may use what comes from under its children. -/
def gather (trivia : String → List α) (mapping : List (Datum × Datum) → List α → List α) :
    Datum → List α
  | .text value => trivia value
  | .list items => gatherAll trivia mapping items
  | .map entries =>
      if entries.isEmpty then [] else mapping entries (gatherUnder trivia mapping entries)
  | _ => []

def gatherUnder (trivia : String → List α) (mapping : List (Datum × Datum) → List α → List α) :
    List (Datum × Datum) → List α
  | [] => []
  | (.text key, value) :: rest =>
      if key = "children" then gather trivia mapping value
      else gatherUnder trivia mapping rest
  | _ :: rest => gatherUnder trivia mapping rest

def gatherAll (trivia : String → List α) (mapping : List (Datum × Datum) → List α → List α) :
    List Datum → List α
  | [] => []
  | item :: rest => gather trivia mapping item ++ gatherAll trivia mapping rest

end

/-- The mappings in a tree, each with those under its children. -/
def outlines : Datum → List Outline :=
  gather (fun _ => []) fun entries below =>
    [.mk ((named? "kind" entries).getD .null) ((named? "ref" entries).getD .null) below]

def transcript : Datum → Text :=
  gather String.toList fun entries below => ownText entries ++ below

def isMapping : Datum → Bool
  | .map entries => !entries.isEmpty
  | _ => false

mutual

/-- No mapping in a tree stands in the place of a list, and each one with a text passes
a test of the text and what stands under its children. -/
def passes (test : Datum → Datum → Bool) : Datum → Bool
  | .list items => passesAll test items
  | .map entries =>
      match named? "text" entries with
      | some content => test content (childrenOf entries)
      | none => passesUnder test entries
  | _ => true

def passesUnder (test : Datum → Datum → Bool) : List (Datum × Datum) → Bool
  | [] => true
  | (.text key, value) :: rest =>
      if key = "children" then !value.isMapping && passes test value
      else passesUnder test rest
  | _ :: rest => passesUnder test rest

def passesAll (test : Datum → Datum → Bool) : List Datum → Bool
  | [] => true
  | item :: rest => passes test item && passesAll test rest

end

def hidesNoNode (_ children : Datum) : Bool := children.outlines.isEmpty

def hidesNoText (content children : Datum) : Bool :=
  !content.isNull && children.transcript.isEmpty

/-- No mapping in a list of parts is hidden, by a text next to it or by standing for
the list. -/
def showsNodes (tree : Datum) : Bool := !tree.isMapping && tree.passes hidesNoNode

def showsText (tree : Datum) : Bool := !tree.isMapping && tree.passes hidesNoText

theorem gatherUnder_eq (trivia : String → List α)
    (mapping : List (Datum × Datum) → List α → List α) (entries : List (Datum × Datum)) :
    gatherUnder trivia mapping entries = gather trivia mapping (childrenOf entries) := by
  induction entries with
  | nil => rfl
  | cons entry rest ih =>
      obtain ⟨key, value⟩ := entry
      cases key with
      | text key =>
          rw [gatherUnder, childrenOf, named?]
          split
          · rfl
          · exact ih
      | _ => exact ih

theorem passesUnder_eq (test : Datum → Datum → Bool) (entries : List (Datum × Datum)) :
    passesUnder test entries =
      (!(childrenOf entries).isMapping && (childrenOf entries).passes test) := by
  induction entries with
  | nil => rfl
  | cons entry rest ih =>
      obtain ⟨key, value⟩ := entry
      cases key with
      | text key =>
          rw [passesUnder, childrenOf, named?]
          split
          · rfl
          · exact ih
      | _ => exact ih

theorem outlines_map {entries : List (Datum × Datum)} (h : entries ≠ []) :
    (Datum.map entries).outlines = [.mk ((named? "kind" entries).getD .null)
      ((named? "ref" entries).getD .null) (childrenOf entries).outlines] := by
  rw [outlines, gather, gatherUnder_eq, if_neg (by simpa using h)]

theorem transcript_map {entries : List (Datum × Datum)} (h : entries ≠ []) :
    (Datum.map entries).transcript = ownText entries ++ (childrenOf entries).transcript := by
  rw [transcript, gather, gatherUnder_eq, if_neg (by simpa using h)]

private theorem ownText_of_text {entries : List (Datum × Datum)} {content : Datum}
    (h : named? "text" entries = some content) (hnull : content.isNull = false) :
    ownText entries = content.characters := by
  rw [ownText, h]
  cases content with
  | null => cases hnull
  | _ => rfl

theorem passes_map_text {entries : List (Datum × Datum)} {content : Datum}
    (test : Datum → Datum → Bool) (h : named? "text" entries = some content) :
    (Datum.map entries).passes test = test content (childrenOf entries) := by
  simp [passes, h]

theorem passes_map_children {entries : List (Datum × Datum)}
    (test : Datum → Datum → Bool) (h : named? "text" entries = none) :
    (Datum.map entries).passes test =
      (!(childrenOf entries).isMapping && (childrenOf entries).passes test) := by
  simp [passes, h, passesUnder_eq]

theorem sizeOf_childrenOf_lt (entries : List (Datum × Datum)) :
    sizeOf (childrenOf entries) < sizeOf (Datum.map entries) := by
  induction entries with
  | nil => decide
  | cons entry rest ih =>
      obtain ⟨key, value⟩ := entry
      have hrest : sizeOf (childrenOf rest) < sizeOf (Datum.map ((key, value) :: rest)) := by
        simp only [map.sizeOf_spec, List.cons.sizeOf_spec] at ih ⊢
        omega
      cases key with
      | text key =>
          rw [childrenOf, named?]
          split
          · simp
            omega
          · exact hrest
      | _ => exact hrest

end Datum

/-! ## Outlines of parts and nodes -/

mutual

def Node.outline : Node → Outline
  | .mk kind _ _ _ label children => .mk (.text kind.name) label (Node.outlineAll children)

def Node.outlineAll : List Node → List Outline
  | [] => []
  | node :: rest => Node.outline node :: Node.outlineAll rest

end

namespace Part

mutual

def outlines : Part → List Outline
  | .trivia _ => []
  | .node kind _ parts label => [.mk (.text kind.name) label (outlinesAll parts)]
  | .foreign kind _ parts label => [.mk (.text kind.name) label (outlinesAll parts)]

def outlinesAll : List Part → List Outline
  | [] => []
  | part :: rest => outlines part ++ outlinesAll rest

end

end Part

mutual

theorem Depicts.outline_eq {source : Text} : {part : Part} → {node : Node} →
    Depicts source part node → part.outlines = [node.outline]
  | _, _, .leaf _ => rfl
  | _, _, .branch _ below => by
      rw [Part.outlines, Node.outline, below.outlineAll_eq]

theorem DepictsAll.outlineAll_eq {source : Text} : {parts : List Part} → {nodes : List Node} →
    DepictsAll source parts nodes → Part.outlinesAll parts = Node.outlineAll nodes
  | _, _, .nil => rfl
  | _, _, .trivia after => by
      rw [Part.outlinesAll, Part.outlines, after.outlineAll_eq, List.nil_append]
  | _, _, .node here after => by
      rw [Part.outlinesAll, here.outline_eq, after.outlineAll_eq]
      rfl

end

namespace Part

/-! ## Reading the parts -/

theorem nodeKindOf_eq_ok {datum : Datum} {kind : NodeKind} (h : nodeKindOf datum = .ok kind) :
    datum = .text kind.name := by
  cases datum with
  | text name =>
      cases hfound : NodeKind.ofName? name with
      | none => simp [nodeKindOf, NodeKind.ofDatum?, hfound] at h
      | some found =>
          obtain rfl : found = kind := by simpa [nodeKindOf, NodeKind.ofDatum?, hfound] using h
          have hname : found.name = name := by simpa using List.find?_some hfound
          rw [hname]
  | _ => cases h

private theorem ofChildren_eq (entries : List (Datum × Datum)) :
    ofChildren entries = ofItems (Datum.childrenOf entries) := by
  induction entries with
  | nil => rfl
  | cons entry rest ih =>
      obtain ⟨key, value⟩ := entry
      cases key with
      | text key =>
          by_cases hkey : key = "children"
          · subst hkey
            rfl
          · have hskip : ofChildren ((.text key, value) :: rest) = ofChildren rest := by
              simp [ofChildren, hkey]
            rw [hskip, Datum.childrenOf, Datum.named?, if_neg hkey]
            exact ih
      | _ => exact ih

/-- A mapping that is read has a kind and gives one node.  A text settles the node, and
only without one are the children looked at. -/
theorem ofDatum_map_eq_ok {entries : List (Datum × Datum)} {part : Part}
    (h : ofDatum (.map entries) = .ok part) :
    ∃ kind, (Datum.named? "kind" entries).getD .null = .text kind.name ∧ entries ≠ [] ∧
      ((∃ content, Datum.named? "text" entries = some content ∧
        part = .node kind (some content.characters) []
          ((Datum.named? "ref" entries).getD .null)) ∨
      Datum.named? "text" entries = none ∧ ∃ parts,
        ofItems (Datum.childrenOf entries) = .ok parts ∧
        part = .node kind none parts ((Datum.named? "ref" entries).getD .null)) := by
  simp only [ofDatum, bind_eq_ok] at h
  obtain ⟨kind, hkind, h⟩ := h
  have hgiven := nodeKindOf_eq_ok hkind
  refine ⟨kind, hgiven, ?_, ?_⟩
  · rintro rfl
    cases hgiven
  · cases htext : Datum.named? "text" entries with
    | some content =>
        rw [htext, pure_eq_ok] at h
        exact .inl ⟨content, rfl, h.symm⟩
    | none =>
        simp only [htext, bind_eq_ok, pure_eq_ok, ofChildren_eq] at h
        obtain ⟨parts, hparts, rfl⟩ := h
        exact .inr ⟨rfl, parts, hparts, rfl⟩

private theorem ofItems_map_eq_ok {entries : List (Datum × Datum)} {parts : List Part}
    (h : ofItems (.map entries) = .ok parts) : ∀ part ∈ parts, ∃ text, part = .trivia text := by
  intro part hpart
  obtain ⟨⟨key, _⟩, -, hkey⟩ := exists_of_mem_mapM h hpart
  cases key with
  | text value =>
      cases hkey
      exact ⟨_, rfl⟩
  | _ => cases hkey

theorem outlinesAll_trivia {parts : List Part} (h : ∀ part ∈ parts, ∃ text, part = .trivia text) :
    outlinesAll parts = [] := by
  induction parts with
  | nil => rfl
  | cons part rest ih =>
      obtain ⟨⟨text, rfl⟩, hrest⟩ := List.forall_mem_cons.mp h
      rw [outlinesAll, ih hrest]
      rfl

theorem ofItems_absent {datum : Datum} {parts : List Part}
    (h : (if datum.present then Except.error (.notIterable datum) else .ok []) =
      (.ok parts : Except Fault (List Part))) : parts = [] := by
  split at h
  · cases h
  · exact (Except.ok.inj h).symm

mutual

theorem ofDatum_outlines {part : Part} : (datum : Datum) → ofDatum datum = .ok part →
    part.outlines.length = datum.outlines.length ∧
      (part.outlines = datum.outlines ↔ datum.passes Datum.hidesNoNode = true)
  | .text _, h => by
      cases h
      exact ⟨rfl, iff_of_true rfl rfl⟩
  | .map entries, h => by
      obtain ⟨kind, hkind, hentries, ⟨content, htext, rfl⟩ | ⟨htext, parts, hparts, rfl⟩⟩ :=
        ofDatum_map_eq_ok h
      · rw [Datum.outlines_map hentries, Datum.passes_map_text _ htext, hkind]
        refine ⟨rfl, ?_⟩
        simp only [outlines, outlinesAll, Datum.hidesNoNode, List.isEmpty_iff, List.cons.injEq,
          Outline.mk.injEq, true_and, and_true]
        exact eq_comm
      · have hbelow := ofItems_outlines (Datum.childrenOf entries) hparts
        rw [Datum.showsNodes, ← Datum.passes_map_children _ htext] at hbelow
        rw [Datum.outlines_map hentries, hkind, ← hbelow]
        refine ⟨rfl, ?_⟩
        simp [outlines]
  | .null, h | .bool _, h | .int _, h | .real _, h | .list _, h => by cases h
  termination_by datum => sizeOf datum
  decreasing_by exact Datum.sizeOf_childrenOf_lt entries

theorem ofItems_outlines {parts : List Part} : (datum : Datum) → ofItems datum = .ok parts →
    (outlinesAll parts = datum.outlines ↔ datum.showsNodes = true)
  | .list items, h => ofList_outlines items h
  | .text value, h => by
      cases h
      refine iff_of_true (outlinesAll_trivia fun part hpart => ?_) rfl
      obtain ⟨character, -, rfl⟩ := List.mem_map.mp hpart
      exact ⟨_, rfl⟩
  | .map [], h => by
      cases h
      exact iff_of_true rfl rfl
  | .map (entry :: rest), h => by
      rw [outlinesAll_trivia (ofItems_map_eq_ok h), Datum.outlines_map (by simp)]
      simp [Datum.showsNodes, Datum.isMapping]
  | .null, h | .bool _, h | .int _, h | .real _, h => by
      simp only [ofItems] at h
      cases ofItems_absent h
      exact iff_of_true rfl rfl
  termination_by datum => sizeOf datum

theorem ofList_outlines {parts : List Part} : (items : List Datum) → ofList items = .ok parts →
    (outlinesAll parts = (Datum.list items).outlines ↔ (Datum.list items).showsNodes = true)
  | [], h => by
      cases h
      exact iff_of_true rfl rfl
  | item :: rest, h => by
      simp only [ofList, bind_eq_ok, pure_eq_ok] at h
      obtain ⟨part, hpart, others, hothers, rfl⟩ := h
      obtain ⟨hlength, hhere⟩ := ofDatum_outlines item hpart
      have hafter := ofList_outlines rest hothers
      -- An entry gives as many nodes as were meant, so the lists agree part by part.
      have hsplit : outlinesAll (part :: others) = (Datum.list (item :: rest)).outlines ↔
          part.outlines = item.outlines ∧ outlinesAll others = (Datum.list rest).outlines :=
        ⟨fun hsame => List.append_inj hsame hlength, fun ⟨hsame, hsame'⟩ =>
          congrArg₂ (· ++ ·) hsame hsame'⟩
      have hshows : (Datum.list (item :: rest)).showsNodes =
          (item.passes Datum.hidesNoNode && (Datum.list rest).showsNodes) := rfl
      rw [hsplit, hhere, hafter, hshows, Bool.and_eq_true]
  termination_by items => sizeOf items

end

private theorem textAll_characters (characters : List Char) :
    textAll (characters.map fun character => .trivia [character]) = characters := by
  induction characters with
  | nil => rfl
  | cons character rest ih =>
      rw [List.map_cons, textAll, ih]
      rfl

mutual

private theorem ofDatum_text {part : Part} : (datum : Datum) → ofDatum datum = .ok part →
    datum.passes Datum.hidesNoText = true → part.text = datum.transcript
  | .text _, h, _ => by
      cases h
      rfl
  | .map entries, h, hpasses => by
      obtain ⟨kind, -, hentries, ⟨content, htext, rfl⟩ | ⟨htext, parts, hparts, rfl⟩⟩ :=
        ofDatum_map_eq_ok h
      · rw [Datum.passes_map_text _ htext, Datum.hidesNoText, Bool.and_eq_true,
          Bool.not_eq_true', List.isEmpty_iff] at hpasses
        rw [Datum.transcript_map hentries, Datum.ownText_of_text htext hpasses.1, hpasses.2,
          List.append_nil, Part.text]
      · rw [Datum.passes_map_children _ htext] at hpasses
        rw [Part.text, Datum.transcript_map hentries,
          ofItems_text (Datum.childrenOf entries) hparts hpasses, Datum.ownText, htext]
        rfl
  | .null, h, _ | .bool _, h, _ | .int _, h, _ | .real _, h, _ | .list _, h, _ => by cases h
  termination_by datum => sizeOf datum
  decreasing_by exact Datum.sizeOf_childrenOf_lt entries

theorem ofItems_text {parts : List Part} : (datum : Datum) → ofItems datum = .ok parts →
    datum.showsText = true → textAll parts = datum.transcript
  | .list items, h, hshows => ofList_text items h hshows
  | .text value, h, _ => by
      cases h
      exact textAll_characters value.toList
  | .map [], h, _ => by
      cases h
      rfl
  | .map (_ :: _), _, hshows => by cases hshows
  | .null, h, _ | .bool _, h, _ | .int _, h, _ | .real _, h, _ => by
      simp only [ofItems] at h
      cases ofItems_absent h
      rfl
  termination_by datum => sizeOf datum

theorem ofList_text {parts : List Part} : (items : List Datum) → ofList items = .ok parts →
    (Datum.list items).showsText = true → textAll parts = (Datum.list items).transcript
  | [], h, _ => by
      cases h
      rfl
  | item :: rest, h, hshows => by
      simp only [ofList, bind_eq_ok, pure_eq_ok] at h
      obtain ⟨part, hpart, others, hothers, rfl⟩ := h
      obtain ⟨hhere, hafter⟩ : item.passes Datum.hidesNoText = true ∧
          (Datum.list rest).showsText = true := (Bool.and_eq_true _ _).mp hshows
      rw [textAll, ofDatum_text item hpart hhere, ofList_text rest hothers hafter]
      rfl
  termination_by items => sizeOf items

end

end Part

/-! ## Files -/

theorem Datum.require_eq_ok {datum value : Datum} {key place : String}
    (h : datum.require key place = .ok value) : datum.field key = value := by
  cases datum with
  | map entries =>
      rw [Datum.field]
      cases hfound : Datum.named? key entries with
      | none => simp [Datum.require, hfound] at h
      | some found =>
          cases found with
          | null => simp [Datum.require, hfound] at h
          | text content =>
              simp only [Datum.require, hfound] at h
              split at h
              · cases h
              · exact Except.ok.inj h
          | _ =>
              simp only [Datum.require, hfound] at h
              exact Except.ok.inj h
  | _ => cases h

/-- A file as it is meant by its entry in a dump.  It has a node for each mapping of the
tree exactly if the tree hides none, and its text is the one that the tree spells if
the tree hides none. -/
structure SourceFile.Loaded (datum : Datum) (file : SourceFile) : Prop where
  path : file.path = datum.field "path"
  nodes : ∃ children,
    file.root.outline = .mk (.text NodeKind.sourceFile.name) .null children ∧
      (children = (datum.field "tree").outlines ↔ (datum.field "tree").showsNodes = true)
  text : (datum.field "tree").showsText = true → file.text = (datum.field "tree").transcript

namespace Sources

variable {sources after : Sources}

private theorem loadFile_loaded {datum : Datum} (hconsistent : sources.Consistent)
    (h : loadFile sources datum = .ok after) :
    after.Consistent ∧ ∃ file, after.files = sources.files ++ [file] ∧ file.Loaded datum := by
  simp only [loadFile, bind_eq_ok, pure_eq_ok] at h
  obtain ⟨path, hpath, parts, hparts, file, hbuilt, rfl⟩ := h
  obtain ⟨nodes, hbuilds, -⟩ := sources.build_builds path parts
  obtain ⟨hshows, -⟩ := hbuilds.shows file hbuilt
  refine ⟨hconsistent.extend hbuilds.grows hbuilds.roots_perm, file, ?_, ?_⟩
  · rw [hbuilds.files_eq, hbuilt]
    rfl
  have houtline : [Outline.mk (.text NodeKind.sourceFile.name) .null (Part.outlinesAll parts)] =
      [file.root.outline] := hshows.depicts.outline_eq
  constructor
  · rw [hshows.path_eq, Datum.require_eq_ok hpath]
  · exact ⟨Part.outlinesAll parts, (List.cons.inj houtline).1.symm,
      Part.ofItems_outlines _ hparts⟩
  · intro htext
    rw [hshows.text_eq, Part.flatten_piecesAll, Part.ofItems_text _ hparts htext]

theorem loadFiles_loaded {given : List Datum} (hconsistent : sources.Consistent)
    (h : given.foldlM loadFile sources = .ok after) :
    after.Consistent ∧ ∃ files, after.files = sources.files ++ files ∧
      List.Forall₂ SourceFile.Loaded given files := by
  induction given generalizing sources with
  | nil =>
      obtain rfl : sources = after := by simpa [pure_eq_ok] using h
      exact ⟨hconsistent, [], by simp, .nil⟩
  | cons datum rest ih =>
      rw [List.foldlM_cons, bind_eq_ok] at h
      obtain ⟨between, hfirst, hrest⟩ := h
      obtain ⟨hbetween, file, hfile, hloaded⟩ := loadFile_loaded hconsistent hfirst
      obtain ⟨hafter, files, hfiles, hothers⟩ := ih hbetween hrest
      exact ⟨hafter, file :: files, by simp [hfiles, hfile], .cons hloaded hothers⟩

/-! ## Declared nodes -/

theorem mem_walkAll_of_site {label : Datum} {site : Site} (h : sources.site label = .ok site) :
    site.node ∈ Node.walkAll sources.roots := by
  simp only [Sources.site, bind_eq_ok] at h
  obtain ⟨key, -, h⟩ := h
  cases hfound : sources.siteOf? key with
  | none =>
      rw [hfound] at h
      cases h
  | some found =>
      rw [hfound, pure_eq_ok] at h
      obtain ⟨id, -, hsite⟩ := Option.bind_eq_some_iff.mp hfound
      obtain ⟨file, hfile, hlocated⟩ := List.exists_of_findSome?_eq_some hsite
      have hinner := ((Node.locate?_spec file id file.root []).1 found hlocated).1
      exact Node.mem_walkAll.mpr ⟨file.root, List.mem_map_of_mem hfile, h ▸ hinner⟩

theorem loadDeclaration_site {table flags : FlagTable} {datum : Datum} {site : Site}
    (h : loadDeclaration sources table datum = .ok (site, flags)) :
    ∃ label, sources.site label = .ok site := by
  unfold loadDeclaration at h
  split at h
  · simp only [bind_eq_ok, pure_eq_ok, Prod.mk.injEq] at h
    obtain ⟨_, hsite, rfl, -⟩ := h
    exact ⟨_, hsite⟩
  · simp only [bind_eq_ok] at h
    obtain ⟨_, -, label, -, found, hsite, h⟩ := h
    split at h <;> simp only [bind_eq_ok, pure_eq_ok, Prod.mk.injEq] at h
    · exact ⟨label, h.1 ▸ hsite⟩
    · obtain ⟨_, -, rfl, -⟩ := h
      exact ⟨label, hsite⟩

private theorem loadDeclarations_sites {table flags : FlagTable} {listed : List Datum}
    {sites : List Site} (h : loadDeclarations sources table listed = .ok (sites, flags)) :
    ∀ site ∈ sites, site.node ∈ Node.walkAll sources.roots := by
  induction listed generalizing table sites with
  | nil =>
      cases h
      simp
  | cons datum rest ih =>
      simp only [loadDeclarations, bind_eq_ok, pure_eq_ok, Prod.mk.injEq] at h
      obtain ⟨⟨first, _⟩, hfirst, ⟨others, _⟩, hothers, rfl, rfl⟩ := h
      obtain ⟨label, hsite⟩ := loadDeclaration_site hfirst
      exact List.forall_mem_cons.mpr ⟨mem_walkAll_of_site hsite, ih hothers⟩

private theorem loadSymbols_sites {table flags : FlagTable} {listed : List Datum}
    {entries : List SymbolEntry} (h : loadSymbols sources table listed = .ok (entries, flags)) :
    ∀ entry ∈ entries, ∀ site ∈ entry.declarations,
      site.node ∈ Node.walkAll sources.roots := by
  induction listed generalizing table entries with
  | nil =>
      cases h
      simp
  | cons datum rest ih =>
      simp only [loadSymbols, loadSymbol, bind_eq_ok, pure_eq_ok, Prod.mk.injEq] at h
      obtain ⟨⟨first, _⟩, hfirst, ⟨others, _⟩, hothers, rfl, rfl⟩ := h
      obtain ⟨_, -, _, -, ⟨sites, _⟩, hsites, _, -, _, -, _, -, _, -, rfl, -⟩ := hfirst
      exact List.forall_mem_cons.mpr ⟨loadDeclarations_sites hsites, ih hothers⟩

end Sources

namespace ModuleGraph

variable {dump : Datum} {graph : ModuleGraph}

theorem ofDump_eq_ok (h : ofDump dump = .ok graph) :
    ∃ given sources, (dump.field "files").listOrEmpty = .ok given ∧
      given.foldlM loadFile {} = .ok sources ∧ graph.files = sources.files ∧
      ∃ listed flags, loadSymbols sources [] listed = .ok (graph.symbols, flags) := by
  simp only [ofDump, bind_eq_ok] at h
  obtain ⟨package, -, name, -, h⟩ := h
  split at h
  · cases h
  simp only [bind_eq_ok, pure_eq_ok] at h
  obtain ⟨given, hgiven, sources, hsources, _, -, _, -, listed, -, ⟨symbols, flags⟩, hsymbols,
    h⟩ := h
  obtain ⟨_, -, _, -, _, -, _, -, _, -, _, -, _, -, _, -, _, -, _, -, _, -, rfl⟩ := h
  exact ⟨given, sources, hgiven, hsources, rfl, listed, flags, hsymbols⟩

/-- Every file of a dump that is loaded is the one that is meant, and no two nodes of
the package have the same id. -/
theorem ofDump_loaded (h : ofDump dump = .ok graph) :
    ∃ given, (dump.field "files").listOrEmpty = .ok given ∧
      List.Forall₂ SourceFile.Loaded given graph.files ∧
      ((Node.walkAll (graph.files.map SourceFile.root)).map Node.id).Nodup := by
  obtain ⟨given, sources, hgiven, hsources, hfiles, -⟩ := ofDump_eq_ok h
  obtain ⟨hconsistent, files, hadded, hloaded⟩ :=
    Sources.loadFiles_loaded Sources.consistent_empty hsources
  rw [List.nil_append] at hadded
  rw [hfiles]
  refine ⟨given, hgiven, hadded ▸ hloaded, hconsistent.distinct.sublist (.map _ ?_)⟩
  rw [Sources.roots, List.map_append, Node.walkAll_append]
  exact List.sublist_append_left _ _

def dumpOf (trees : List Datum) : Datum :=
  .record [("package", .record [("name", .text "p")]),
    ("files", .list (trees.map fun tree =>
      .record [("path", .text "index.d.ts"), ("tree", tree)]))]

/-- A class with a name and a property, whose name is written as a number. -/
def classTree : Datum :=
  .list [.record [("kind", .text "ClassDeclaration"), ("ref", .text "C"), ("children", .list
      [.text "class ", .record [("kind", .text "Identifier"), ("text", .text "C")], .text " \x7b ",
        .record [("kind", .text "PropertyDeclaration"), ("ref", .int 1), ("children", .list
          [.record [("kind", .text "Identifier"), ("text", .int 5)], .text ";"])],
        .text " \x7d"])],
    .text "\n"]

theorem ofDump_loaded_class :
    ∃ graph file, ofDump (dumpOf [classTree]) = .ok graph ∧ graph.files = [file] ∧
      file.root.outline = .mk (.text "SourceFile") .null
        [.mk (.text "ClassDeclaration") (.text "C")
          [.mk (.text "Identifier") .null [],
          .mk (.text "PropertyDeclaration") (.int 1) [.mk (.text "Identifier") .null []]]] ∧
      file.text = "class C \x7b 5; \x7d\n".toList ∧ (file.root.walk.map Node.id).Nodup := by
  have hrun : ∃ graph, ofDump (dumpOf [classTree]) = .ok graph := ⟨_, by cbv⟩
  obtain ⟨graph, hgraph⟩ := hrun
  obtain ⟨given, hgiven, hloaded, hdistinct⟩ := ofDump_loaded hgraph
  cases hgiven
  obtain ⟨file, _, hfile, hrest, hfiles⟩ := List.forall₂_cons_left_iff.mp hloaded
  obtain rfl := List.forall₂_nil_left_iff.mp hrest
  obtain ⟨children, houtline, hnodes⟩ := hfile.nodes
  obtain rfl := hnodes.mpr (by cbv)
  refine ⟨graph, file, hgraph, hfiles, houtline.trans (by cbv), ?_, ?_⟩
  · exact (hfile.text (by cbv)).trans (by cbv)
  · simpa [hfiles, Node.walkAll] using hdistinct

/-- The trees of three files: a text stands beside children, a mapping stands for the list
of parts, and a text is null. -/
def hidingTrees : List Datum :=
  [.list [.record [("kind", .text "TypeReference"), ("text", .text "A"), ("children",
      .list [.record [("kind", .text "Identifier"), ("ref", .text "b"), ("text", .text "B")]])]],
    .record [("kind", .text "Identifier")],
    .list [.record [("kind", .text "Identifier"), ("text", .null)]]]

theorem ofDump_hides :
    ∃ graph, ofDump (dumpOf hidingTrees) = .ok graph ∧
      graph.files.map (fun file => (Node.outlineAll file.root.children, file.text)) =
        [([.mk (.text "TypeReference") .null []], "A".toList),
          ([], "kind".toList), ([.mk (.text "Identifier") .null []], "None".toList)] ∧
      hidingTrees.map (fun tree => (tree.outlines, tree.transcript)) =
        [([.mk (.text "TypeReference") .null [.mk (.text "Identifier") (.text "b") []]],
            "AB".toList),
          ([.mk (.text "Identifier") .null []], []),
          ([.mk (.text "Identifier") .null []], [])] := by
  have hrun : (do
      let graph ← ofDump (dumpOf hidingTrees)
      pure (graph.files.map fun file : SourceFile =>
        (Node.outlineAll file.root.children, file.text))) =
        .ok [([.mk (.text "TypeReference") .null []], "A".toList),
          ([], "kind".toList), ([.mk (.text "Identifier") .null []], "None".toList)] := by
    cbv
  simp only [bind_eq_ok, pure_eq_ok] at hrun
  obtain ⟨graph, hgraph, hfiles⟩ := hrun
  exact ⟨graph, hgraph, hfiles, by cbv⟩

theorem ofDump_planted (h : ofDump dump = .ok graph) : graph.Planted := by
  obtain ⟨given, sources, -, hsources, -, listed, flags, hsymbols⟩ := ofDump_eq_ok h
  obtain ⟨hconsistent, -⟩ := Sources.loadFiles_loaded Sources.consistent_empty hsources
  refine ⟨sources.roots, hconsistent.distinct, fun site hsite => ?_⟩
  obtain ⟨entry, hentry, hlisted⟩ := List.mem_flatMap.mp hsite
  exact Sources.loadSymbols_sites hsymbols entry hentry site hlisted

end ModuleGraph

end ApiSurface
