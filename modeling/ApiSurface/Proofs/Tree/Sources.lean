import ApiSurface.Proofs.Tree.Building

/-!
# All files of one builder

A builder takes one description after the other, and some of them are faulty.
Every file that it returns shows its description and can be divided at any of
its nodes.  Ids are distinct over all files, and every label that was entered
leads to a node that carries it.
-/

namespace ApiSurface

/-! ## Looking nodes up -/

mutual

theorem Node.locate?_spec (file : SourceFile) (id : Nat) :
    ∀ (node : Node) (ancestors : List Node),
      (∀ site, node.locate? file ancestors id = some site →
        site.node ∈ node.walk ∧ site.node.id = id) ∧
      ∀ inner ∈ node.walk, inner.id = id → (node.locate? file ancestors id).isSome = true
  | .mk kind start stop own label children, ancestors => by
      obtain ⟨hfound, hlisted⟩ := Node.locateAmong?_spec file id children
        (.mk kind start stop own label children :: ancestors)
      simp only [Node.locate?, Node.walk, List.mem_cons]
      by_cases hown : own = id
      · simp [hown, Node.id]
      · simp only [hown, if_false]
        refine ⟨fun site hsite => ⟨.inr (hfound site hsite).1, (hfound site hsite).2⟩, ?_⟩
        rintro inner (rfl | hinner) hid
        · exact absurd hid hown
        · exact hlisted inner hinner hid

theorem Node.locateAmong?_spec (file : SourceFile) (id : Nat) :
    ∀ (nodes ancestors : List Node),
      (∀ site, Node.locateAmong? file ancestors id nodes = some site →
        site.node ∈ Node.walkAll nodes ∧ site.node.id = id) ∧
      ∀ inner ∈ Node.walkAll nodes, inner.id = id →
        (Node.locateAmong? file ancestors id nodes).isSome = true
  | [], _ => by simp [Node.locateAmong?, Node.walkAll]
  | node :: rest, ancestors => by
      obtain ⟨hfirst, hfirstListed⟩ := Node.locate?_spec file id node ancestors
      obtain ⟨hrest, hrestListed⟩ := Node.locateAmong?_spec file id rest ancestors
      simp only [Node.locateAmong?, Node.walkAll, List.mem_append]
      constructor
      · intro site hsite
        rcases Option.or_eq_some_iff.mp hsite with hsite | ⟨-, hsite⟩
        · exact ⟨.inl (hfirst site hsite).1, (hfirst site hsite).2⟩
        · exact ⟨.inr (hrest site hsite).1, (hrest site hsite).2⟩
      · rintro inner (hinner | hinner) hid
        · simp [hfirstListed inner hinner hid]
        · simp [hrestListed inner hinner hid]

end

theorem Node.walkAll_eq_flatMap (nodes : List Node) : walkAll nodes = nodes.flatMap walk := by
  induction nodes with
  | nil => rfl
  | cons node rest ih => simp [walkAll, ih]

namespace Sources

/-- All trees that a builder keeps, those of files that were given up included. -/
def roots (sources : Sources) : List Node :=
  (sources.files ++ sources.abandoned).map SourceFile.root

structure Consistent (sources : Sources) : Prop where
  distinct : ((Node.walkAll sources.roots).map Node.id).Nodup
  spent : ∀ node ∈ Node.walkAll sources.roots, node.id < sources.registry.next
  keys : (sources.registry.labels.map Prod.fst).Nodup
  named : ∀ entry ∈ sources.registry.labels, ∃ node ∈ Node.walkAll sources.roots,
    node.id = entry.2 ∧ node.label.key? = some entry.1

variable {sources after : Sources} {nodes : List Node}

theorem Consistent.extend (h : sources.Consistent)
    (hextends : sources.registry.Extends after.registry nodes)
    (hroots : after.roots.Perm (sources.roots ++ nodes)) : after.Consistent := by
  have hwalk : (Node.walkAll after.roots).Perm
      (Node.walkAll sources.roots ++ Node.walkAll nodes) := by
    simp only [Node.walkAll_eq_flatMap, ← List.flatMap_append]
    exact hroots.flatMap_right Node.walk
  refine ⟨?_, ?_, hextends.keys h.keys, ?_⟩
  · rw [(hwalk.map Node.id).nodup_iff, List.map_append, List.nodup_append]
    refine ⟨h.distinct, hextends.distinct, ?_⟩
    simp only [List.mem_map, forall_exists_index, and_imp]
    rintro _ one hone rfl _ other hother rfl hsame
    have := h.spent one hone
    have := (hextends.spent other hother).1
    omega
  · intro node hnode
    have := hextends.next_le
    rcases List.mem_append.mp (hwalk.mem_iff.mp hnode) with hnode | hnode
    · have := h.spent node hnode
      omega
    · exact (hextends.spent node hnode).2
  · intro entry hentry
    simp only [hwalk.mem_iff, List.mem_append]
    rcases hextends.named entry hentry with hentry | ⟨node, hnode, hnamed⟩
    · obtain ⟨node, hnode, hnamed⟩ := h.named entry hentry
      exact ⟨node, .inl hnode, hnamed⟩
    · exact ⟨node, .inr hnode, hnamed⟩

theorem Consistent.siteOf? (h : sources.Consistent) {key : Key} {node : Node}
    (hentry : (key, node.id) ∈ sources.registry.labels)
    (hnode : node ∈ Node.walkAll sources.roots) :
    ∃ site, sources.siteOf? key = some site ∧ site.node = node := by
  have hlookup : sources.registry.labels.lookup key = some node.id := by
    obtain ⟨before, rest, hsplit⟩ := List.append_of_mem hentry
    refine List.lookup_eq_some_iff.mpr ⟨before, rest, hsplit, fun entry hbefore => ?_⟩
    have hkeys := h.keys
    rw [hsplit, List.map_append, List.nodup_append] at hkeys
    have := hkeys.2.2 entry.1 (List.mem_map_of_mem hbefore) key (by simp)
    simpa using this.symm
  have hfound : ∃ site, (sources.files ++ sources.abandoned).findSome? (·.site? node.id) =
      some site := by
    rw [← Option.isSome_iff_exists, List.findSome?_isSome_iff]
    obtain ⟨root, hroot, hinner⟩ := Node.mem_walkAll.mp hnode
    obtain ⟨file, hfile, rfl⟩ := List.mem_map.mp hroot
    exact ⟨file, hfile, (Node.locate?_spec file node.id file.root []).2 node hinner rfl⟩
  obtain ⟨site, hsite⟩ := hfound
  refine ⟨site, by simpa [Sources.siteOf?, hlookup] using hsite, ?_⟩
  -- Whatever the search finds has the id, and ids are distinct.
  obtain ⟨file, hfile, hlocated⟩ := List.exists_of_findSome?_eq_some hsite
  obtain ⟨hinner, hid⟩ := (Node.locate?_spec file node.id file.root []).1 site hlocated
  refine List.inj_on_of_nodup_map h.distinct ?_ hnode hid
  exact Node.mem_walkAll.mpr ⟨file.root, List.mem_map_of_mem hfile, hinner⟩

end Sources

/-! ## What a file shows -/

structure Node.Nests (node : Node) : Prop where
  inside : ∀ child ∈ node.children,
    node.start ≤ child.start ∧ child.start ≤ child.stop ∧ child.stop ≤ node.stop
  apart : node.children.Pairwise fun first second => first.stop ≤ second.start

structure SourceFile.Shows (file : SourceFile) (path : Datum) (parts : List Part) :
    Prop where
  path_eq : file.path = path
  text_eq : file.text = (Part.piecesAll parts).flatten
  depicts : Depicts file.text (.node .sourceFile none parts .null) file.root
  nests : ∀ node ∈ file.root.walk, node.Nests
  divides : ∀ node ∈ file.root.walk, ∃ span, Span.ofNode file.text node = .ok span ∧
    span.text = node.text file.text ∧ span.render Edits.none = node.text file.text

theorem Node.pairwise_of_chain : ∀ {nodes : List Node}, nodes.IsChain Node.Follows →
    (∀ node ∈ nodes, node.start ≤ node.stop) →
    nodes.Pairwise fun first second => first.stop ≤ second.start
  | [], _, _ => .nil
  | [_], _, _ => List.pairwise_singleton _ _
  | first :: second :: rest, hchain, hordered => by
      rw [List.isChain_cons_cons] at hchain
      have hrest := pairwise_of_chain hchain.2
        (fun node hnode => hordered node (List.mem_cons_of_mem _ hnode))
      refine List.pairwise_cons.mpr ⟨?_, hrest⟩
      have hnext : first.stop ≤ second.start := hchain.1
      have hsecond := hordered second (by simp)
      rintro node (_ | ⟨_, hnode⟩)
      · exact hnext
      · have := (List.pairwise_cons.mp hrest).1 node hnode
        omega

theorem Span.Fits.of_mem_walk {source : Text} : ∀ {node inner : Node},
    Span.Fits source node → inner ∈ node.walk → Span.Fits source inner
  | .mk kind start stop id label children, inner, h, hinner => by
      rw [Node.walk_eq, List.mem_cons, Node.mem_walkAll] at hinner
      rcases hinner with rfl | ⟨child, hchild, hinner⟩
      · exact h
      · exact (h.of_mem_children hchild).of_mem_walk hinner
  termination_by node => sizeOf node
  decreasing_by
    have := List.sizeOf_lt_of_mem hchild
    simp_all [Node.children]
    omega

theorem Span.Fits.nests {source : Text} {node : Node} (h : Span.Fits source node) :
    node.Nests := by
  have hordered : ∀ child ∈ node.children, child.start ≤ child.stop :=
    fun child hchild => (h.of_mem_children hchild).start_le_stop
  refine ⟨fun child hchild => ?_, Node.pairwise_of_chain h.chain hordered⟩
  have := h.inside hchild
  have := hordered child hchild
  omega

theorem Span.Fits.divides {source : Text} {node : Node} (h : Span.Fits source node) :
    ∃ span, Span.ofNode source node = .ok span ∧
      span.text = node.text source ∧ span.render Edits.none = node.text source := by
  have htext : (layout source node).text = node.text source := by
    rw [(layout_eq source node).1, text_layoutWith source [] node h, List.append_nil,
      Node.text, Text.slice_eq_between h.start_nonneg h.start_le_stop]
  refine ⟨layout source node, ofNode_of_placed h.placed, htext, ?_⟩
  rw [Span.render, draw_none, htext]

theorem Drawn.shows {parts : List Part} {nodes : List Node} {stop : Nat}
    (h : Drawn (Part.textAll parts) 0 stop parts nodes)
    (hstop : stop = (Part.textAll parts).length) (path : Datum) (id : Nat) :
    SourceFile.Shows ⟨path, Part.textAll parts, .mk .sourceFile (0 : Nat) stop id .null nodes⟩
      path parts where
  path_eq := rfl
  text_eq := (Part.flatten_piecesAll parts).symm
  depicts := by
    have hwhole : Text.slice ([] ++ Part.textAll parts ++ []) (0 : Nat)
        (0 + (Part.textAll parts).length : Nat) = Part.textAll parts :=
      Text.slice_append rfl
    refine .branch ?_ h.depicts
    rw [Part.flatten_piecesAll, hstop]
    simpa using hwhole
  nests := fun node hnode =>
    ((h.closed (by omega) (by omega) _ _ _).of_mem_walk hnode).nests
  divides := fun node hnode =>
    ((h.closed (by omega) (by omega) _ _ _).of_mem_walk hnode).divides

namespace Sources

/-! ## One file after the other -/

/-- What one more description does to a builder.  With nodes that are kept it
spends ids and enters labels; a file is added if and only if it is returned. -/
structure Builds (sources : Sources) (path : Datum) (parts : List Part)
    (after : Sources) (result : Except Fault SourceFile) (nodes : List Node) : Prop where
  grows : sources.registry.Extends after.registry nodes
  roots_perm : after.roots.Perm (sources.roots ++ nodes)
  files_eq : after.files = sources.files ++ result.toOption.toList
  shows : ∀ file, result = .ok file →
    file.Shows path parts ∧ after.registry.Enters [file.root]

theorem abandon_builds {registry : Registry} {abandonment : Abandonment} (sources : Sources)
    (path : Datum) (parts : List Part) (fault : Fault)
    (h : sources.registry.Extends registry abandonment.fragments) :
    sources.Builds path parts (sources.abandon path registry abandonment) (.error fault)
      abandonment.fragments where
  grows := h
  roots_perm := by simp [roots, abandon, Function.comp_def]
  files_eq := by simp [abandon, Except.toOption]
  shows := by simp

theorem build_builds (sources : Sources) (path : Datum) (parts : List Part) :
    ∃ nodes, sources.Builds path parts (sources.build path parts).1
      (sources.build path parts).2 nodes ∧
      ∀ file, (sources.build path parts).2 = .ok file → Span.Fits file.text file.root := by
  have hparts := Part.buildAll_accounted parts sources.registry 0
  rw [build]
  split
  · rename_i hbuilt
    rw [hbuilt] at hparts
    exact ⟨_, abandon_builds _ _ _ _ hparts.1, by simp⟩
  · rename_i registry children stop hbuilt
    rw [hbuilt] at hparts
    have hchildren : sources.registry.Extends registry children := hparts.1
    obtain ⟨hgrows, hclosed⟩ := Registry.close_spec hchildren .sourceFile 0 stop .null
    split
    · -- The root has no label, so closing it cannot fail.
      rename_i hclose
      cases hclose
    · rename_i last root hclose
      obtain rfl := Part.close_ok hclose
      rw [hclose] at hgrows hclosed
      split
      · exact ⟨_, abandon_builds _ _ _ _ hgrows, by simp⟩
      · rename_i hforeign
        obtain ⟨hstop, hdrawn⟩ := Part.buildAll_drawn parts [] [] hforeign rfl hbuilt
        simp only [List.nil_append, List.append_nil, List.length_nil, Nat.zero_add]
          at hstop hdrawn
        refine ⟨_, ⟨hgrows, ?_, by simp [Except.toOption], ?_⟩, ?_⟩
        · simp only [roots, List.map_append, List.map_cons, List.map_nil, List.append_assoc]
          exact List.Perm.append_left _ List.perm_append_comm
        · rintro _ ⟨⟩
          rcases hclosed with ⟨-, henters⟩ | ⟨_, hfails⟩
          · exact ⟨hdrawn.shows hstop path registry.next, henters (hparts.2 _ _ rfl)⟩
          · cases hfails
        · rintro _ ⟨⟩
          exact hdrawn.closed (by omega) (by omega) _ _ _

/-- Builds files from one description after the other, past those that fail. -/
def buildEach (sources : Sources) :
    List (Datum × List Part) → Sources × List (Except Fault SourceFile)
  | [] => (sources, [])
  | (path, parts) :: rest =>
      let (sources, result) := sources.build path parts
      let (sources, results) := sources.buildEach rest
      (sources, result :: results)

structure Ran (sources : Sources) (requests : List (Datum × List Part)) (after : Sources)
    (results : List (Except Fault SourceFile)) : Prop where
  consistent : after.Consistent
  files_eq : after.files = sources.files ++ results.filterMap Except.toOption
  kept : ∀ entry ∈ sources.registry.labels, entry ∈ after.registry.labels
  shows : List.Forall₂ (fun request result => ∀ file, result = .ok file →
    file.Shows request.1 request.2 ∧ after.registry.Enters [file.root]) requests results

theorem buildEach_ran : ∀ (requests : List (Datum × List Part)) {sources : Sources},
    sources.Consistent →
    sources.Ran requests (sources.buildEach requests).1 (sources.buildEach requests).2
  | [], _, h => ⟨h, by simp [buildEach], by simp [buildEach], .nil⟩
  | (path, parts) :: rest, sources, h => by
      obtain ⟨nodes, hbuilds, -⟩ := sources.build_builds path parts
      have hrest := buildEach_ran rest (h.extend hbuilds.grows hbuilds.roots_perm)
      refine ⟨hrest.consistent, ?_, ?_, .cons ?_ hrest.shows⟩
      · rw [buildEach, hrest.files_eq, hbuilds.files_eq, List.append_assoc]
        cases sources.build path parts with
        | mk _ result => cases result <;> simp [List.filterMap_cons, Except.toOption]
      · exact fun entry hentry => hrest.kept entry (hbuilds.grows.kept entry hentry)
      · intro file hfile
        obtain ⟨hshows, henters⟩ := hbuilds.shows file hfile
        refine ⟨hshows, fun node hnode hnull => ?_⟩
        obtain ⟨key, hkey, hentry⟩ := henters node hnode hnull
        exact ⟨key, hkey, hrest.kept _ hentry⟩

theorem consistent_empty : ({} : Sources).Consistent := by
  constructor <;> simp [roots, Node.walkAll]

/-- For all descriptions given to one builder: every file that it returns shows
its description and can be divided at each of its nodes; ids are distinct over
all files and all fragments of files that were given up; every label that was
entered leads to a node that carries it, and every label in a file was entered. -/
theorem buildEach_shows (requests : List (Datum × List Part)) {after : Sources}
    {results : List (Except Fault SourceFile)}
    (hrun : ({} : Sources).buildEach requests = (after, results)) :
    after.files = results.filterMap Except.toOption ∧
    List.Forall₂ (fun request result => ∀ file, result = .ok file →
      file.Shows request.1 request.2) requests results ∧
    ((Node.walkAll after.roots).map Node.id).Nodup ∧
    (∀ key id, (key, id) ∈ after.registry.labels → ∃ site, after.siteOf? key = some site ∧
      site.node.id = id ∧ site.node.label.key? = some key) ∧
    ∀ file ∈ after.files, ∀ node ∈ file.root.walk, node.label.isNull = false →
      ∃ key site, node.label.key? = some key ∧ after.siteOf? key = some site ∧
        site.node = node := by
  have hran := buildEach_ran requests consistent_empty
  rw [hrun] at hran
  have hfiles : after.files = results.filterMap Except.toOption := by
    simpa using hran.files_eq
  refine ⟨hfiles, ?_, hran.consistent.distinct, ?_, ?_⟩
  · exact hran.shows.imp fun _ _ hshows file hfile => (hshows file hfile).1
  · intro key id hentry
    obtain ⟨node, hnode, rfl, hkey⟩ := hran.consistent.named _ hentry
    obtain ⟨site, hsite, rfl⟩ := hran.consistent.siteOf? hentry hnode
    exact ⟨site, hsite, rfl, hkey⟩
  · intro file hfile node hnode hnull
    have hroot : node ∈ Node.walkAll after.roots :=
      Node.mem_walkAll.mpr
        ⟨file.root, List.mem_map_of_mem (List.mem_append_left _ hfile), hnode⟩
    rw [hfiles, List.mem_filterMap] at hfile
    obtain ⟨result, hresult, hok⟩ := hfile
    obtain ⟨request, -, hshows⟩ := exists_left_of_forall₂ hran.shows hresult
    cases result with
    | error fault => cases hok
    | ok built =>
        cases hok
        obtain ⟨key, hkey, hentry⟩ := (hshows file rfl).2 node
          (by simpa [Node.walkAll] using hnode) hnull
        obtain ⟨site, hsite, hsame⟩ := hran.consistent.siteOf? hentry hroot
        exact ⟨key, site, hkey, hsite, hsame⟩

/-- Two files, between them one that fails at a label that is taken. -/
def sampleRequests : List (Datum × List Part) :=
  [(.text "a", [.node .typeReference none [.node .identifier (some "A".toList) [] (.text "x"),
      .trivia " ".toList, .node .identifier (some []) [] .null] (.text "y")]),
    (.text "b", [.node .identifier (some "B".toList) [] (.text "z"),
      .node .identifier (some "B".toList) [] (.text "x")]),
    (.text "c", [.trivia "\n".toList, .node .identifier (some "C".toList) [] (.int 1)])]

theorem buildEach_shows_samples :
    ∃ after first fault last, ({} : Sources).buildEach sampleRequests =
        (after, [.ok first, .error fault, .ok last]) ∧
      first.text = "A ".toList ∧ last.text = "\nC".toList ∧
      (∀ node ∈ first.root.walk, node.Nests) ∧
      ((Node.walkAll after.roots).map Node.id).Nodup := by
  have hrun : ∃ after first fault last, ({} : Sources).buildEach sampleRequests =
      (after, [.ok first, .error fault, .ok last]) := ⟨_, _, _, _, by cbv⟩
  obtain ⟨after, first, fault, last, hrun⟩ := hrun
  obtain ⟨-, hshows, hdistinct, -, -⟩ := buildEach_shows sampleRequests hrun
  rcases hshows with _ | ⟨hfirst, _ | ⟨-, _ | ⟨hlast, -⟩⟩⟩
  have hshown := hfirst first rfl
  exact ⟨after, first, fault, last, hrun, hshown.text_eq.trans (by decide),
    (hlast last rfl).text_eq.trans (by decide), hshown.nests, hdistinct⟩

end Sources

end ApiSurface
