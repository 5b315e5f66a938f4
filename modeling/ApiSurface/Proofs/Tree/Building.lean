import ApiSurface.Proofs.Overlay.Division
import ApiSurface.Tree.Sources

/-!
# Files depict their descriptions

Building threads an offset, the next free id and the table of labels through
the descriptions of one file after the other.  Every node covers the pieces of
its own description.  Ids are spent and labels are entered only together with
nodes that are kept, also when a file is given up, so that ids stay distinct and
labels can be followed over all files.
-/

namespace ApiSurface

/-! ## Pieces of a description -/

namespace Part

mutual

def pieces : Part → List Text
  | .trivia text => [text]
  | .node _ (some text) _ _ => [text]
  | .node _ none parts _ => piecesAll parts
  | .foreign _ _ _ _ => []

def piecesAll : List Part → List Text
  | [] => []
  | part :: rest => pieces part ++ piecesAll rest

end

mutual

private theorem flatten_pieces : ∀ part : Part, part.pieces.flatten = part.text
  | .trivia _ => by simp [pieces, Part.text]
  | .node _ (some _) _ _ => by simp [pieces, Part.text]
  | .node _ none parts _ => by simp [pieces, Part.text, flatten_piecesAll parts]
  | .foreign _ _ _ _ => by simp [pieces, Part.text]

theorem flatten_piecesAll : ∀ parts : List Part, (piecesAll parts).flatten = textAll parts
  | [] => rfl
  | part :: rest => by
      simp [piecesAll, textAll, flatten_pieces part, flatten_piecesAll rest]

end

end Part

mutual

/-- A node with the kind and the label of a description, which covers the pieces
of the description and whose children depict the nodes in it. -/
inductive Depicts (source : Text) : Part → Node → Prop
  | leaf {kind : NodeKind} {text : Text} {label : Datum} {start stop : Int} {id : Nat}
      (covers : source.slice start stop = text) :
      Depicts source (.node kind (some text) [] label) (.mk kind start stop id label [])
  | branch {kind : NodeKind} {parts : List Part} {label : Datum} {start stop : Int}
      {id : Nat} {children : List Node}
      (covers : source.slice start stop = (Part.piecesAll parts).flatten)
      (below : DepictsAll source parts children) :
      Depicts source (.node kind none parts label) (.mk kind start stop id label children)

inductive DepictsAll (source : Text) : List Part → List Node → Prop
  | nil : DepictsAll source [] []
  | trivia {text : Text} {parts : List Part} {nodes : List Node}
      (after : DepictsAll source parts nodes) :
      DepictsAll source (.trivia text :: parts) nodes
  | node {part : Part} {parts : List Part} {node : Node} {nodes : List Node}
      (here : Depicts source part node) (after : DepictsAll source parts nodes) :
      DepictsAll source (part :: parts) (node :: nodes)

end

theorem DepictsAll.append {source : Text} {part : Part} {parts : List Part}
    {here others : List Node} (first : DepictsAll source [part] here)
    (rest : DepictsAll source parts others) :
    DepictsAll source (part :: parts) (here ++ others) := by
  cases first with
  | trivia after =>
      cases after
      exact .trivia rest
  | node here after =>
      cases after
      exact .node here rest

/-! ## Offsets -/

theorem Text.slice_append {before text after : Text} {start : Nat}
    (hstart : before.length = start) :
    Text.slice (before ++ text ++ after) start (start + text.length : Nat) = text := by
  subst hstart
  rw [Text.slice_eq_between (by omega) (by omega),
    Text.between_eq_take_drop (by omega) (by omega), Int.toNat_natCast, Int.toNat_natCast]
  simp

structure Drawn (source : Text) (start stop : Nat) (parts : List Part)
    (nodes : List Node) : Prop where
  depicts : DepictsAll source parts nodes
  fits : ∀ node ∈ nodes, Span.Fits source node
  inside : ∀ node ∈ nodes, (start : Int) ≤ node.start ∧ node.stop ≤ stop
  ordered : nodes.Pairwise Node.Follows

namespace Drawn

variable {source : Text} {start middle stop : Nat} {part : Part} {parts : List Part}
  {nodes others : List Node}

theorem empty (source : Text) (start stop : Nat) : Drawn source start stop [] [] := by
  constructor
  · exact .nil
  all_goals simp

theorem append (hfirst : Drawn source start middle [part] nodes)
    (hrest : Drawn source middle stop parts others) (hstart : start ≤ middle)
    (hstop : middle ≤ stop) : Drawn source start stop (part :: parts) (nodes ++ others) where
  depicts := hfirst.depicts.append hrest.depicts
  fits := List.forall_mem_append.mpr ⟨hfirst.fits, hrest.fits⟩
  inside := by
    intro node hnode
    rcases List.mem_append.mp hnode with hnode | hnode
    · have := hfirst.inside node hnode
      omega
    · have := hrest.inside node hnode
      omega
  ordered := by
    refine List.pairwise_append.mpr ⟨hfirst.ordered, hrest.ordered, ?_⟩
    intro one hone other hother
    have hbefore := hfirst.inside one hone
    have hafter := hrest.inside other hother
    unfold Node.Follows
    omega

/-- A node around its children is well placed, because they are. -/
theorem closed (h : Drawn source start stop parts nodes) (hstart : start ≤ stop)
    (hstop : stop ≤ source.length) (kind : NodeKind) (id : Nat) (label : Datum) :
    Span.Fits source (.mk kind start stop id label nodes) where
  placed := by
    rw [Node.placed_iff, Node.not_misplaced_iff]
    exact ⟨⟨h.inside, h.ordered.isChain⟩, fun child hchild => (h.fits child hchild).placed⟩
  ordered := by
    intro inner hinner
    rw [Node.walk_eq, List.mem_cons, Node.mem_walkAll] at hinner
    rcases hinner with rfl | ⟨child, hchild, hinner⟩
    · simp [Node.start, Node.stop, hstart]
    · exact (h.fits child hchild).ordered inner hinner
  start_nonneg := by simp [Node.start]
  stop_le := by simpa [Node.stop] using hstop

theorem single {node : Node} (hdepicts : Depicts source part node)
    (hfits : Span.Fits source node) (hstart : node.start = start) (hstop : node.stop = stop) :
    Drawn source start stop [part] [node] where
  depicts := .node hdepicts .nil
  fits := by simpa using hfits
  inside := by simp [hstart, hstop]
  ordered := by simp

end Drawn

/-! ## Giving ids -/

theorem Node.walkAll_append (first second : List Node) :
    walkAll (first ++ second) = walkAll first ++ walkAll second := by
  induction first with
  | nil => rfl
  | cons node rest ih => simp [walkAll, ih]

namespace Registry

/-- Closing a node spends an id.  The node is handed over, or it is left as a
fragment; a label is entered only in the first case. -/
theorem close_cases (registry : Registry) (kind : NodeKind) (start stop : Nat)
    (label : Datum) (children : List Node) :
    (label.isNull = true ∧ registry.close kind start stop label children =
      (⟨registry.next + 1, registry.labels⟩,
        .ok (.mk kind start stop registry.next label children))) ∨
    (∃ key, label.key? = some key ∧ key ∉ registry.labels.map Prod.fst ∧
      registry.close kind start stop label children =
        (⟨registry.next + 1, registry.labels ++ [(key, registry.next)]⟩,
          .ok (.mk kind start stop registry.next label children))) ∨
    ∃ fault, registry.close kind start stop label children =
      (⟨registry.next + 1, registry.labels⟩,
        .error ⟨fault, [.mk kind start stop registry.next label children]⟩) := by
  unfold close
  by_cases hnull : label.isNull = true
  · exact .inl ⟨hnull, by simp [hnull]⟩
  · cases hkey : label.key? with
    | none => exact .inr (.inr ⟨_, by simp [hnull]; rfl⟩)
    | some key =>
        cases hused : registry.labels.lookup key with
        | some _ => exact .inr (.inr ⟨_, by simp [hnull, hused]; rfl⟩)
        | none =>
            refine .inr (.inl ⟨key, rfl, ?_, by simp [hnull, hused]⟩)
            rintro hmem
            obtain ⟨entry, hentry, rfl⟩ := List.mem_map.mp hmem
            simpa using List.lookup_eq_none_iff.mp hused entry hentry

/-- What a registry has gained with some nodes: their ids are new, and the new
labels are theirs. -/
structure Extends (registry after : Registry) (nodes : List Node) : Prop where
  next_le : registry.next ≤ after.next
  distinct : ((Node.walkAll nodes).map Node.id).Nodup
  spent : ∀ node ∈ Node.walkAll nodes, registry.next ≤ node.id ∧ node.id < after.next
  kept : ∀ entry ∈ registry.labels, entry ∈ after.labels
  keys : (registry.labels.map Prod.fst).Nodup → (after.labels.map Prod.fst).Nodup
  named : ∀ entry ∈ after.labels, entry ∈ registry.labels ∨
    ∃ node ∈ Node.walkAll nodes, node.id = entry.2 ∧ node.label.key? = some entry.1

variable {registry after last : Registry} {nodes others : List Node}

theorem Extends.refl (registry : Registry) : registry.Extends registry [] := by
  constructor <;> simp [Node.walkAll]

theorem Extends.append (hfirst : registry.Extends after nodes)
    (hrest : after.Extends last others) : registry.Extends last (nodes ++ others) where
  next_le := hfirst.next_le.trans hrest.next_le
  distinct := by
    rw [Node.walkAll_append, List.map_append, List.nodup_append]
    refine ⟨hfirst.distinct, hrest.distinct, ?_⟩
    simp only [List.mem_map, forall_exists_index, and_imp]
    rintro _ one hone rfl _ other hother rfl hsame
    have := (hfirst.spent one hone).2
    have := (hrest.spent other hother).1
    omega
  spent := by
    rw [Node.walkAll_append]
    intro node hnode
    have := hfirst.next_le
    have := hrest.next_le
    rcases List.mem_append.mp hnode with hnode | hnode
    · have := hfirst.spent node hnode
      omega
    · have := hrest.spent node hnode
      omega
  kept := fun entry hentry => hrest.kept entry (hfirst.kept entry hentry)
  keys := fun hkeys => hrest.keys (hfirst.keys hkeys)
  named := by
    simp only [Node.walkAll_append, List.mem_append]
    intro entry hentry
    rcases hrest.named entry hentry with hentry | ⟨node, hnode, hnamed⟩
    · rcases hfirst.named entry hentry with hentry | ⟨node, hnode, hnamed⟩
      · exact .inl hentry
      · exact .inr ⟨node, .inl hnode, hnamed⟩
    · exact .inr ⟨node, .inr hnode, hnamed⟩

theorem Extends.close {kind : NodeKind} {start stop : Nat} {label : Datum}
    (h : registry.Extends after nodes) (added : List (Key × Nat))
    (hadded : added = [] ∨ ∃ key, label.key? = some key ∧
      key ∉ after.labels.map Prod.fst ∧ added = [(key, after.next)]) :
    registry.Extends ⟨after.next + 1, after.labels ++ added⟩
      [.mk kind start stop after.next label nodes] where
  next_le := Nat.le_succ_of_le h.next_le
  distinct := by
    simp only [Node.walkAll, Node.walk, List.append_nil, List.map_cons, List.nodup_cons]
    refine ⟨fun hmem => ?_, h.distinct⟩
    obtain ⟨node, hnode, hsame⟩ := List.mem_map.mp hmem
    have hspent := (h.spent node hnode).2
    rw [hsame] at hspent
    exact Nat.lt_irrefl _ hspent
  spent := by
    simp only [Node.walkAll, Node.walk, List.append_nil, List.forall_mem_cons]
    refine ⟨⟨h.next_le, Nat.lt_succ_self _⟩, fun node hnode => ?_⟩
    have := h.spent node hnode
    omega
  kept := fun entry hentry => List.mem_append_left _ (h.kept entry hentry)
  keys := by
    intro hkeys
    rcases hadded with rfl | ⟨key, -, hfresh, rfl⟩
    · simpa using h.keys hkeys
    · rw [List.map_append, List.nodup_append]
      refine ⟨h.keys hkeys, by simp, ?_⟩
      rintro one hone other hother rfl
      simp only [List.map_cons, List.map_nil, List.mem_singleton] at hother
      exact hfresh (hother ▸ hone)
  named := by
    simp only [Node.walkAll, Node.walk, List.append_nil, List.mem_append, List.mem_cons]
    rintro entry (hentry | hentry)
    · rcases h.named entry hentry with hentry | ⟨node, hnode, hnamed⟩
      · exact .inl hentry
      · exact .inr ⟨node, .inr hnode, hnamed⟩
    · rcases hadded with rfl | ⟨key, hkey, -, rfl⟩
      · cases hentry
      · obtain rfl := List.mem_singleton.mp hentry
        exact .inr ⟨_, .inl rfl, rfl, hkey⟩

def Enters (registry : Registry) (nodes : List Node) : Prop :=
  ∀ node ∈ Node.walkAll nodes, node.label.isNull = false →
    ∃ key, node.label.key? = some key ∧ (key, node.id) ∈ registry.labels

theorem close_spec (h : registry.Extends after nodes) (kind : NodeKind)
    (start stop : Nat) (label : Datum) :
    registry.Extends (after.close kind start stop label nodes).1
      [.mk kind start stop after.next label nodes] ∧
    ((after.close kind start stop label nodes).2 =
        .ok (.mk kind start stop after.next label nodes) ∧
      (after.Enters nodes → (after.close kind start stop label nodes).1.Enters
        [.mk kind start stop after.next label nodes]) ∨
    ∃ fault, (after.close kind start stop label nodes).2 =
      .error ⟨fault, [.mk kind start stop after.next label nodes]⟩) := by
  have hbelow : ∀ last : Registry, (∀ entry ∈ after.labels, entry ∈ last.labels) →
      (label.isNull = false → ∃ key, label.key? = some key ∧
        (key, after.next) ∈ last.labels) →
      after.Enters nodes → last.Enters [.mk kind start stop after.next label nodes] := by
    intro last hkept hown henters
    simp only [Enters, Node.walkAll, Node.walk, List.append_nil, List.forall_mem_cons]
    refine ⟨hown, fun node hnode hnull => ?_⟩
    obtain ⟨key, hkey, hentry⟩ := henters node hnode hnull
    exact ⟨key, hkey, hkept _ hentry⟩
  rcases after.close_cases kind start stop label nodes with
    ⟨hnull, hclose⟩ | ⟨key, hkey, hfresh, hclose⟩ | ⟨fault, hclose⟩
  · rw [hclose]
    refine ⟨by simpa using h.close [] (.inl rfl), .inl ⟨rfl, ?_⟩⟩
    exact hbelow _ (fun _ hentry => hentry) (by simp [hnull])
  · rw [hclose]
    refine ⟨h.close _ (.inr ⟨key, hkey, hfresh, rfl⟩), .inl ⟨rfl, ?_⟩⟩
    exact hbelow _ (fun _ hentry => List.mem_append_left _ hentry)
      (fun _ => ⟨key, hkey, by simp⟩)
  · rw [hclose]
    exact ⟨by simpa using h.close [] (.inl rfl), .inr ⟨fault, rfl⟩⟩

end Registry

/-- The nodes that are complete when building ends, with or without success. -/
def completed : Except Abandonment (List Node × Nat) → List Node
  | .ok (nodes, _) => nodes
  | .error abandonment => abandonment.fragments

namespace Part

/-- Building keeps the nodes for which it spends ids, and a part that is built
has all its labels entered. -/
def Accounted (registry : Registry)
    (result : Registry × Except Abandonment (List Node × Nat)) : Prop :=
  registry.Extends result.1 (completed result.2) ∧
    ∀ nodes stop, result.2 = .ok (nodes, stop) → result.1.Enters nodes

theorem accounted_close {registry after : Registry} {children : List Node}
    (h : registry.Extends after children) (henters : after.Enters children)
    (kind : NodeKind) (start stop : Nat) (label : Datum) :
    Accounted registry (match after.close kind start stop label children with
      | (registry, .ok closed) => (registry, .ok ([closed], stop))
      | (registry, .error abandonment) => (registry, .error abandonment)) := by
  obtain ⟨hextends, ⟨hok, hentered⟩ | ⟨fault, herror⟩⟩ :=
    Registry.close_spec h kind start stop label
  all_goals
    generalize after.close kind start stop label children = closed at *
    obtain ⟨last, result⟩ := closed
  · subst hok
    refine ⟨hextends, ?_⟩
    rintro nodes _ hnodes
    cases hnodes
    exact hentered henters
  · subst herror
    exact ⟨hextends, by simp⟩

theorem accounted_error (registry : Registry) (fault : Fault) :
    Accounted registry (registry, .error ⟨fault, []⟩) :=
  ⟨.refl registry, by simp⟩

theorem enters_nil (registry : Registry) : registry.Enters [] := by
  simp [Registry.Enters, Node.walkAll]

mutual

private theorem build_accounted : ∀ (part : Part) (registry : Registry) (start : Nat),
    Accounted registry (part.build registry start)
  | .trivia text, registry, start => by
      refine ⟨.refl registry, ?_⟩
      rintro nodes stop h
      cases h
      exact enters_nil registry
  | .node kind (some text) parts label, registry, start => by
      rw [build]
      split
      · exact accounted_close (.refl registry) (enters_nil registry) _ _ _ _
      · exact accounted_error registry _
  | .foreign kind content parts label, registry, start => by
      rw [build]
      split
      · split
        · exact accounted_error registry _
        · exact accounted_close (.refl registry) (enters_nil registry) _ _ _ _
      · exact accounted_error registry _
  | .node kind none parts label, registry, start => by
      have hparts := buildAll_accounted parts registry start
      rw [build]
      generalize buildAll registry start parts = built at hparts
      obtain ⟨after, abandonment | ⟨children, stop⟩⟩ := built
      · exact ⟨hparts.1, by simp⟩
      · exact accounted_close hparts.1 (hparts.2 _ _ rfl) _ _ _ _

theorem buildAll_accounted : ∀ (parts : List Part) (registry : Registry) (start : Nat),
    Accounted registry (buildAll registry start parts)
  | [], registry, start => by
      refine ⟨.refl registry, ?_⟩
      rintro nodes stop h
      cases h
      exact enters_nil registry
  | part :: rest, registry, start => by
      have hpart := build_accounted part registry start
      rw [buildAll]
      generalize build registry start part = built at hpart
      obtain ⟨middle, abandonment | ⟨nodes, next⟩⟩ := built
      · exact ⟨hpart.1, by simp⟩
      · have hrest := buildAll_accounted rest middle next
        dsimp only
        generalize buildAll middle next rest = built at hrest
        obtain ⟨last, abandonment | ⟨others, stop⟩⟩ := built
        · exact ⟨hpart.1.append hrest.1, by simp⟩
        · refine ⟨hpart.1.append hrest.1, ?_⟩
          rintro _ _ h
          cases h
          simp only [Registry.Enters, Node.walkAll_append, List.forall_mem_append]
          refine ⟨fun node hnode hnull => ?_, hrest.2 _ _ rfl⟩
          obtain ⟨key, hkey, hentry⟩ := hpart.2 _ _ rfl node hnode hnull
          exact ⟨key, hkey, hrest.1.kept _ hentry⟩

end

/-! ## Drawing parts -/

theorem close_ok {registry after : Registry} {kind : NodeKind} {start stop : Nat}
    {label : Datum} {children : List Node} {closed : Node}
    (h : registry.close kind start stop label children = (after, .ok closed)) :
    closed = .mk kind start stop registry.next label children := by
  rcases registry.close_cases kind start stop label children with
    ⟨-, hclose⟩ | ⟨_, -, -, hclose⟩ | ⟨_, hclose⟩
  all_goals
    rw [hclose] at h
    cases h
  · rfl
  · rfl

mutual

theorem build_drawn : ∀ (part : Part) (before rest : Text) {registry after : Registry}
    {start stop : Nat} {nodes : List Node}, part.foreignContent? = none →
    before.length = start → part.build registry start = (after, .ok (nodes, stop)) →
    stop = start + part.text.length ∧
      Drawn (before ++ part.text ++ rest) start stop [part] nodes
  | .trivia _, _, _, _, _, _, _, _, _, _, h => by
      cases h
      exact ⟨rfl, .trivia .nil, by simp, by simp, by simp⟩
  | .node kind (some text) parts label, before, rest, _, _, start, _, _, _, hstart, h => by
      rw [build] at h
      split at h
      · rename_i hempty
        obtain rfl := List.isEmpty_iff.mp hempty
        split at h
        · rename_i hclose
          cases h
          obtain rfl := close_ok hclose
          have hlength : start + text.length ≤ (before ++ text ++ rest).length := by
            simp [hstart]
          refine ⟨rfl, .single (.leaf (Text.slice_append hstart)) ?_ rfl rfl⟩
          exact (Drawn.empty _ _ _).closed (by omega) hlength _ _ _
        · cases h
      · cases h
  | .foreign _ _ _ _, _, _, _, _, _, _, _, hforeign, _, _ => by cases hforeign
  | .node kind none parts label, before, rest, _, _, start, _, _, hforeign, hstart, h => by
      rw [build] at h
      split at h
      · cases h
      · rename_i hchildren
        split at h
        · rename_i hclose
          cases h
          obtain rfl := close_ok hclose
          obtain ⟨rfl, hdrawn⟩ := buildAll_drawn parts before rest hforeign hstart hchildren
          have hlength : start + (textAll parts).length ≤
              (before ++ textAll parts ++ rest).length := by
            simp [hstart]
          refine ⟨rfl, .single (.branch ?_ hdrawn.depicts) ?_ rfl rfl⟩
          · rw [flatten_piecesAll]
            exact Text.slice_append hstart
          · exact hdrawn.closed (by omega) hlength _ _ _
        · cases h

theorem buildAll_drawn : ∀ (parts : List Part) (before rest : Text)
    {registry after : Registry} {start stop : Nat} {nodes : List Node},
    foreignAmong? parts = none → before.length = start →
    buildAll registry start parts = (after, .ok (nodes, stop)) →
    stop = start + (textAll parts).length ∧
      Drawn (before ++ textAll parts ++ rest) start stop parts nodes
  | [], _, _, _, _, _, _, _, _, _, h => by
      cases h
      exact ⟨rfl, .nil, by simp, by simp, by simp⟩
  | part :: parts, before, rest, _, _, start, _, _, hforeign, hstart, h => by
      rw [foreignAmong?, Option.or_eq_none_iff] at hforeign
      rw [buildAll] at h
      split at h
      · cases h
      · rename_i hpart
        split at h
        · rename_i hparts
          cases h
          obtain ⟨rfl, hfirst⟩ :=
            build_drawn part before (textAll parts ++ rest) hforeign.1 hstart hpart
          obtain ⟨rfl, hrest⟩ := buildAll_drawn parts (before ++ part.text) rest hforeign.2
            (by simp [hstart]) hparts
          simp only [textAll, List.append_assoc] at hfirst hrest ⊢
          refine ⟨by simp; omega, ?_⟩
          exact hfirst.append hrest (by omega) (by omega)
        · cases h

end

end Part

end ApiSurface
