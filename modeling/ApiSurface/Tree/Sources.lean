import ApiSurface.Datum.Access
import ApiSurface.Tree.Node

/-!
# Building source files

A file is described by parts: trivia and nodes, where a node has either a text or
parts of its own.  The text of the file is the concatenation of its pieces.  Ids are
given to nodes when they are complete, so children come before their parents, and
run on over all files.  A file whose description is faulty is not added, yet the ids
and labels used up to the fault stay used, and the subtrees completed so far can
still be looked up by label.

The text of a node may be given as something else.  If that has a length, the node
is built all the same, and only when the pieces of the file are put together does
the fault show.
-/

namespace ApiSurface

inductive Part where
  | trivia (text : Text)
  | node (kind : NodeKind) (text : Option Text) (parts : List Part) (label : Datum)
  | foreign (kind : NodeKind) (content : Datum) (parts : List Part) (label : Datum)

namespace Part

mutual

def text : Part → Text
  | .trivia text => text
  | .node _ (some text) _ _ => text
  | .node _ none parts _ => textAll parts
  | .foreign _ _ _ _ => []

def textAll : List Part → Text
  | [] => []
  | part :: rest => text part ++ textAll rest

end

mutual

def foreignContent? : Part → Option Datum
  | .trivia _ => none
  | .node _ _ parts _ => foreignAmong? parts
  | .foreign _ content _ _ => some content

def foreignAmong? : List Part → Option Datum
  | [] => none
  | part :: rest => (foreignContent? part).or (foreignAmong? rest)

end

end Part

structure Registry where
  next : Nat
  labels : List (Key × Nat)

structure Abandonment where
  fault : Fault
  fragments : List Node

namespace Registry

def close (registry : Registry) (kind : NodeKind) (start stop : Nat) (label : Datum)
    (children : List Node) : Registry × Except Abandonment Node :=
  let node : Node := .mk kind start stop registry.next label children
  let used := { registry with next := registry.next + 1 }
  if label.isNull then (used, .ok node)
  else
    match label.key? with
    | none => (used, .error ⟨.noKey label, [node]⟩)
    | some key =>
        if (registry.labels.lookup key).isSome then
          (used, .error ⟨.problem (.duplicateLabel label), [node]⟩)
        else
          ({ used with labels := registry.labels ++ [(key, registry.next)] },
            .ok node)

end Registry

mutual

/-- Builds one part at an offset; trivia gives no node.  Also answers the offset
after the part. -/
def Part.build (registry : Registry) (start : Nat) :
    Part → Registry × Except Abandonment (List Node × Nat)
  | .trivia text => (registry, .ok ([], start + text.length))
  | .node kind (some text) parts label =>
      if parts.isEmpty then
        match registry.close kind start (start + text.length) label [] with
        | (registry, .ok leaf) => (registry, .ok ([leaf], start + text.length))
        | (registry, .error abandonment) => (registry, .error abandonment)
      else (registry, .error ⟨.problem (.textAndChildren kind), []⟩)
  | .foreign kind content parts label =>
      if parts.isEmpty then
        match content.size with
        | .error fault => (registry, .error ⟨fault, []⟩)
        | .ok length =>
            match registry.close kind start (start + length) label [] with
            | (registry, .ok leaf) => (registry, .ok ([leaf], start + length))
            | (registry, .error abandonment) => (registry, .error abandonment)
      else (registry, .error ⟨.problem (.textAndChildren kind), []⟩)
  | .node kind none parts label =>
      match Part.buildAll registry start parts with
      | (registry, .error abandonment) => (registry, .error abandonment)
      | (registry, .ok (children, stop)) =>
          match registry.close kind start stop label children with
          | (registry, .ok branch) => (registry, .ok ([branch], stop))
          | (registry, .error abandonment) => (registry, .error abandonment)

def Part.buildAll (registry : Registry) (start : Nat) :
    List Part → Registry × Except Abandonment (List Node × Nat)
  | [] => (registry, .ok ([], start))
  | part :: rest =>
      match Part.build registry start part with
      | (registry, .error abandonment) => (registry, .error abandonment)
      | (registry, .ok (nodes, next)) =>
          match Part.buildAll registry next rest with
          | (registry, .ok (others, stop)) =>
            (registry, .ok (nodes ++ others, stop))
          | (registry, .error abandonment) =>
              (registry, .error { abandonment with
                fragments := nodes ++ abandonment.fragments })

end

structure Sources where
  registry : Registry := ⟨1, []⟩
  files : List SourceFile := []
  abandoned : List SourceFile := []

namespace Sources

def abandon (sources : Sources) (path : Datum) (registry : Registry)
    (abandonment : Abandonment) : Sources :=
  { sources with
    registry := registry
    abandoned :=
      sources.abandoned ++ abandonment.fragments.map fun node => ⟨path, [], node⟩ }

def build (sources : Sources) (path : Datum) (parts : List Part) :
    Sources × Except Fault SourceFile :=
  match Part.buildAll sources.registry 0 parts with
  | (registry, .error abandonment) =>
      (sources.abandon path registry abandonment, .error abandonment.fault)
  | (registry, .ok (children, stop)) =>
      match registry.close .sourceFile 0 stop .null children with
      | (registry, .error abandonment) =>
          (sources.abandon path registry abandonment, .error abandonment.fault)
      | (registry, .ok root) =>
          match Part.foreignAmong? parts with
          | some content =>
              (sources.abandon path registry ⟨.notJoinable content, [root]⟩,
                .error (.notJoinable content))
          | none =>
              let file : SourceFile := ⟨path, Part.textAll parts, root⟩
              ({ sources with registry, files := sources.files ++ [file] }, .ok file)

def siteOf? (sources : Sources) (key : Key) : Option Site := do
  let id ← sources.registry.labels.lookup key
  (sources.files ++ sources.abandoned).findSome? (·.site? id)

def site (sources : Sources) (label : Datum) : Except Fault Site := do
  match sources.siteOf? (← label.key) with
  | some site => pure site
  | none => throw (.problem (.unknownLabel label))

end Sources

end ApiSurface
