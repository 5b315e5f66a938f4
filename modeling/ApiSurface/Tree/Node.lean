import ApiSurface.Fault

/-!
# Syntax trees

A node covers the characters of its file from `start` up to, and without, `stop`;
leading trivia lies outside.  Its label is any datum, where null stands for no
label.  A `Site` is a node together with its file and its ancestors, so that one can
look upwards without trees having to point to their parents.
-/

namespace ApiSurface

inductive Node where
  | mk (kind : NodeKind) (start stop : Int) (id : Nat) (label : Datum)
    (children : List Node)

namespace Node

def kind : Node → NodeKind
  | .mk kind _ _ _ _ _ => kind

def start : Node → Int
  | .mk _ start _ _ _ _ => start

def stop : Node → Int
  | .mk _ _ stop _ _ _ => stop

def id : Node → Nat
  | .mk _ _ _ id _ _ => id

def label : Node → Datum
  | .mk _ _ _ _ label _ => label

def children : Node → List Node
  | .mk _ _ _ _ _ children => children

def shown (node : Node) : String :=
  s!"SyntaxNode({node.kind.name}, {node.start}:{node.stop}, id={node.id})"

def text (source : Text) (node : Node) : Text := source.slice node.start node.stop

def findChild? (kind : NodeKind) (node : Node) : Option Node :=
  node.children.find? (·.kind = kind)

def modifiers (node : Node) : List NodeKind :=
  match node.children with
  | first :: _ => if first.kind = .syntaxList then first.children.map kind else []
  | [] => []

def declaredName (source : Text) (node : Node) : Except Fault String :=
  match node.kind.impliedName? with
  | some name => .ok name
  | none =>
      match (node.findChild? .identifier).or (node.findChild? .literal) with
      | some name => .ok (String.ofList (name.text source))
      | none => .error (.defect (.unnamed node.kind (node.text source)))

mutual

def walk : Node → List Node
  | .mk kind start stop id label children =>
    .mk kind start stop id label children :: walkAll children

def walkAll : List Node → List Node
  | [] => []
  | node :: rest => walk node ++ walkAll rest

end

mutual

/-- The node without the declarations nested in it, parents first. -/
def ownNodes : Node → List Node
  | .mk kind start stop id label children =>
    .mk kind start stop id label children :: ownNodesAll children

def ownNodesAll : List Node → List Node
  | [] => []
  | node :: rest =>
    (if node.kind.isDeclaration then [] else ownNodes node) ++ ownNodesAll rest

end

end Node

structure SourceFile where
  path : Datum
  text : Text
  root : Node

structure Site where
  file : SourceFile
  ancestors : List Node
  node : Node

namespace Site

def text (site : Site) : Text := site.node.text site.file.text

def parent? (site : Site) : Option Node := site.ancestors.head?

private def climbAncestors? (site : Site) : List NodeKind → Option Site
  | [] => some site
  | kind :: above =>
      match site.ancestors with
      | [] => none
      | parent :: rest =>
          if parent.kind = kind then climbAncestors? ⟨site.file, rest, parent⟩ above
          else none

def climb? (site : Site) (kinds : List NodeKind) : Option Site :=
  match kinds.reverse with
  | [] => none
  | own :: above =>
    if own = site.node.kind then site.climbAncestors? above else none

end Site

mutual

def Node.locate? (file : SourceFile) (ancestors : List Node) (id : Nat) :
    Node → Option Site
  | .mk kind start stop own label children =>
      let node : Node := .mk kind start stop own label children
      if own = id then some ⟨file, ancestors, node⟩
      else Node.locateAmong? file (node :: ancestors) id children

def Node.locateAmong? (file : SourceFile) (ancestors : List Node) (id : Nat) :
    List Node → Option Site
  | [] => none
  | node :: rest =>
    (Node.locate? file ancestors id node).or
      (Node.locateAmong? file ancestors id rest)

end

def SourceFile.site? (file : SourceFile) (id : Nat) : Option Site :=
  file.root.locate? file [] id

end ApiSurface
