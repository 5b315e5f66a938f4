import ApiSurface.Overlay.Foreign
import ApiSurface.Surface.Basic

/-!
# Walking through spans

While the spans of a declaration are revised, a trail says where the walk stands:
the address of the span, its neighbours, and the spans above it.
-/

namespace ApiSurface.Emit

structure Frame where
  path : Path
  span : Span
  next : Option Span

structure Trail where
  path : Path := []
  previous : Option Span := none
  next : Option Span := none
  above : List Frame := []

namespace Trail

def child (trail : Trail) (span : Span) (index : Nat)
    (previous next : Option Span) : Trail :=
  { path := trail.path ++ [index]
    previous := previous
    next := next
    above := ⟨trail.path, span, trail.next⟩ :: trail.above }

def find? (trail : Trail) (kind : NodeKind) : Option Frame :=
  trail.above.find? (·.span.kind = kind)

def parent? (trail : Trail) : Option Span := trail.above.head?.map Frame.span

end Trail

def sibling (path : Path) (move : Nat → Nat) : Path :=
  match path.getLast? with
  | some index => path.dropLast ++ [move index]
  | none => path

/-- Writes modifiers before a declaration keyword: in front of the list of the
remaining modifiers if there is one, and otherwise in front of the keyword itself. -/
def writeModifiers (modifiers : Text) (trail : Trail) (span : Span) : Changes :=
  match trail.previous with
  | some list =>
      if list.kind = .syntaxList then
        [(sibling trail.path Nat.pred, Change.prepend modifiers list)]
      else [(trail.path, Change.prepend modifiers span)]
  | none => [(trail.path, Change.prepend modifiers span)]

def renameIdentifier (surface : Surface) (path : Path) (node : Node) :
    Except Fault Changes := do
  match ← surface.entityForNode node with
  | none => pure []
  | some entity => pure [(path, Change.giveLead (← Surface.writtenName entity))]

def checkPieces (span : Span) (changes : Changes) : Except Fault Unit :=
  match span.joinFault? changes.edits with
  | some fault => .error fault
  | none => .ok ()

def variableList (site : Site) : Except Fault (Site × Text) :=
  match site.climb? [.variableDeclarationList, .variableDeclaration] with
  | none => .error (.defect .unsupportedVariable)
  | some list =>
      let first :=
        ((list.node.findChild? .variableDeclaration).map Node.start).getD
          list.node.start
      .ok (list, Text.slice site.file.text list.node.start first)

end ApiSurface.Emit
