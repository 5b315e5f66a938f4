import ApiSurface.Datum.Access
import ApiSurface.Overlay.Foreign

/-!
# Stubs

A preapproved class, interface, enumeration or namespace is written as one line: its
keyword and name, and a remark in place of its body.
-/

namespace ApiSurface.Emit

def stubBody : Text := " \x7b /* (preapproved) */ \x7d".toList

/-- What happens to one child: modifier lists, comments and everything after the
name are left out, the modifiers go in front of the keyword, and every name is
followed by the remark. -/
def stubChild (modifiers : Text) (path : Path) (afterName : Bool) (child : Span) :
    Changes :=
  (if afterName || child.kind = .syntaxList ||
    child.kind = .docComment then [(path, Change.skip)]
    else if !modifiers.isEmpty && child.kind.isDeclarationKeyword then
      [(path, Change.prepend modifiers child)]
    else []) ++
  if child.kind = .identifier then
    [(path, Change.omitSeparator), (path, Change.setTail stubBody)]
  else []

def stubChildren (modifiers : Text) (parent : Path) :
    Nat → Bool → List Span → Changes
  | _, _, [] => []
  | index, afterName, child :: rest =>
      stubChild modifiers (parent ++ [index]) afterName child ++
        stubChildren modifiers parent (index + 1)
          (afterName || child.kind = .identifier) rest

def stub (modifiers : Text) (path : Path) (span : Span) : Changes :=
  stubChildren modifiers path 0 false span.children

private def stubGivenChildren (modifiers : Datum) (edits : Edits) (flaws : Flaws)
    (parent : Path) : Nat → Bool → List Span → Changes × Option Fault
  | _, _, [] => ([], none)
  | index, afterName, child :: rest =>
      let path := parent ++ [index]
      let (others, fault) :=
        stubGivenChildren modifiers edits flaws parent (index + 1)
          (afterName || child.kind = .identifier) rest
      if !afterName && modifiers.present && child.kind.isDeclarationKeyword then
        match (edits path).writtenLead (flaws path) child >>= modifiers.plus with
        | .ok lead => ((path, Change.giveLead lead) :: others, fault)
        | .error fault => ([], some fault)
      else (stubChild [] path afterName child ++ others, fault)

def stubGiven (modifiers : Datum) (edits : Edits) (flaws : Flaws) (path : Path)
    (span : Span) : Changes × Option Fault :=
  stubGivenChildren modifiers edits flaws path 0 false span.children

end ApiSurface.Emit
