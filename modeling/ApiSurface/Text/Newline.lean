import ApiSurface.Text.Basic

/-!
# Line endings of written files

Generated documents use line feeds.  Before a document is written, carriage returns
in front of a line feed are dropped and the chosen line end takes the place of every
line feed.  One of the kinds to choose from is the line end of the system.
-/

namespace ApiSurface

inductive LineEnd where
  | lf
  | crlf
  deriving DecidableEq, Repr

def LineEnd.text : LineEnd → Text
  | .lf => ['\n']
  | .crlf => ['\r', '\n']

inductive NewlineKind where
  | lf
  | crlf
  | os
  deriving DecidableEq, Repr

namespace NewlineKind

def name : NewlineKind → String
  | .lf => "lf"
  | .crlf => "crlf"
  | .os => "os"

def all : List NewlineKind := [.lf, .crlf, .os]

def ofName? (name : String) : Option NewlineKind :=
  all.find? fun kind => kind.name = name

def ending (native : LineEnd) : NewlineKind → LineEnd
  | .lf => .lf
  | .crlf => .crlf
  | .os => native

end NewlineKind

namespace Text

def normalizeNewlines : Text → Text
  | [] => []
  | '\r' :: '\n' :: rest => '\n' :: normalizeNewlines rest
  | character :: rest => character :: normalizeNewlines rest

def unifyNewlines : Text → Text
  | [] => []
  | '\r' :: '\n' :: rest => '\n' :: unifyNewlines rest
  | character :: rest =>
    (if character = '\r' then '\n' else character) :: unifyNewlines rest

def expandNewlines (ending : Text) (text : Text) : Text :=
  text.flatMap fun character => if character = '\n' then ending else [character]

def convertNewlines (ending : LineEnd) (text : Text) : Text :=
  expandNewlines ending.text (normalizeNewlines text)

end Text

end ApiSurface
