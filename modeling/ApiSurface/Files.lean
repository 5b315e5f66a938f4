import ApiSurface.Datum.Basic
import ApiSurface.Text.Basic

/-!
# Files

A path is an anchor, empty for relative paths, and components; empty components and
single dots mean nothing.  A place is what a path comes to: the components that lead
there from the root of all files, whatever the anchor looks like.  The files that a
program sees are a table from places to texts, together with the folders that are
there.  A path leads to a place only if every folder on its way is there, also those
that a double dot leaves again; writing a file makes the folders that are missing.
-/

namespace ApiSurface

abbrev Place := List String

namespace Place

def step (place : Place) (component : String) : Place :=
  if component = ".." then place.dropLast else place ++ [component]

def holds (folder place : Place) : Bool :=
  folder.length < place.length && folder.isPrefixOf place

end Place

structure FilePath where
  anchor : String := ""
  components : List String := []
  deriving DecidableEq, Repr

namespace FilePath

/-- Exactly two slashes at the start are shown as they are; three or more are one. -/
private def anchorOf (text : Text) : String :=
  match (text.takeWhile (· = '/')).length with
  | 0 => ""
  | 2 => "//"
  | _ => "/"

def ofText (text : Text) : FilePath :=
  let components := (Text.splitOn '/' text).filter fun component =>
    !component.isEmpty && component ≠ ['.']
  { anchor := anchorOf text, components := components.map String.ofList }

def ofString (text : String) : FilePath := ofText text.toList

def ofPlace (place : Place) : FilePath := { anchor := "/", components := place }

def shown (path : FilePath) : String :=
  if path.anchor.isEmpty && path.components.isEmpty then "."
  else path.anchor ++ "/".intercalate path.components

def join (folder path : FilePath) : FilePath :=
  if path.anchor.isEmpty then
    { folder with components := folder.components ++ path.components }
  else path

def start (path : FilePath) (current : Place) : Place :=
  if path.anchor.isEmpty then current else []

def place (path : FilePath) (current : Place) : Place :=
  path.components.foldl Place.step (path.start current)

end FilePath

/-- Relative paths start at the current folder, which is always there. -/
structure Files where
  texts : List (Place × Text) := []
  folders : List Place := []
  current : Place := []

namespace Files

/-- A folder is there when it was made, or when something lies in it. -/
def isFolder (files : Files) (place : Place) : Bool :=
  place.isPrefixOf files.current || files.folders.contains place ||
    files.folders.any (place.holds ·) || files.texts.any fun entry =>
      place.holds entry.1

def follow? (files : Files) (place : Place) : List String → Option Place
  | [] => some place
  | component :: rest =>
      if files.isFolder place then files.follow? (place.step component) rest
      else none

def locate? (files : Files) (path : FilePath) : Option Place :=
  files.follow? (path.start files.current) path.components

def read? (files : Files) (path : FilePath) : Option Text := do
  let place ← files.locate? path
  files.texts.lookup place

def foldersAlong (place : Place) : List String → List Place
  | [] => []
  | component :: rest =>
      let next := place.step component
      if component = ".." then foldersAlong next rest
      else next :: foldersAlong next rest

def addFolder (files : Files) (place : Place) : Files :=
  if files.isFolder place then files
  else { files with folders := files.folders ++ [place] }

def write (files : Files) (path : FilePath) (text : Text) : Files :=
  let start := path.start files.current
  let made := (foldersAlong start path.components.dropLast).foldl addFolder files
  { made with texts := Entries.insert (path.place files.current) text made.texts }

end Files

end ApiSurface
