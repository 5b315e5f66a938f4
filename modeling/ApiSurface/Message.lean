import ApiSurface.Datum.Access
import ApiSurface.Tree.Node

/-!
# Messages

A message is a finding about the package.  Its id, its text and the names it
mentions are data that are written as they were given, and null stands for nothing.
Message rules, kept as data, give every message id its level and say whether
messages with that id belong into the report; a rule for an id goes before the rule
called `default`.
-/

namespace ApiSurface

inductive LogLevel where
  | error
  | warning
  | info
  | verbose
  | silent
  deriving DecidableEq, Repr

namespace LogLevel

def name : LogLevel → String
  | .error => "error"
  | .warning => "warning"
  | .info => "info"
  | .verbose => "verbose"
  | .silent => "none"

def all : List LogLevel := [.error, .warning, .info, .verbose, .silent]

def ofDatum? : Datum → Option LogLevel
  | .text name => all.find? fun level => level.name = name
  | _ => none

end LogLevel

/-! ## Locations -/

/-- A place in a file.  The number of the file, that of its root, tells apart files
whose paths are equal. -/
structure Location where
  file : Nat := 0
  path : Datum
  line : Nat
  column : Int

/-- Lines and columns count from one; a position below zero is counted back from the
end for its line only. -/
def Location.at (file : Nat) (path : Datum) (text : Text) (position : Int) :
    Location :=
  let offset := text.offset position
  { file := file
    path := path
    line := text.lineFeedsBefore offset + 1
    column := position - text.lineStart offset + 1 }

def Site.location (site : Site) : Location :=
  Location.at site.file.root.id site.file.path site.file.text site.node.start

/-- What has been written onto the paths of files that are given as lists.  Such a
path grows by the characters of every place that is printed after it. -/
abbrev Trails := List (Nat × List Datum)

abbrev Printing := ExceptT Fault (StateM Trails)

namespace Location

def grownPath (trails : Trails) (location : Location) : Datum :=
  match location.path with
  | .list items => .list (items ++ (trails.lookup location.file).getD [])
  | path => path

def place (location : Location) : String :=
  let column := if location.column = 0 then 1 else location.column
  s!":{location.line}:{column}"

def printed (location : Location) : Printing String :=
  match location.path with
  | .text path => pure (path ++ location.place)
  | .list _ => do
      let pieces := location.place.toList.map fun character =>
        Datum.text (String.singleton character)
      let trails ← getThe Trails
      let trails :=
        Entries.insert location.file
          ((trails.lookup location.file).getD [] ++ pieces) trails
      set trails
      pure (location.grownPath trails).shown
  | other =>
    throw
      (.wrongShape
        ("unsupported operand type(s) for +=: '" ++ other.shape ++ "' and 'str'"))

end Location

/-! ## Messages -/

structure Message where
  id : Datum
  text : Datum
  location : Option Location := none
  declaration : Datum := .null
  exportName : Datum := .null
  level : LogLevel := .warning
  addToReport : Bool := true

namespace Message

def withoutLocation (message : Message) : String :=
  s!"({message.id.plain}) {message.text.plain}"

def withLocation (message : Message) : Printing String :=
  match message.location with
  | none => pure message.withoutLocation
  | some location =>
      if location.path.isNull then pure message.withoutLocation
      else do
        let place ← location.printed
        pure (place ++ " - " ++ message.withoutLocation)

def concerns (message : Message) (key : Key) : Bool :=
  !message.declaration.isNull && message.declaration.key? = some key

end Message

structure Issue where
  id : Datum
  text : Datum
  location : Option Location := none
  declaration : Datum := .null
  exportName : Datum := .null

/-! ## Rules -/

def ruleFields (rules id : Datum) : Except Fault (List (Datum × Datum)) := do
  let table ←
    match rules.orElse (.map []) with
    | .map entries => pure entries
    | other => throw (.noOperation other.shape "get")
  let shared ← ((Datum.named? "default" table).getD (.map [])).toEntries
  let key ← id.key
  let specific ← ((Datum.keyed? (some key) table).getD (.map [])).toEntries
  pure (Datum.mergeEntries shared specific)

def ruleFor (rules id : Datum) : Except Fault (LogLevel × Bool) := do
  let fields ← ruleFields rules id
  let level := (Datum.named? "log_level" fields).getD (.text "warning")
  match LogLevel.ofDatum? level with
  | some known =>
    pure (known, ((Datum.named? "add_to_report" fields).getD (.bool true)).present)
  | none => throw (.problem (.invalidLevel level id))

/-! ## The router -/

structure Router where
  rules : Datum := .null
  messages : List Message := []

namespace Router

def judge (router : Router) (issue : Issue) : Except Fault Message := do
  let (level, addToReport) ← ruleFor router.rules issue.id
  pure
    { id := issue.id
      text := issue.text
      location := issue.location
      declaration := issue.declaration
      exportName := issue.exportName
      level := level
      addToReport := addToReport }

def add (router : Router) (message : Message) : Router :=
  { router with messages := router.messages ++ [message] }

/-- Records an issue.  A message whose declaration has no key is recorded, but
belongs nowhere. -/
def take (router : Router) (issue : Issue) : Router × Except Fault Message :=
  match router.judge issue with
  | .error fault => (router, .error fault)
  | .ok message => (router.add message, issue.declaration.key.map fun _ => message)

def forReview (router : Router) (declarations : List Key) : List Message :=
  declarations.flatMap fun key =>
    router.messages.filter fun message =>
      message.concerns key && message.addToReport

def unassociated (router : Router) : List Message :=
  router.messages.filter fun message =>
    message.declaration.isNull && message.addToReport

/-- The messages to be shown on the console: all but the silent ones and those shown
in the report. -/
def forConsole (router : Router) (reportEnabled : Bool) : List Message :=
  router.messages.filter fun message =>
    message.level ≠ .silent && !(reportEnabled && message.addToReport)

end Router

end ApiSurface
