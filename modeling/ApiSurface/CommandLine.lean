import ApiSurface.Text.Digit
import ApiSurface.Text.Newline
import ApiSurface.Text.Quoted

/-!
# The command line

Words that start with a dash are switches.  A long switch may be shortened as long
as only one switch fits, and takes its value from the next word or after an equals
sign.  Short switches may share one word; a value may follow its switch in the same
word, and what follows a short switch without a value, also after an equals sign,
are more short switches.  After a double dash there are no switches.
-/

namespace ApiSurface

inductive Switch where
  | help
  | input
  | config
  | projectFolder
  | localBuild
  | report
  | noReport
  | rollup
  | noRollup
  | trimmingComments
  | newline
  | entityTable
  | failOnChange
  | verbose
  | quiet
  | noColor
  | printSummary
  deriving DecidableEq, Repr

namespace Switch

def all : List Switch :=
  [.help, .input, .config, .projectFolder, .localBuild, .report, .noReport, .rollup,
    .noRollup, .trimmingComments, .newline, .entityTable, .failOnChange, .verbose,
    .quiet, .noColor, .printSummary]

def spellings : Switch → List String
  | .help => ["-h", "--help"]
  | .input => ["-i", "--input"]
  | .config => ["-c", "--config"]
  | .projectFolder => ["--project-folder"]
  | .localBuild => ["-l", "--local"]
  | .report => ["--report"]
  | .noReport => ["--no-report"]
  | .rollup => ["--rollup"]
  | .noRollup => ["--no-rollup"]
  | .trimmingComments => ["--trimming-comments"]
  | .newline => ["--newline"]
  | .entityTable => ["--entity-table"]
  | .failOnChange => ["--fail-on-change"]
  | .verbose => ["-v", "--verbose"]
  | .quiet => ["-q", "--quiet"]
  | .noColor => ["--no-color"]
  | .printSummary => ["--print-summary"]

def takesValue : Switch → Bool
  | .input | .config | .projectFolder | .newline | .entityTable => true
  | _ => false

def shown (switch : Switch) : String := "/".intercalate switch.spellings

def table : List (Text × Switch) :=
  all.flatMap fun switch =>
    switch.spellings.map fun spelling => (spelling.toList, switch)

private def ofSpelling? (spelling : Text) : Option Switch := table.lookup spelling

end Switch

inductive Interruption where
  | help
  | ambiguous (word : String) (candidates : List String)
  | ignoredArgument (switch : Switch) (value : String)
  | expectedArgument (switch : Switch)
  | invalidChoice (switch : Switch) (value : String)
  | notAllowedWith (switch other : Switch)
  | missingInput
  | unrecognized (words : List String)
  deriving DecidableEq, Repr

namespace Interruption

def argument (switch : Switch) (complaint : String) : String :=
  "argument " ++ switch.shown ++ ": " ++ complaint

def message : Interruption → String
  | .help => ""
  | .ambiguous word candidates =>
      "ambiguous option: " ++ word ++ " could match " ++ ", ".intercalate candidates
  | .ignoredArgument switch value =>
    argument switch ("ignored explicit argument " ++ Text.quoted value)
  | .expectedArgument switch => argument switch "expected one argument"
  | .invalidChoice switch value =>
      argument switch
        ("invalid choice: " ++ Text.quoted value ++ " (choose from " ++
        ", ".intercalate (NewlineKind.all.map fun kind => Text.quoted kind.name) ++
          ")")
  | .notAllowedWith switch other =>
    argument switch ("not allowed with argument " ++ other.shown)
  | .missingInput => "the following arguments are required: " ++ Switch.shown .input
  | .unrecognized words => "unrecognized arguments: " ++ " ".intercalate words

end Interruption

/-! ## Words -/

inductive Word where
  | argument (text : String)
  | divider
  | unknown (text : String)
  | known (switch : Switch) (short : Bool) (attached : Option Text)
  deriving DecidableEq, Repr

namespace Word

private def isShort (spelling : Text) : Bool := (spelling.drop 1).head? ≠ some '-'

private def splitAtEquals (word : Text) : Text × Option Text :=
  match word.dropWhile (· ≠ '=') with
  | [] => (word, none)
  | _ :: value => (word.takeWhile (· ≠ '='), some value)

def candidates (word : Text) : List (Text × Switch × Option Text) :=
  if isShort word then
    Switch.table.filterMap fun (spelling, switch) =>
      if spelling = word.take 2 then some (spelling, switch, some (word.drop 2))
      else if word.isPrefixOf spelling then some (spelling, switch, none)
      else none
  else
    let (start, attached) := splitAtEquals word
    Switch.table.filterMap fun (spelling, switch) =>
      if start.isPrefixOf spelling then some (spelling, switch, attached) else none

/-- A dash followed by a decimal number in the digits of any script; a line feed may
end the word. -/
private def isNegativeNumber (word : Text) : Bool :=
  match if word.getLast? = some '\n' then word.dropLast else word with
  | '-' :: digits =>
      let whole := digits.takeWhile Text.isDecimal
      match digits.dropWhile Text.isDecimal with
      | [] => !whole.isEmpty
      | '.' :: fraction => !fraction.isEmpty && fraction.all Text.isDecimal
      | _ => false
  | _ => false

private def ofCandidates (word : Text) : Except Interruption Word :=
  match candidates word with
  | [(spelling, switch, attached)] =>
    .ok (.known switch (isShort spelling) attached)
  | [] =>
      if isNegativeNumber word || word.contains ' ' then
        .ok (.argument (String.ofList word))
      else .ok (.unknown (String.ofList word))
  | several =>
    .error
      (.ambiguous (String.ofList word) (several.map fun candidate =>
        String.ofList candidate.1))

def ofText (word : Text) : Except Interruption Word :=
  match word with
  | '-' :: _ :: _ =>
      match Switch.ofSpelling? word with
      | some switch => .ok (.known switch (isShort word) none)
      | none =>
          let (start, attached) := splitAtEquals word
          match attached, Switch.ofSpelling? start with
          | some attached, some switch =>
            .ok (.known switch (isShort start) (some attached))
          | _, _ => ofCandidates word
  | other => .ok (.argument (String.ofList other))

private def ofStrings : List String → Except Interruption (List Word)
  | [] => .ok []
  | text :: rest =>
      if text = "--" then .ok (.divider :: rest.map .argument)
      else do
        let word ← ofText text.toList
        let words ← ofStrings rest
        pure (word :: words)

end Word

/-! ## Switches in one word -/

/-- The value of a switch.  A double dash that is attached to a switch leaves
nothing behind. -/
inductive Argument where
  | word (text : String)
  | nothing
  deriving DecidableEq, Repr

def Argument.ofText (text : Text) : Argument :=
  if text = ['-', '-'] then .nothing else .word (String.ofList text)

/-- What one word with a switch says: switches with their values, and a last switch
that has nothing attached. -/
structure Cluster where
  uses : List (Switch × Option Argument) := []
  last : Option Switch := none

namespace Cluster

def cons (switch : Switch) (cluster : Cluster) : Cluster :=
  { cluster with uses := (switch, none) :: cluster.uses }

def expand (switch : Switch) (short : Bool) : Text → Except Interruption Cluster
  | [] =>
      if switch.takesValue then .ok { uses := [(switch, some (.word ""))] }
      else .error (.ignoredArgument switch "")
  | first :: rest =>
      if switch.takesValue then
        .ok { uses := [(switch, some (Argument.ofText (first :: rest)))] }
      else
        match if short then Switch.ofSpelling? ['-', first] else none, rest with
        | none, _ =>
          .error (.ignoredArgument switch (String.ofList (first :: rest)))
        | some next, [] => .ok { uses := [(switch, none)], last := some next }
        | some next, second :: others =>
          (expand next true (second :: others)).map (cons switch)

def of (switch : Switch) (short : Bool) : Option Text → Except Interruption Cluster
  | some attached => expand switch short attached
  | none => .ok { last := some switch }

end Cluster

/-! ## Options -/

structure Options where
  input : Argument := .nothing
  config : Option Argument := none
  projectFolder : Argument := .word "."
  localBuild : Option Bool := none
  report : Option Bool := none
  rollup : Option Bool := none
  omitTrimmingComments : Option Bool := none
  newline : Option Argument := none
  entityTable : Option Argument := none
  failOnChange : Bool := false
  level : Int := 20
  noColor : Bool := false
  printSummary : Bool := false
  deriving DecidableEq, Repr

namespace Options

def set (options : Options) (switch : Switch) (value : Argument) : Options :=
  match switch with
  | .help => options
  | .input => { options with input := value }
  | .config => { options with config := some value }
  | .projectFolder => { options with projectFolder := value }
  | .localBuild => { options with localBuild := some true }
  | .report => { options with report := some true }
  | .noReport => { options with report := some false }
  | .rollup => { options with rollup := some true }
  | .noRollup => { options with rollup := some false }
  | .trimmingComments => { options with omitTrimmingComments := some false }
  | .newline => { options with newline := some value }
  | .entityTable => { options with entityTable := some value }
  | .failOnChange => { options with failOnChange := true }
  | .verbose => { options with level := 10 }
  | .quiet => { options with level := 40 }
  | .noColor => { options with noColor := true }
  | .printSummary => { options with printSummary := true }

end Options

structure Reading where
  options : Options := {}
  used : List Switch := []
  extras : List String := []

namespace Reading

private def addExtra (reading : Reading) (word : String) : Reading :=
  { reading with extras := reading.extras ++ [word] }

private def rival? : Switch → Option Switch
  | .verbose => some .quiet
  | .quiet => some .verbose
  | _ => none

/-- A line ending that cannot be chosen; nothing at all is let through. -/
private def wrongChoice? (switch : Switch) : Argument → Option String
  | .word text => if switch = .newline &&
    (NewlineKind.ofName? text).isNone then some text else none
  | .nothing => none

def use (reading : Reading) (entry : Switch × Option Argument) :
    Except Interruption Reading :=
  let (switch, value) := entry
  let argument := value.getD .nothing
  let rival := (rival? switch).filter reading.used.contains
  match wrongChoice? switch argument, rival with
  | some text, _ => .error (.invalidChoice switch text)
  | none, some other => .error (.notAllowedWith switch other)
  | none, none =>
      if switch = .help then .error .help
      else .ok { reading with
        options := reading.options.set switch argument
        used := switch :: reading.used }

private def useCluster (reading : Reading) (cluster : Cluster)
    (value : Option Argument) : Except Interruption Reading := do
  let last := match cluster.last with
    | some switch => [(switch, value)]
    | none => []
  (cluster.uses ++ last).foldlM use reading

private def readWords (reading : Reading) : List Word → Except Interruption Reading
  | [] => .ok reading
  | .argument text :: rest => readWords (reading.addExtra text) rest
  | .divider :: rest => readWords (reading.addExtra "--") rest
  | .unknown text :: rest => readWords (reading.addExtra text) rest
  | .known switch short attached :: rest => do
      let cluster ← Cluster.of switch short attached
      match cluster.last.filter Switch.takesValue, rest with
      | none, rest => readWords (← reading.useCluster cluster none) rest
      | some _, .argument value :: rest =>
        readWords (← reading.useCluster cluster (some (.word value))) rest
      | some last, _ => throw (.expectedArgument last)

def finish (reading : Reading) : Except Interruption Options :=
  if !reading.used.contains .input then .error .missingInput
  else if !reading.extras.isEmpty then .error (.unrecognized reading.extras)
  else .ok reading.options

end Reading

def Options.parse (arguments : List String) : Except Interruption Options := do
  let words ← Word.ofStrings arguments
  let reading ← Reading.readWords {} words
  reading.finish

end ApiSurface
