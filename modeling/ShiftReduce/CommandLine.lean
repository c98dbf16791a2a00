import ShiftReduce.Calculator.Evaluate
import ShiftReduce.Listing

namespace ShiftReduce.CommandLine

structure Options where
  input : Option String := none
  stats : Bool := false
  maxDepth : Option Nat := none
deriving DecidableEq

inductive Command
  | evaluate (o : Options)
  | tables
  | version
deriving DecidableEq

inductive Flag
  | stats
  | input (attached : Option String)
  | maxDepth (attached : Option String)
deriving DecidableEq

def behind? : List Char → List Char → Option (List Char)
  | [], text => some text
  | _ :: _, [] => none
  | a :: head, b :: text => if a = b then behind? head text else none

/-- What follows a flag's name in its own argument: nothing, or a value behind `=`. A flag of
one letter takes a value without `=` too. -/
def attached? (name : String) (short : Bool) (arg : String) : Option (Option String) :=
  match behind? name.toList arg.toList with
  | none => none
  | some [] => some none
  | some ('=' :: value) => some (some (String.ofList value))
  | some value => if short then some (some (String.ofList value)) else none

def Flag.ofArg? (arg : String) : Option Flag :=
  if arg = "--stats" then some .stats
  else (attached? "--input" false arg).map .input
    <|> (attached? "--max-depth" false arg).map .maxDepth
    <|> (attached? "-i" true arg).map .input

/-- A decimal number of at most 64 bits, maybe after a plus sign. -/
def natural? (text : String) : Option Nat :=
  let digits := match text.toList with
    | '+' :: rest => rest
    | all => all
  if digits.isEmpty || !digits.all Char.isDigit then none
  else
    let n := Calculator.Lexer.numeral digits
    if n < UInt64.size then some n else none

namespace Options

/-- No flag may be given twice, and a path is not empty. -/
def setInput (o : Options) (path : String) : Option Options :=
  if o.input.isSome || path.isEmpty then none else some { o with input := path }

def setMaxDepth (o : Options) (text : String) : Option Options :=
  match o.maxDepth, natural? text with
  | none, some n => some { o with maxDepth := n }
  | _, _ => none

def setStats (o : Options) : Option Options :=
  if o.stats then none else some { o with stats := true }

/-- An argument of its own can be a value unless it looks like a flag; a lone dash does not. -/
def isValue (arg : String) : Bool := arg = "-" || arg.toList.head? != some '-'

def read (o : Options) : List String → Option Options
  | [] => some o
  | arg :: rest =>
    if arg = "--" && rest.isEmpty then some o
    else match Flag.ofArg? arg, rest with
      | none, _ => none
      | some .stats, rest => o.setStats.bind (read · rest)
      | some (.input (some path)), rest => (o.setInput path).bind (read · rest)
      | some (.maxDepth (some text)), rest => (o.setMaxDepth text).bind (read · rest)
      | some (.input none), value :: rest =>
        if isValue value then (o.setInput value).bind (read · rest) else none
      | some (.maxDepth none), value :: rest =>
        if isValue value then (o.setMaxDepth value).bind (read · rest) else none
      | some _, [] => none

end Options

/-- Asking for the version settles what to do, whatever follows. -/
def asksVersion (arg : String) : Bool :=
  arg = "--version" || (behind? "-V".toList arg.toList).isSome

def Command.ofArgs? : List String → Option Command
  | [] => none
  | "parse" :: rest => (Options.read {} rest).map .evaluate
  | "tables" :: rest => if rest = [] ∨ rest = ["--"] then some .tables else none
  | arg :: _ => if asksVersion arg then some .version else none

inductive Source
  | standardInput
  | file (path : String)
deriving DecidableEq

def Source.label : Source → String
  | standardInput => "standard input"
  | file path => path

def Options.source (o : Options) : Source :=
  match o.input with
  | some path => .file path
  | none => .standardInput

def Command.source? : Command → Option Source
  | evaluate o => some o.source
  | tables | version => none

inductive ReadFailure
  | missing
  | forbidden
  | directory
  | notDirectory
  | nameTooLong
  | malformed
  | other (cause : String)
deriving DecidableEq

def ReadFailure.message : ReadFailure → String
  | missing => "No such file or directory (os error 2)"
  | forbidden => "Permission denied (os error 13)"
  | directory => "Is a directory (os error 21)"
  | notDirectory => "Not a directory (os error 20)"
  | nameTooLong => "File name too long (os error 36)"
  | malformed => "stream did not contain valid UTF-8"
  | other cause => cause

structure Exit where
  code : UInt32
  stdout : String := ""
  stderr : String := ""

def versionText : String := "lrdrive-calc 0.1.0"

def usage : Exit where
  code := 2
  stderr := "usage: parse [-i FILE] [--stats] [--max-depth N] | tables\n"

def unreadable (s : Source) (f : ReadFailure) : Exit where
  code := 1
  stderr := s!"Error: can't read {s.label}\n\nCaused by:\n    {f.message}\n"

def statementLine (s : Calculator.Statement) : String :=
  match s.value with
  | some n => s!"{s.span.render}: {n.toInt}\n"
  | none => s!"{s.span.render}: skipped\n"

def outcomeLines : Calculator.Outcome → List String
  | .finished => []
  | .stopped e => [s!"fatal: {e.message}\n"]
  | .faulted f => [s!"fatal: {f.message Calculator.ActionFault.message}\n"]
  | .exhausted => ["fatal: out of steps\n"]

def report (stats : Bool) (e : Calculator.Evaluation) : Exit where
  code := if e.isClean then 0 else 1
  stdout := String.join (e.statements.map statementLine)
  stderr := String.join (
    e.diagnostics.map (fun d => s!"error: {d.render}\n")
      ++ e.errors.map (fun x => s!"error: {x.message}\n")
      ++ outcomeLines e.outcome
      ++ if stats then
        (e.stats.renderLines ++ "\n")
          :: e.bindings.entries.map fun p => s!"{p.1} = {p.2.toInt}\n"
      else [])

def Command.run (content : Except ReadFailure ByteArray) : Command → Exit
  | tables => { code := 0, stdout := Calculator.tables.listing }
  | version => { code := 0, stdout := s!"{versionText}\n" }
  | evaluate o =>
    match content with
    | .error f => unreadable o.source f
    | .ok bytes =>
      match String.fromUTF8? bytes with
      | none => unreadable o.source .malformed
      | some text =>
        report o.stats (Calculator.evaluate (o.maxDepth.getD defaultMaxDepth) text .empty)

end ShiftReduce.CommandLine
