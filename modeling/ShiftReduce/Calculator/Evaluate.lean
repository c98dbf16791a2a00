import ShiftReduce.Calculator.Automaton
import ShiftReduce.Calculator.Semantics
import ShiftReduce.Machine.Log
import ShiftReduce.Machine.Run

namespace ShiftReduce.Calculator

inductive Outcome
  | finished
  | stopped (cause : Error)
  | faulted (f : Fault ActionFault)
  | exhausted
deriving DecidableEq

/-- All that a program has come to. Statements, diagnostics and errors stand in the order in
which they came up, the trace holds its newest event first. -/
structure Evaluation where
  statements : List Statement
  diagnostics : List Diagnostic
  errors : List Error
  outcome : Outcome
  stats : Stats
  bindings : Variables
  trace : List (Event Value Span)

def Evaluation.isClean (e : Evaluation) : Bool :=
  e.outcome = .finished && e.diagnostics.isEmpty && e.errors.isEmpty

def Evaluation.values (e : Evaluation) : List (Option Int64) :=
  e.statements.map Statement.value

def machine (maxDepth : Nat) : Machine Lexer Ledger Value Span ActionFault where
  tables
  scanner := Lexer.scanner
  actions := Ledger.actions
  maxDepth

/-- Steps enough for a source of `n` characters: there are at most `n` tokens to shift or to
discard, each shift is followed by three reductions at most, and each error takes two steps. -/
def fuel (n : Nat) : Nat := 8 * n + 8

def Outcome.ofVerdict (fatal : Option Error) : Verdict Value ActionFault → Outcome
  | .accepted _ => .finished
  | .failed .aborted => .stopped (fatal.getD (.parse .aborted))
  | .failed e => .stopped (.parse e)
  | .fault f => .faulted f
  | .exhausted => .exhausted

def evaluate (maxDepth : Nat) (source : String) (bindings : Variables) : Evaluation :=
  let m := machine maxDepth
  let h := m.parse (fuel source.length) (m.init (Lexer.ofString source) { bindings })
  let c := h.config
  { statements := c.actions.statements.reverse
    diagnostics := c.scanner.diagnostics.reverse
    errors := c.actions.errors.reverse
    outcome := .ofVerdict c.actions.fatal h.verdict
    stats := c.stats
    bindings := c.actions.bindings
    trace := c.trace }

def evaluateAll (maxDepth : Nat) : List String → Variables → List Evaluation
  | [], _ => []
  | source :: rest, bindings =>
    let e := evaluate maxDepth source bindings
    e :: evaluateAll maxDepth rest e.bindings

def Evaluation.log (e : Evaluation) : List LogLine := (machine defaultMaxDepth).log e.trace

end ShiftReduce.Calculator
