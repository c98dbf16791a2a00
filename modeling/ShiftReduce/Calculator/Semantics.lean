import ShiftReduce.Calculator.Lexer

namespace ShiftReduce.Calculator

abbrev Variables := OrderedMap String Int64

inductive Error
  | tables (e : TableError)
  | parse (e : ParseError)
  | undefined (name : String) (span : Span)
  | overflow (span : Span)
  | divisionByZero (span : Span)
deriving DecidableEq

def Error.message : Error → String
  | tables e => s!"invalid parse tables: {e.message}"
  | parse e => e.message
  | undefined name span => s!"{span.render}: undefined variable `{name}`"
  | overflow span => s!"{span.render}: arithmetic overflow"
  | divisionByZero span => s!"{span.render}: division by zero"

inductive ActionFault
  | unreachable
  | unknownRule (r : RuleId)
  | notNumber (found : Value)
  | index (f : IndexFault)
deriving DecidableEq

def Value.render : Value → String
  | nothing => "None"
  | ident name => s!"Ident({Quoted.render name})"
  | number n => s!"Number({n.toInt})"

def ActionFault.message : ActionFault → String
  | unreachable => "internal error: entered unreachable code"
  | unknownRule r => s!"internal error: entered unreachable code: unknown rule {r.id.toNat}"
  | notNumber found =>
    s!"internal error: entered unreachable code: expected a number, found {found.render}"
  | index f => f.message

/-- A statement of a program; one that was skipped after an error has no value. -/
structure Statement where
  span : Span
  value : Option Int64
deriving DecidableEq

/-- The values of the variables, and what the statements so far have come to, newest first. -/
structure Ledger where
  bindings : Variables := .empty
  statements : List Statement := []
  errors : List Error := []
  fatal : Option Error := none

instance : Inhabited Ledger := ⟨{}⟩

abbrev Answer := Except ActionFault (Reply Ledger Value)

namespace Ledger

def arg (r : Reduction Value Span) (i : Nat) : Except ActionFault Value :=
  (indexed i r.values.length r.values[i]?).mapError .index

def numberArg (r : Reduction Value Span) (i : Nat) : Except ActionFault Int64 := do
  match ← arg r i with
  | .number n => .ok n
  | found => .error (.notNumber found)

def nameArg (r : Reduction Value Span) (i : Nat) : Except ActionFault String := do
  match ← arg r i with
  | .ident name => .ok name
  | _ => .error .unreachable

def statementLog (span : Span) (value : Option Int64) : LogLine :=
  let shown := match value with
    | some n => s!"Some({n.toInt})"
    | none => "None"
  ⟨.debug, s!"statement at {span.render}: {shown}"⟩

/-- Adds a statement; the phrase itself carries `made`. -/
def record (l : Ledger) (span : Span) (value : Option Int64) (made : Value) :
    Reply Ledger Value where
  value := made
  state := { l with statements := ⟨span, value⟩ :: l.statements }
  log := [statementLog span value]

/-- Makes a number of a result in range. Any other one is an overflow, and the statement is given
up as if it had a syntax error. -/
def settle (l : Ledger) (span : Span) (given : Value) : Option Int64 → Reply Ledger Value
  | some n => { value := .number n, state := l }
  | none =>
    { control := .raise
      value := given
      state := { l with errors := .overflow span :: l.errors } }

def pass (l : Ledger) (given : Value) : Answer := .ok { value := given, state := l }

def binary (l : Ledger) (r : Reduction Value Span) (given : Value)
    (op : Int64 → Int64 → Option Int64) : Answer := do
  let a ← numberArg r 0
  let b ← numberArg r 2
  .ok (l.settle r.span given (op a b))

/-- The divisor comes first: if it is zero, nothing else is looked at and the parse is aborted. -/
def divide (l : Ledger) (r : Reduction Value Span) (given : Value) : Answer := do
  let b ← numberArg r 2
  if b = 0 then
    .ok
      { control := .abort
        value := given
        state := { l with fatal := some (.divisionByZero r.span) } }
  else
    let a ← numberArg r 0
    .ok (l.settle r.span given (Checked.div a b))

/-- An undefined variable makes its statement fail as a syntax error would. -/
def resolve (l : Ledger) (r : Reduction Value Span) (given : Value) : Answer := do
  let name ← nameArg r 0
  match l.bindings.get? name with
  | some n => .ok { value := .number n, state := l }
  | none =>
    .ok {
      control := .raise
      value := given
      state := { l with errors := .undefined name r.span :: l.errors } }

def assign (l : Ledger) (r : Reduction Value Span) : Answer := do
  let name ← nameArg r 0
  let n ← numberArg r 2
  let l := { l with bindings := l.bindings.insert name n }
  .ok (l.record r.span (some n) .nothing)

def apply (l : Ledger) (r : Reduction Value Span) (given : Value) : Production → Answer
  | .augmented => .error .unreachable
  | .program | .noStmts | .moreStmts | .exprOfTerm | .termOfFactor | .literal => l.pass given
  | .exprStmt => do
    let n ← numberArg r 0
    .ok (l.record r.span (some n) .nothing)
  | .assignment => l.assign r
  | .errorStmt => .ok (l.record r.span none given)
  | .sum => l.binary r given Checked.add
  | .difference => l.binary r given Checked.sub
  | .product => l.binary r given Checked.mul
  | .quotient => l.divide r given
  | .reference => l.resolve r given
  | .parens => do
    let v ← arg r 1
    .ok { value := v, state := l }
  | .negation => do
    let n ← numberArg r 1
    .ok (l.settle r.span given (Checked.neg n))

def reduce (r : Reduction Value Span) (given : Value) (l : Ledger) : Answer :=
  match Production.ofRule? r.ruleId with
  | some p => l.apply r given p
  | none => .error (.unknownRule r.ruleId)

def actions : Actions Ledger Value Span ActionFault where
  blank := .nothing
  reduce := reduce

end Ledger

end ShiftReduce.Calculator
