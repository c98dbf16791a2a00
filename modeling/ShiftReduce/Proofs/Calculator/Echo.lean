import ShiftReduce.Calculator.Evaluate
import ShiftReduce.Proofs.Calculator.Answers
import ShiftReduce.Proofs.Calculator.Seam

namespace ShiftReduce

def Reduction.down {V : Type} (k : Nat) (r : Reduction V Span) : Reduction V Span :=
  { r with spans := r.spans.map (·.down k), span := r.span.down k }

namespace Calculator

def Statement.down (k : Nat) (s : Statement) : Statement := ⟨s.span.down k, s.value⟩

@[simp] theorem Statement.down_zero (s : Statement) : s.down 0 = s := rfl

def Error.down (k : Nat) : Error → Error
  | undefined name span => undefined name (span.down k)
  | overflow span => overflow (span.down k)
  | divisionByZero span => divisionByZero (span.down k)
  | e => e

@[simp] theorem Error.down_zero (e : Error) : e.down 0 = e := by
  cases e <;> rfl

def Outcome.down (k : Nat) : Outcome → Outcome
  | stopped cause => stopped (cause.down k)
  | o => o

/-- How one run is set into another: what it comes to stands so many lines further down, after
what was recorded before it, and there may be another text behind its own, on lines of its own.
Whether the run before was still recovering from an error decides what can be missed. -/
structure Setting where
  lines : Nat := 0
  ledger : Ledger := {}
  diagnostics : List Diagnostic := []
  recovering : Bool := false
  behind : List Char := []
  above : ∀ d ∈ diagnostics, d.span.start.line < lines := by simp
  apart : behind = [] ∨ ∃ q, behind = '\n' :: q := by simp

namespace Setting

variable (w : Setting)

def ledgerOf (l : Ledger) : Ledger where
  bindings := l.bindings
  statements := l.statements.map (·.down w.lines) ++ w.ledger.statements
  errors := l.errors.map (·.down w.lines) ++ w.ledger.errors
  fatal := l.fatal.map (·.down w.lines)

theorem outcome_eq (l : Ledger) {v v' : Verdict Value ActionFault}
    (h : v' = v ∨ ∃ a b, v = .accepted a ∧ v' = .accepted b) :
    Outcome.ofVerdict (w.ledgerOf l).fatal v' = (Outcome.ofVerdict l.fatal v).down w.lines := by
  rcases h with rfl | ⟨a, b, rfl, rfl⟩
  · cases v' with
    | failed e =>
      cases e with
      | aborted =>
        cases hf : l.fatal <;> simp [Outcome.ofVerdict, ledgerOf, hf, Outcome.down, Error.down]
      | _ => rfl
    | _ => rfl
  · rfl

inductive Echoes : Answer → Answer → Prop
  | fault (e : ActionFault) : Echoes (.error e) (.error e)
  | reply {x y : Reply Ledger Value} (control : y.control = x.control) (value : y.value = x.value)
      (state : y.state = w.ledgerOf x.state) : Echoes (.ok x) (.ok y)

variable {w}

theorem Echoes.bind {β : Type} (x : Except ActionFault β) {f g : β → Answer}
    (h : ∀ b, w.Echoes (f b) (g b)) : w.Echoes (x >>= f) (x >>= g) := by
  cases x with
  | error e => exact .fault e
  | ok b => exact h b

section Apply

variable (l : Ledger) (r : Reduction Value Span) (given : Value)

theorem echoes_settle (n : Option Int64) : w.Echoes (.ok (l.settle r.span given n))
    (.ok ((w.ledgerOf l).settle (r.span.down w.lines) given n)) := by
  cases n <;> exact .reply rfl rfl rfl

theorem echoes_record (n : Option Int64) (made : Value) : w.Echoes (.ok (l.record r.span n made))
    (.ok ((w.ledgerOf l).record (r.span.down w.lines) n made)) :=
  .reply rfl rfl rfl

theorem echoes_binary (op : Int64 → Int64 → Option Int64) : w.Echoes (l.binary r given op)
    ((w.ledgerOf l).binary (r.down w.lines) given op) :=
  .bind (Ledger.numberArg r 0) fun a => .bind (Ledger.numberArg r 2) fun b =>
    echoes_settle l r given (op a b)

theorem echoes_divide : w.Echoes (l.divide r given)
    ((w.ledgerOf l).divide (r.down w.lines) given) := by
  refine .bind (Ledger.numberArg r 2) fun b => ?_
  split
  · exact .reply rfl rfl rfl
  · exact .bind (Ledger.numberArg r 0) fun a => echoes_settle l r given (Checked.div a b)

theorem echoes_resolve : w.Echoes (l.resolve r given)
    ((w.ledgerOf l).resolve (r.down w.lines) given) := by
  refine .bind (Ledger.nameArg r 0) fun name => ?_
  rw [show (w.ledgerOf l).bindings = l.bindings from rfl]
  cases l.bindings.get? name <;> exact .reply rfl rfl rfl

/-- The semantic actions do further down what they do at the head of the text. -/
theorem echoes_apply (p : Production) : w.Echoes (l.apply r given p)
    ((w.ledgerOf l).apply (r.down w.lines) given p) := by
  cases p with
  | augmented => exact .fault _
  | program | noStmts | moreStmts | exprOfTerm | termOfFactor | literal => exact .reply rfl rfl rfl
  | exprStmt => exact .bind (Ledger.numberArg r 0) fun n => echoes_record l r (some n) .nothing
  | assignment =>
    exact .bind (Ledger.nameArg r 0) fun name => .bind (Ledger.numberArg r 2) fun n =>
      echoes_record { l with bindings := l.bindings.insert name n } r (some n) .nothing
  | errorStmt => exact echoes_record l r none given
  | sum | difference | product => exact echoes_binary l r given _
  | quotient => exact echoes_divide l r given
  | reference => exact echoes_resolve l r given
  | parens => exact .bind (Ledger.arg r 1) fun v => .reply rfl rfl rfl
  | negation => exact .bind (Ledger.numberArg r 1) fun n => echoes_settle l r given (Checked.neg n)

end Apply

end Setting

end Calculator

end ShiftReduce
