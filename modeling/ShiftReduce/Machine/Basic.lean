import ShiftReduce.Machine.FrameStack
import ShiftReduce.Span
import ShiftReduce.Tables

namespace ShiftReduce

/-- A token source. `value` hands over the value of the token read last and `span` tells where
that token is; before the first token it is where the input starts. Terminal 0 stands for no token
and is never returned. -/
structure Scanner (σ V S : Type) where
  next : σ → Terminal × σ × List LogLine
  value : σ → V × σ
  span : σ → S
  report : String → S → σ → σ × List LogLine
  proper : ∀ x, (next x).1 ≠ .reserved

/-- What a semantic action asks for. An action that raises an error leaves the right-hand side
of its rule on the stack. -/
inductive Control
  | proceed
  | accept
  | abort
  | raise
deriving DecidableEq

structure Reduction (V S : Type) where
  ruleId : RuleId
  rule : Rule
  values : List V
  spans : List S
  span : S

structure Reply (α V : Type) where
  control : Control := .proceed
  value : V
  state : α
  log : List LogLine := []

/-- The semantic actions of a grammar. `reduce` gets the first right-hand value, or `blank` for
an empty rule, and answers with the value of the left-hand side. A terminal may be renamed at any
time, by the state that the actions have come to. -/
structure Actions (α V S φ : Type) where
  blank : V
  reduce : Reduction V S → V → α → Except φ (Reply α V)
  rename : α → Terminal → Option String := fun _ _ => none

structure Stats where
  tokens : Nat := 0
  shifts : Nat := 0
  reductions : Nat := 0
  errors : Nat := 0
  discarded : Nat := 0
deriving DecidableEq

inductive ParseError
  | aborted
  | unrecoverable
  | unexpectedEnd
  | stackOverflow (limit : Nat)
deriving DecidableEq

def ParseError.message : ParseError → String
  | aborted => "parse aborted by a semantic action"
  | unrecoverable => "unrecoverable syntax error"
  | unexpectedEnd => "unexpected end of input while recovering from a syntax error"
  | stackOverflow limit => s!"parser stack exceeded {limit} entries"

/-- A step that the tables or the semantic actions left without meaning. -/
inductive Fault (φ : Type)
  | stack (f : StackFault)
  | index (f : IndexFault)
  | action (f : φ)
deriving DecidableEq

def Fault.message {φ : Type} (text : φ → String) : Fault φ → String
  | stack f => f.message
  | index f => f.message
  | action f => text f

/-- How a run ends; `exhausted` says that it was given too few steps. -/
inductive Verdict (V φ : Type)
  | accepted (value : V)
  | failed (error : ParseError)
  | fault (f : Fault φ)
  | exhausted
deriving DecidableEq

/-- After an error, errors stay unreported until enough tokens have been shifted. -/
inductive Mode
  | normal
  | recovering (shifted : Nat)
deriving DecidableEq

/-- Between turns the machine decides what to do next. After the error terminal was shifted it
skips input first; `force` skips one token unseen. -/
inductive Phase
  | deciding
  | skipping (force : Bool)
deriving DecidableEq

inductive Event (V S : Type)
  /-- The scanner returned a token. -/
  | fetched (t : Terminal)
  /-- A token is about to be shifted. -/
  | shifting (t : Terminal) (target : StateId)
  /-- The scanner handed over a token's value. -/
  | taken (value : V)
  /-- A token was shifted and stands on the stack as this frame. -/
  | shifted (t : Terminal) (frame : Frame V S)
  | reducing (ruleId : RuleId) (rule : Rule)
  /-- A semantic action turned the value it was given into another one. -/
  | reduced (reduction : Reduction V S) (given made : V) (control : Control)
  /-- The top frames, so many of them, were replaced by this one. -/
  | folded (count : Nat) (frame : Frame V S)
  /-- An error was met at this token. -/
  | stuck (t : Terminal) (span : S)
  | reported (message : String) (span : S)
  | popped (state : StateId)
  /-- The error terminal is about to be shifted. -/
  | catching (target : StateId)
  /-- The error terminal was shifted and stands on the stack as this frame. -/
  | caught (frame : Frame V S)
  | discarded (t : Terminal)
  /-- No state on the stack shifts the error terminal. -/
  | cornered
  | outOfInput
  | resynchronized (state : StateId)
  | recovered
  /-- A turn ended with these stacks and this lookahead. -/
  | turned (stack : FrameStack V S) (lookahead : Option Terminal)
  | accepted (stats : Stats)
  | failed (error : ParseError) (stats : Stats)
  /-- A line written by the scanner or by a semantic action. -/
  | note (line : LogLine)

/-- A parse in progress. The trace holds the events so far, newest first. -/
structure Config (σ α V S : Type) where
  scanner : σ
  actions : α
  lastSpan : S
  stack : FrameStack V S := .empty
  lookahead : Option Terminal := none
  mode : Mode := .normal
  phase : Phase := .deciding
  stats : Stats := {}
  trace : List (Event V S) := []

structure Halt (σ α V S φ : Type) where
  verdict : Verdict V φ
  config : Config σ α V S

def defaultMaxDepth : Nat := 10000

structure Machine (σ α V S φ : Type) where
  tables : Tables
  scanner : Scanner σ V S
  actions : Actions α V S φ
  maxDepth : Nat := defaultMaxDepth

namespace Config

variable {σ α V S φ β ε : Type}

def emit (c : Config σ α V S) (e : Event V S) : Config σ α V S :=
  { c with trace := e :: c.trace }

def notes (c : Config σ α V S) (lines : List LogLine) : Config σ α V S :=
  lines.foldl (fun c l => c.emit (.note l)) c

def halt (c : Config σ α V S) (v : Verdict V φ) : Except (Halt σ α V S φ) β := .error ⟨v, c⟩

/-- Goes on with a result, or halts on a fault with the configuration as it is. -/
def demand (c : Config σ α V S) (wrap : ε → Fault φ) : Except ε β → Except (Halt σ α V S φ) β
  | .ok b => .ok b
  | .error f => c.halt (.fault (wrap f))

end Config

end ShiftReduce
