import ShiftReduce.Machine.Basic

namespace ShiftReduce.Machine

variable {σ α V S φ : Type}

/-- So many tokens must be shifted after an error before errors are reported again. -/
def recoveryShifts : Nat := 5

def maxListed : Nat := 6

def terminalName (m : Machine σ α V S φ) (a : α) (t : Terminal) : String :=
  (m.actions.rename a t).getD (m.tables.terminalName t)

def fetch (m : Machine σ α V S φ) (c : Config σ α V S) : Terminal × Config σ α V S :=
  match c.lookahead with
  | some t => (t, c)
  | none =>
    let (t, scanner, lines) := m.scanner.next c.scanner
    let c' := { c with
      scanner
      lastSpan := m.scanner.span c.scanner
      lookahead := some t
      stats := { c.stats with tokens := c.stats.tokens + 1 } }
    (t, (c'.notes lines).emit (.fetched t))

def push (m : Machine σ α V S φ) (c : Config σ α V S) (f : Frame V S) :
    Except (Halt σ α V S φ) (Config σ α V S) :=
  if m.maxDepth ≤ c.stack.depth then c.halt (.failed (.stackOverflow m.maxDepth))
  else .ok { c with stack := c.stack.push f }

def turned (c : Config σ α V S) : Config σ α V S := c.emit (.turned c.stack c.lookahead)

/-- A state without entries decides by its default cell, and no token is read for it. -/
def nextAction (m : Machine σ α V S φ) (c : Config σ α V S) (s : State) :
    Action × Config σ α V S :=
  if s.hasLookahead then
    let (t, c) := m.fetch c
    (Action.decode (s.lookup t), c)
  else (Action.decode s.fallback, c)

def countShift (c : Config σ α V S) : Config σ α V S :=
  match c.mode with
  | .normal => c
  | .recovering shifted =>
    if recoveryShifts ≤ shifted + 1 then { c with mode := .normal }.emit .recovered
    else { c with mode := .recovering (shifted + 1) }

/-- The end terminal stays buffered when it is shifted: nothing comes after it. -/
def shift (m : Machine σ α V S φ) (c : Config σ α V S) (target : StateId) :
    Except (Halt σ α V S φ) (Config σ α V S) := do
  let (t, c) := m.fetch c
  let c := c.emit (.shifting t target)
  let (value, scanner) := m.scanner.value c.scanner
  let c := { c with scanner }.emit (.taken value)
  let frame : Frame V S := ⟨target, value, m.scanner.span scanner⟩
  let c ← m.push c frame
  let c := { c with
    stats := { c.stats with shifts := c.stats.shifts + 1 }
    lookahead := if t = m.tables.endTerminal then c.lookahead else none }
  .ok (turned (countShift (c.emit (.shifted t frame))))

def alternatives : List String → String
  | [] => ""
  | [a] => a
  | [a, b] => a ++ " or " ++ b
  | a :: rest => a ++ ", " ++ alternatives rest

def describe (m : Machine σ α V S φ) (a : α) (t : Terminal) (expected : List Terminal) : String :=
  let found := "syntax error, unexpected " ++ m.terminalName a t
  if expected = [] ∨ maxListed < expected.length then found
  else found ++ ", expecting " ++ alternatives (expected.map (m.terminalName a))

/-- Pops frames, of which those on the stack are given, down to one whose state has an entry of
its own that shifts the error terminal, and gives the state to go to. -/
def unwind (m : Machine σ α V S φ) (c : Config σ α V S) :
    List (Frame V S) → Except (Halt σ α V S φ) (StateId × Config σ α V S)
  | [] => (c.emit .cornered).halt (.failed .unrecoverable)
  | f :: rest => do
    let s ← c.demand .index (m.tables.state f.state)
    match s.shiftTarget? m.tables.errorTerminal with
    | some target => .ok (target, c)
    | none => m.unwind ({ c with stack := c.stack.drop 1 }.emit (.popped f.state)) rest

def report (m : Machine σ α V S φ) (c : Config σ α V S) (t : Terminal) (span : S)
    (expected : List Terminal) : Config σ α V S :=
  if c.mode = .normal then
    let message := m.describe c.actions t expected
    let c := c.emit (.reported message span)
    let (scanner, lines) := m.scanner.report message span c.scanner
    { c with scanner }.notes lines
  else c

/-- Answers an error at the next token: reports it, unwinds the stack, shifts the error terminal
and turns to skipping input. If nothing was shifted since the last error, the token that
stopped the parse before is skipped unseen. -/
def recover (m : Machine σ α V S φ) (c : Config σ α V S) (expected : List Terminal) :
    Except (Halt σ α V S φ) (Config σ α V S) := do
  let (t, c) := m.fetch c
  let span := m.scanner.span c.scanner
  let stalled := decide (c.mode = .recovering 0)
  let c := { c with stats := { c.stats with errors := c.stats.errors + 1 } }
  let c := m.report (c.emit (.stuck t span)) t span expected
  let (target, c) ← m.unwind c c.stack.items
  let c := c.emit (.catching target)
  let frame : Frame V S := ⟨target, m.actions.blank, span⟩
  let c ← m.push c frame
  .ok { c.emit (.caught frame) with mode := .recovering 0, phase := .skipping stalled }

/-- The value and the location of a left-hand side before its action runs. An empty phrase lies
between the token read before the next one and the next one, which must be known for it. -/
def synthesize [Merge S] (m : Machine σ α V S φ) (c : Config σ α V S) :
    List (Frame V S) → V × S × Config σ α V S
  | [] =>
    let (_, c) := m.fetch c
    (m.actions.blank, Merge.merge (m.scanner.span c.scanner) c.lastSpan, c)
  | [f] => (f.value, f.span, c)
  | f :: g :: rest =>
    (f.value, Merge.merge f.span ((g :: rest).getLast (by simp)).span, c)

/-- Replaces the top `n` frames by one for `lhs`. A state without a goto for it is entered
again. -/
def goto (m : Machine σ α V S φ) (c : Config σ α V S) (n : Nat) (lhs : Nonterminal)
    (value : V) (span : S) : Except (Halt σ α V S φ) (Config σ α V S) := do
  let below ← c.demand .stack (c.stack.discard n)
  let c := { c with stack := below }
  let f ← c.demand .stack c.stack.peek
  let s ← c.demand .index (m.tables.state f.state)
  let frame : Frame V S := ⟨(s.gotoFor lhs).getD f.state, value, span⟩
  let c ← m.push c frame
  .ok (turned (c.emit (.folded n frame)))

def reduce [Merge S] (m : Machine σ α V S φ) (c : Config σ α V S) (r : RuleId) :
    Except (Halt σ α V S φ) (Config σ α V S) := do
  let rule ← c.demand .index (m.tables.rule r)
  let c := c.emit (.reducing r rule)
  let frames ← c.demand .stack (c.stack.top rule.length)
  let (given, span, c) := m.synthesize c frames
  let reduction : Reduction V S :=
    ⟨r, rule, frames.map Frame.value, frames.map Frame.span, span⟩
  let reply ← c.demand .action (m.actions.reduce reduction given c.actions)
  let c := { c with
    actions := reply.state
    stats := { c.stats with reductions := c.stats.reductions + 1 } }
  let c := (c.notes reply.log).emit (.reduced reduction given reply.value reply.control)
  match reply.control with
  | .accept => c.halt (.accepted reply.value)
  | .abort => c.halt (.failed .aborted)
  | .raise => m.recover c []
  | .proceed =>
    if r = m.tables.acceptRule then c.halt (.accepted reply.value)
    else m.goto c rule.length rule.lhs reply.value span

def resynchronized (c : Config σ α V S) (s : StateId) : Config σ α V S :=
  turned ({ c with phase := .deciding }.emit (.resynchronized s))

/-- Skips one token, or ends the skipping at a token that the top state has an action for. A
state without entries takes any token. -/
def skip (m : Machine σ α V S φ) (c : Config σ α V S) (force : Bool) :
    Except (Halt σ α V S φ) (Config σ α V S) := do
  let f ← c.demand .stack c.stack.peek
  let s ← c.demand .index (m.tables.state f.state)
  if !force && !s.hasLookahead then .ok (resynchronized c f.state)
  else
    let (t, c) := m.fetch c
    if !force && s.lookup t != 0 then .ok (resynchronized c f.state)
    else if t = m.tables.endTerminal then (c.emit .outOfInput).halt (.failed .unexpectedEnd)
    else
      let c := { c with
        lookahead := none
        phase := .skipping false
        stats := { c.stats with discarded := c.stats.discarded + 1 } }
      .ok (c.emit (.discarded t))

def step [Merge S] (m : Machine σ α V S φ) (c : Config σ α V S) :
    Except (Halt σ α V S φ) (Config σ α V S) :=
  match c.phase with
  | .skipping force => m.skip c force
  | .deciding => do
    let f ← c.demand .stack c.stack.peek
    let s ← c.demand .index (m.tables.state f.state)
    match m.nextAction c s with
    | (.shift target, c) => m.shift c target
    | (.reduce r, c) => m.reduce c r
    | (.error, c) => m.recover c (s.expected m.tables.errorTerminal)

end ShiftReduce.Machine
