import ShiftReduce.Machine.Step

namespace ShiftReduce

def Stats.fields (s : Stats) : List (String × Nat) :=
  [("tokens", s.tokens), ("shifts", s.shifts), ("reductions", s.reductions),
    ("errors", s.errors), ("discarded", s.discarded)]

def Stats.render (s : Stats) : String :=
  "ParserStats \x7b " ++ ", ".intercalate (s.fields.map fun p => s!"{p.1}: {p.2}") ++ " \x7d"

def Stats.renderLines (s : Stats) : String :=
  "ParserStats \x7b\n" ++ String.join (s.fields.map fun p => s!"    {p.1}: {p.2},\n") ++ "\x7d"

namespace Machine

variable {σ α V S φ : Type}

def snapshot (m : Machine σ α V S φ) (a : α) (states : List StateId)
    (lookahead : Option Terminal) : String :=
  String.join (states.map fun s => s!"<{s.id.toNat}>  ") ++
    match lookahead with
    | none => ""
    | some t => "<-  " ++ m.terminalName a t

/-- What an event tells in the log; events that are seen elsewhere tell nothing. -/
def lines (m : Machine σ α V S φ) (a : α) : Event V S → List LogLine
  | .fetched t => [⟨.trace, s!"Lookahead {m.terminalName a t}"⟩]
  | .shifting t target => [⟨.trace, s!"Shift {m.terminalName a t} -> {target.id.toNat}"⟩]
  | .taken _ | .shifted .. | .folded .. | .stuck .. | .caught _ => []
  | .reducing r rule => [⟨.trace, s!"Reduce {r.id.toNat} ({m.tables.ruleText rule})"⟩]
  | .reduced reduction _ _ control =>
    let r := reduction.ruleId.id.toNat
    match control with
    | .proceed => []
    | .accept => [⟨.debug, s!"rule {r} requested accept"⟩]
    | .abort => [⟨.debug, s!"rule {r} requested abort"⟩]
    | .raise => [⟨.debug, s!"rule {r} raised a syntax error"⟩]
  | .reported message _ => [⟨.debug, message⟩]
  | .popped s => [⟨.trace, s!"Pop {s.id.toNat}"⟩]
  | .catching target =>
    [⟨.trace, s!"Shift {m.terminalName a m.tables.errorTerminal} -> {target.id.toNat}"⟩]
  | .discarded t => [⟨.trace, s!"Discard {m.terminalName a t}"⟩]
  | .cornered =>
    [⟨.debug, s!"no state on the stack shifts {m.terminalName a m.tables.errorTerminal}"⟩]
  | .outOfInput => [⟨.debug, "end of input while recovering"⟩]
  | .resynchronized s => [⟨.debug, s!"resynchronized in state {s.id.toNat}"⟩]
  | .recovered => [⟨.debug, "error recovery complete"⟩]
  | .turned stack lookahead => [⟨.trace, m.snapshot a stack.states.toList lookahead⟩]
  | .accepted stats => [⟨.debug, s!"accepted: {stats.render}"⟩]
  | .failed e stats => [⟨.debug, s!"failed: {e.message}: {stats.render}"⟩]
  | .note line => [line]

def actionsAfter (m : Machine σ α V S φ) (a : α) : Event V S → α
  | .reduced reduction given _ _ =>
    match m.actions.reduce reduction given a with
    | .ok reply => reply.state
    | .error _ => a
  | _ => a

/-- Terminals are named as the actions name them at the time. -/
def tell (m : Machine σ α V S φ) (told : α × Array LogLine) (e : Event V S) : α × Array LogLine :=
  let a := m.actionsAfter told.1 e
  (a, told.2 ++ m.lines a e)

/-- The log of a trace, which holds its newest event first, of a parse that the actions began in
the state `a`. -/
def log [Inhabited α] (m : Machine σ α V S φ) (trace : List (Event V S)) (a : α := default) :
    List LogLine :=
  (trace.reverse.foldl m.tell (a, #[])).2.toList

end Machine

end ShiftReduce
