import ShiftReduce.Machine.Step

namespace ShiftReduce.Machine

variable {σ α V S φ : Type}

def init (m : Machine σ α V S φ) (scanner : σ) (actions : α) : Config σ α V S :=
  { scanner, actions, lastSpan := m.scanner.span scanner }

def start (m : Machine σ α V S φ) (c : Config σ α V S) :
    Except (Halt σ α V S φ) (Config σ α V S) :=
  let span := m.scanner.span c.scanner
  m.push { c with
    lastSpan := span
    lookahead := none
    mode := .normal
    phase := .deciding
    stats := {}
    trace := [] } ⟨.start, m.actions.blank, span⟩

def reset (c : Config σ α V S) : Config σ α V S :=
  { c with stack := c.stack.clear, lookahead := none, mode := .normal, phase := .deciding }

def finish (h : Halt σ α V S φ) : Halt σ α V S φ :=
  match h.verdict with
  | .accepted _ => { h with config := reset (h.config.emit (.accepted h.config.stats)) }
  | .failed e => { h with config := reset (h.config.emit (.failed e h.config.stats)) }
  | .fault _ | .exhausted => h

/-- Steps until the parse ends, at most `fuel` times. -/
def run [Merge S] (m : Machine σ α V S φ) : Nat → Config σ α V S → Halt σ α V S φ
  | 0, c => ⟨.exhausted, c⟩
  | fuel + 1, c =>
    match m.step c with
    | .ok c => m.run fuel c
    | .error h => h

def parse [Merge S] (m : Machine σ α V S φ) (fuel : Nat) (c : Config σ α V S) :
    Halt σ α V S φ :=
  finish (match m.start c with
    | .ok c => m.run fuel c
    | .error h => h)

end ShiftReduce.Machine
