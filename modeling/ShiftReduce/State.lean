import ShiftReduce.Action
import ShiftReduce.OrderedMap

namespace ShiftReduce

/-- One state of the automaton. A state without entries does not look at the next token and
always takes its default cell. -/
structure State where
  actions : OrderedMap Terminal Cell := .empty
  gotos : OrderedMap Nonterminal StateId := .empty
  fallback : Cell := 0

inductive StateEntry
  | cell (t : Terminal) (c : Cell)
  | action (t : Terminal) (a : Action)
  | defaultCell (c : Cell)
  | defaultAction (a : Action)
  | goto (n : Nonterminal) (target : StateId)

namespace State

def hasLookahead (s : State) : Bool := !s.actions.isEmpty

def entry (s : State) (t : Terminal) : Option Cell := s.actions.get? t

def lookup (s : State) (t : Terminal) : Cell := (s.entry t).getD s.fallback

def gotoFor (s : State) (n : Nonterminal) : Option StateId := s.gotos.get? n

/-- The terminals other than `except` with a nonzero cell of their own, in table order. -/
def expected (s : State) (except : Terminal) : List Terminal :=
  (s.actions.entries.filter fun p => p.2 ≠ 0 ∧ p.1 ≠ except).map Prod.fst

def shiftTarget? (s : State) (t : Terminal) : Option StateId :=
  match (s.entry t).map Action.decode with
  | some (.shift target) => some target
  | _ => none

/-- The last word counts: a later entry for the same key replaces an earlier one. -/
def add (s : State) : StateEntry → Except Unencodable State
  | .cell t c => .ok { s with actions := s.actions.insert t c }
  | .action t a => do
    let c ← a.encode
    .ok { s with actions := s.actions.insert t c }
  | .defaultCell c => .ok { s with fallback := c }
  | .defaultAction a => do
    let c ← a.encode
    .ok { s with fallback := c }
  | .goto n target => .ok { s with gotos := s.gotos.insert n target }

def ofEntries (entries : List StateEntry) : Except Unencodable State := entries.foldlM add {}

end State

end ShiftReduce
