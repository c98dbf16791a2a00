namespace ShiftReduce

/-- A terminal symbol. Number 0 is reserved and never read as a token. -/
structure Terminal where
  id : UInt16
deriving DecidableEq

structure Nonterminal where
  id : UInt16
deriving DecidableEq

structure RuleId where
  id : UInt16
deriving DecidableEq

structure StateId where
  id : UInt32
deriving DecidableEq

inductive Symbol
  | terminal (t : Terminal)
  | nonterminal (n : Nonterminal)
deriving DecidableEq

structure Rule where
  lhs : Nonterminal
  rhs : List Symbol
deriving DecidableEq

def Terminal.reserved : Terminal := ⟨0⟩

/-- Every parse begins in state 0. -/
def StateId.start : StateId := ⟨0⟩

def Rule.length (r : Rule) : Nat := r.rhs.length

def Rule.isEmpty (r : Rule) : Bool := r.rhs.isEmpty

end ShiftReduce
