import ShiftReduce.Grammar

namespace ShiftReduce

/-- A table cell: a positive number shifts to that state, a negative one reduces by the rule
of its absolute value, and zero is an error. -/
abbrev Cell := Int32

inductive Action
  | shift (target : StateId)
  | reduce (rule : RuleId)
  | error
deriving DecidableEq

inductive Unencodable
  | shiftToStart
  | reduceByZero
deriving DecidableEq

def Unencodable.message : Unencodable → String
  | shiftToStart => "shift to the start state has no action code"
  | reduceByZero => "reduce by rule 0 has no action code"

namespace Action

/-- Rule numbers are sixteen bits wide, and of the absolute value only those bits count. -/
def decode (c : Cell) : Action :=
  if c = 0 then error
  else if 0 < c then shift ⟨c.toUInt32⟩
  else reduce ⟨c.toInt.natAbs.toUInt16⟩

/-- A state number is taken over bit by bit, so one with the sign bit set gives a negative cell. -/
def encode : Action → Except Unencodable Cell
  | shift target => if target.id = 0 then .error .shiftToStart else .ok target.id.toInt32
  | reduce rule => if rule.id = 0 then .error .reduceByZero else .ok (-rule.id.toUInt32.toInt32)
  | error => .ok 0

def render : Action → String
  | shift target => s!"Shift(StateId({target.id.toNat}))"
  | reduce rule => s!"Reduce(RuleId({rule.id.toNat}))"
  | error => "Error"

@[simp] theorem decode_zero : decode 0 = error := rfl

end Action

end ShiftReduce
