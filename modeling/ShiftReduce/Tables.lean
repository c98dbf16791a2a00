import ShiftReduce.LogLine
import ShiftReduce.State

namespace ShiftReduce

structure IndexFault where
  index : Nat
  length : Nat
deriving DecidableEq

def IndexFault.message (f : IndexFault) : String :=
  s!"index out of bounds: the len is {f.length} but the index is {f.index}"

def indexed {α : Type} (index length : Nat) : Option α → Except IndexFault α
  | some a => .ok a
  | none => .error ⟨index, length⟩

inductive TerminalRole
  | error
  | endOfInput
deriving DecidableEq

def TerminalRole.label : TerminalRole → String
  | error => "error"
  | endOfInput => "end-of-input"

inductive TableError
  | noStates
  | tooManyStates (count : Nat)
  | reservedTerminal (role : TerminalRole)
  | reservedKey (state : Nat)
  | shiftOutOfRange (state target : Nat)
  | unknownRule (state rule : Nat)
  | gotoOutOfRange (state : Nat) (nonterminal : Nonterminal) (target : StateId)
  | invalidAcceptRule (rule : Nat)
deriving DecidableEq

def TableError.message : TableError → String
  | noStates => "table set has no states"
  | tooManyStates count => s!"too many states ({count}) for the action encoding"
  | reservedTerminal role => s!"terminal 0 is reserved and cannot be the {role.label} terminal"
  | reservedKey state => s!"state {state}: terminal 0 is reserved and cannot key an action"
  | shiftOutOfRange state target => s!"state {state}: shift to unknown state {target}"
  | unknownRule state rule => s!"state {state}: reduce by unknown rule {rule}"
  | gotoOutOfRange state n target =>
    s!"state {state}: goto on nonterminal {n.id.toNat} leads to unknown state {target.id.toNat}"
  | invalidAcceptRule rule => s!"rule {rule} cannot be the accept rule"

/-- A table set before its cross-references are checked. -/
structure Draft where
  rules : Array Rule := #[]
  states : Array State := #[]
  errorTerminal : Terminal := ⟨2⟩
  endTerminal : Terminal := ⟨1⟩
  acceptRule : RuleId := ⟨1⟩
  terminalNames : Array String := #[]
  nonterminalNames : Array String := #[]

namespace Draft

def maxStates : Nat := 2147483647

/-- A cell may shift to a state of the set, reduce by a rule of the set, or be zero. -/
def cellViolation (d : Draft) (state : Nat) (c : Cell) : Option TableError :=
  let n := c.toInt.natAbs
  if 0 < c then
    if d.states.size ≤ n then some (.shiftOutOfRange state n) else none
  else if c < 0 then
    if d.rules.size ≤ n ∨ UInt16.size ≤ n then some (.unknownRule state n) else none
  else none

def entryViolation (d : Draft) (state : Nat) (p : Terminal × Cell) : Option TableError :=
  if p.1 = .reserved then some (.reservedKey state) else d.cellViolation state p.2

def gotoViolation (d : Draft) (state : Nat) (p : Nonterminal × StateId) : Option TableError :=
  if d.states.size ≤ p.2.id.toNat then some (.gotoOutOfRange state p.1 p.2) else none

/-- The first violation in a state: its default, then its entries, then its gotos. -/
def stateViolation (d : Draft) (state : Nat) (s : State) : Option TableError :=
  d.cellViolation state s.fallback
    <|> s.actions.entries.findSome? (d.entryViolation state)
    <|> s.gotos.entries.findSome? (d.gotoViolation state)

def overallViolation (d : Draft) : Option TableError :=
  if d.states.size = 0 then some .noStates
  else if maxStates < d.states.size then some (.tooManyStates d.states.size)
  else if d.errorTerminal = .reserved then some (.reservedTerminal .error)
  else if d.endTerminal = .reserved then some (.reservedTerminal .endOfInput)
  else if d.acceptRule.id = 0 ∨ d.rules.size ≤ d.acceptRule.id.toNat then
    some (.invalidAcceptRule d.acceptRule.id.toNat)
  else none

def firstViolation (d : Draft) : Option TableError :=
  d.overallViolation <|> d.states.toList.zipIdx.findSome? fun p => d.stateViolation p.2 p.1

end Draft

/-- A table set whose cross-references all hold. -/
structure Tables extends Draft where
  sound : toDraft.firstViolation = none

def Draft.build (d : Draft) : Except TableError Tables :=
  match h : d.firstViolation with
  | some e => .error e
  | none => .ok ⟨d, h⟩

namespace Tables

@[simp] theorem endTerminal_ne_reserved (t : Tables) : t.endTerminal ≠ .reserved := by
  intro h
  have hoverall : t.overallViolation ≠ none := by
    unfold Draft.overallViolation
    repeat' split
    all_goals simp_all
  have hsound := t.sound
  rw [Draft.firstViolation, Option.orElse_eq_orElse, Option.orElse_eq_or,
    Option.or_eq_none_iff] at hsound
  exact hoverall hsound.1

def rule (t : Tables) (r : RuleId) : Except IndexFault Rule :=
  indexed r.id.toNat t.rules.size t.rules[r.id.toNat]?

def state (t : Tables) (s : StateId) : Except IndexFault State :=
  indexed s.id.toNat t.states.size t.states[s.id.toNat]?

def expected (t : Tables) (s : StateId) : Except IndexFault (List Terminal) :=
  (t.state s).map (·.expected t.errorTerminal)

def terminalName (t : Tables) (a : Terminal) : String :=
  t.terminalNames[a.id.toNat]?.getD s!"#{a.id.toNat}"

def nonterminalName (t : Tables) (n : Nonterminal) : String :=
  t.nonterminalNames[n.id.toNat]?.getD s!"<{n.id.toNat}>"

def symbolName (t : Tables) : Symbol → String
  | .terminal a => t.terminalName a
  | .nonterminal n => t.nonterminalName n

/-- A rule as `Lhs -> a B c`. -/
def ruleText (t : Tables) (r : Rule) : String :=
  r.rhs.foldl (fun text s => text ++ " " ++ t.symbolName s) (t.nonterminalName r.lhs ++ " ->")

end Tables

def Draft.loadLog (d : Draft) : List LogLine :=
  match d.firstViolation with
  | some _ => []
  | none => [⟨.debug, s!"loaded tables: {d.rules.size} rules, {d.states.size} states"⟩]

end ShiftReduce
