import ShiftReduce.Machine.Run

namespace ShiftReduce.Script

structure Token where
  terminal : Terminal
  value : String
  span : ByteRange

/-- A token list being read. After the last token the end terminal comes for ever. -/
structure Feed where
  pending : List Token := []
  value : String := ""
  span : ByteRange := {}
  endTerminal : Terminal
  endSpan : ByteRange := {}
  pending_proper : ∀ t ∈ pending, t.terminal ≠ .reserved := by simp
  end_proper : endTerminal ≠ .reserved := by simp

namespace Feed

def next (f : Feed) : Terminal × Feed :=
  match h : f.pending with
  | t :: rest => (t.terminal, { f with
      pending := rest
      value := t.value
      span := t.span
      pending_proper := fun a ha => f.pending_proper a (h ▸ List.mem_cons_of_mem t ha) })
  | [] => (f.endTerminal, { f with value := "", span := f.endSpan })

theorem next_proper (f : Feed) : f.next.1 ≠ .reserved := by
  unfold next
  split
  · rename_i t rest h
    exact f.pending_proper t (h ▸ List.mem_cons_self)
  · exact f.end_proper

/-- Goes on with another list, of which the reserved terminal is left out; unless a span is given
for its end, that is the empty one behind the last token. -/
def load (f : Feed) (tokens : List Token) (endSpan : Option ByteRange) : Feed :=
  let stop := (tokens.getLast?.map (·.span.stop)).getD 0
  { f with
    pending := tokens.filter (·.terminal ≠ .reserved)
    endSpan := endSpan.getD ⟨stop, stop⟩
    pending_proper := by simp }

def scanner : Scanner Feed String ByteRange where
  next f :=
    let (t, f) := f.next
    (t, f, [])
  value f := (f.value, { f with value := "" })
  span f := f.span
  report _ _ f := (f, [])
  proper := next_proper

end Feed

inductive Mode
  | keep
  | join
  | tree
deriving DecidableEq

/-- The answer to reductions by one rule, maybe only to those that make a given value, and maybe
only to the `nth` of them. -/
structure Cue where
  rule : RuleId
  value : Option String := none
  nth : Nat := 0
  control : Control

structure Counted where
  cue : Cue
  count : Nat := 0

def Cue.covers (c : Cue) (rule : RuleId) (value : String) : Bool :=
  c.rule = rule && c.value.all (· = value)

/-- The first cue that fires answers; those behind it do not count the match. -/
def answer (rule : RuleId) (value : String) : List Counted → Control × List Counted
  | [] => (.proceed, [])
  | e :: rest =>
    if e.cue.covers rule value then
      let e := { e with count := e.count + 1 }
      if e.cue.nth = 0 ∨ e.cue.nth = e.count then (e.cue.control, e :: rest)
      else
        let (control, rest) := answer rule value rest
        (control, e :: rest)
    else
      let (control, rest) := answer rule value rest
      (control, e :: rest)

/-- Joins two or more values by blanks, or writes the rule with all of them, or keeps the value
given. -/
def make (mode : Mode) (r : Reduction String ByteRange) (given : String) : String :=
  match mode with
  | .keep => given
  | .join =>
    if r.values.length < 2 then given else " ".intercalate (r.values.filter (· ≠ ""))
  | .tree => s!"{r.ruleId.id.toNat}[" ++ ",".intercalate r.values ++ "]"

def actions (mode : Mode) (rename : Terminal → Option String) :
    Actions (List Counted) String ByteRange Empty where
  blank := ""
  reduce r given cues :=
    let value := make mode r given
    let (control, state) := answer r.ruleId value cues
    .ok { control, value, state }
  rename _ := rename

structure Act where
  feed : Option (List Token × Option ByteRange) := none
  cues : Option (List Cue) := none

abbrev Stage := Config Feed (List Counted) String ByteRange

def Act.prepare (a : Act) (c : Stage) : Stage :=
  let c := match a.feed with
    | none => c
    | some (tokens, endSpan) => { c with scanner := c.scanner.load tokens endSpan }
  match a.cues with
  | none => c
  | some cues => { c with actions := cues.map fun cue => { cue } }

/-- Parses act after act with one machine; nothing follows a fault. -/
def play (m : Machine Feed (List Counted) String ByteRange Empty) (fuel : Nat) :
    List Act → Stage → List (Halt Feed (List Counted) String ByteRange Empty)
  | [], _ => []
  | a :: rest, c =>
    let h := m.parse fuel (a.prepare c)
    match h.verdict with
    | .accepted _ | .failed _ => h :: play m fuel rest h.config
    | .fault _ | .exhausted => [h]

end ShiftReduce.Script
