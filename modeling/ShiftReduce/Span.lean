namespace ShiftReduce

/-- Joins a location with one that follows it: the result starts where the first starts and
ends where the last ends. -/
class Merge (S : Type) where
  merge : S → S → S

structure Position where
  line : Nat := 0
  column : Nat := 0
deriving DecidableEq

namespace Position

def next (p : Position) (c : Char) : Position :=
  if c = '\n' then ⟨p.line + 1, 0⟩ else ⟨p.line, p.column + 1⟩

def advance (p : Position) (text : List Char) : Position := text.foldl next p

@[simp] theorem advance_nil (p : Position) : p.advance [] = p := rfl

@[simp] theorem advance_cons (p : Position) (c : Char) (text : List Char) :
    p.advance (c :: text) = (p.next c).advance text := rfl

theorem advance_append (p : Position) (s t : List Char) :
    p.advance (s ++ t) = (p.advance s).advance t := by
  simp [advance]

def render (p : Position) : String := s!"{p.line + 1}:{p.column + 1}"

instance : Ord Position where
  compare p q := (compare p.line q.line).then (compare p.column q.column)

end Position

/-- A stretch of text from `start` up to but not including `stop`. The span of an empty phrase
lies between two tokens and may start after it stops. -/
structure Span where
  start : Position := {}
  stop : Position := {}
deriving DecidableEq

namespace Span

def point (p : Position) : Span := ⟨p, p⟩

def isEmpty (s : Span) : Bool := s.start = s.stop

def lines (s : Span) : Nat × Nat := (s.start.line, s.stop.line)

def render (s : Span) : String := s!"{s.start.render}-{s.stop.render}"

instance : Merge Span where
  merge first last := ⟨first.start, last.stop⟩

instance : Ord Span where
  compare s t := (compare s.start t.start).then (compare s.stop t.stop)

end Span

structure ByteRange where
  start : Nat := 0
  stop : Nat := 0
deriving DecidableEq

instance : Merge ByteRange where
  merge first last := ⟨first.start, last.stop⟩

end ShiftReduce
