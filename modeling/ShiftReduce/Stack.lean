namespace ShiftReduce

/-- A last-in first-out stack, top element first, and the room set aside for it. The depth is
kept, so that it need not be counted. -/
structure Stack (α : Type) where
  items : List α := []
  depth : Nat := 0
  capacity : Nat := 0
  depth_eq : depth = items.length := by rfl

inductive StackFault
  | popEmpty
  | peekEmpty
  | noSuchIndex (index depth : Nat)
  | viewTooDeep (count depth : Nat)
  | discardTooDeep (count depth : Nat)
deriving DecidableEq

def StackFault.message : StackFault → String
  | popEmpty => "pop on an empty stack"
  | peekEmpty => "peek on an empty stack"
  | noSuchIndex index depth => s!"stack index {index} out of range (depth {depth})"
  | viewTooDeep count depth => s!"cannot view {count} elements of a stack of depth {depth}"
  | discardTooDeep count depth => s!"cannot pop {count} elements from a stack of depth {depth}"

namespace Stack

variable {α : Type}

def minGrowth : Nat := 16

def withCapacity (n : Nat) : Stack α := { capacity := n }

def empty : Stack α := withCapacity 0

def isEmpty (s : Stack α) : Bool := s.items.isEmpty

def toList (s : Stack α) : List α := s.items.reverse

/-- A full stack doubles its room, and gains at least `minGrowth`. -/
def push (s : Stack α) (a : α) : Stack α where
  items := a :: s.items
  depth := s.depth + 1
  capacity := if s.depth = s.capacity then s.capacity + max s.capacity minGrowth else s.capacity
  depth_eq := by simp [s.depth_eq]

def drop (s : Stack α) (n : Nat) : Stack α where
  items := s.items.drop n
  depth := s.depth - n
  capacity := s.capacity
  depth_eq := by simp [s.depth_eq]

def pop (s : Stack α) : Except StackFault (α × Stack α) :=
  match s.items with
  | [] => .error .popEmpty
  | a :: _ => .ok (a, s.drop 1)

def peek (s : Stack α) : Except StackFault α :=
  match s.items with
  | [] => .error .peekEmpty
  | a :: _ => .ok a

def get (s : Stack α) (i : Nat) : Except StackFault α :=
  match s.toList[i]? with
  | none => .error (.noSuchIndex i s.depth)
  | some a => .ok a

def top (s : Stack α) (n : Nat) : Except StackFault (List α) :=
  if n ≤ s.depth then .ok (s.items.take n).reverse else .error (.viewTooDeep n s.depth)

def discard (s : Stack α) (n : Nat) : Except StackFault (Stack α) :=
  if n ≤ s.depth then .ok (s.drop n) else .error (.discardTooDeep n s.depth)

/-- An emptied stack keeps its room. -/
def clear (s : Stack α) : Stack α := withCapacity s.capacity

@[simp] theorem toList_withCapacity (n : Nat) : (withCapacity n : Stack α).toList = [] := rfl

@[simp] theorem toList_push (s : Stack α) (a : α) : (s.push a).toList = s.toList ++ [a] := by
  simp [toList, push]

@[simp] theorem toList_clear (s : Stack α) : s.clear.toList = [] := rfl

@[simp] theorem depth_push (s : Stack α) (a : α) : (s.push a).depth = s.depth + 1 := rfl

@[simp] theorem length_toList (s : Stack α) : s.toList.length = s.depth := by
  simp [toList, s.depth_eq]

end Stack

end ShiftReduce
