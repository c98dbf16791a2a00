import ShiftReduce.Grammar
import ShiftReduce.Stack

namespace ShiftReduce

/-- A state on the stack with the value and the location of the symbol that led to it. -/
structure Frame (V S : Type) where
  state : StateId
  value : V
  span : S

def Frame.zip {V S : Type} (states : List StateId) (values : List V) (spans : List S) :
    List (Frame V S) :=
  List.zipWith (fun s p => ⟨s, p.1, p.2⟩) states (List.zip values spans)

/-- The parts of the frames on three stacks: one for the states, one for the values and one for
the locations. -/
structure FrameStack (V S : Type) where
  states : Stack StateId := .empty
  values : Stack V := .empty
  spans : Stack S := .empty
  values_depth : values.depth = states.depth := by rfl
  spans_depth : spans.depth = states.depth := by rfl

namespace FrameStack

variable {V S : Type}

def empty : FrameStack V S := {}

def depth (k : FrameStack V S) : Nat := k.states.depth

def items (k : FrameStack V S) : List (Frame V S) :=
  Frame.zip k.states.items k.values.items k.spans.items

def push (k : FrameStack V S) (f : Frame V S) : FrameStack V S where
  states := k.states.push f.state
  values := k.values.push f.value
  spans := k.spans.push f.span
  values_depth := by rw [Stack.depth_push, Stack.depth_push, k.values_depth]
  spans_depth := by rw [Stack.depth_push, Stack.depth_push, k.spans_depth]

def drop (k : FrameStack V S) (n : Nat) : FrameStack V S where
  states := k.states.drop n
  values := k.values.drop n
  spans := k.spans.drop n
  values_depth := congrArg (· - n) k.values_depth
  spans_depth := congrArg (· - n) k.spans_depth

def peek (k : FrameStack V S) : Except StackFault (Frame V S) := do
  let state ← k.states.peek
  let value ← k.values.peek
  let span ← k.spans.peek
  .ok ⟨state, value, span⟩

def top (k : FrameStack V S) (n : Nat) : Except StackFault (List (Frame V S)) := do
  let states ← k.states.top n
  let values ← k.values.top n
  let spans ← k.spans.top n
  .ok (Frame.zip states values spans)

def discard (k : FrameStack V S) (n : Nat) : Except StackFault (FrameStack V S) :=
  if n ≤ k.depth then .ok (k.drop n) else .error (.discardTooDeep n k.depth)

/-- Emptied stacks keep their room. -/
def clear (k : FrameStack V S) : FrameStack V S where
  states := k.states.clear
  values := k.values.clear
  spans := k.spans.clear

theorem length_values (k : FrameStack V S) : k.values.items.length = k.states.items.length := by
  rw [← Stack.depth_eq, ← Stack.depth_eq, k.values_depth]

theorem length_spans (k : FrameStack V S) : k.spans.items.length = k.states.items.length := by
  rw [← Stack.depth_eq, ← Stack.depth_eq, k.spans_depth]

theorem depth_eq (k : FrameStack V S) : k.depth = k.items.length := by
  simp [items, Frame.zip, depth, Stack.depth_eq, length_values, length_spans]

@[simp] theorem items_empty : (empty : FrameStack V S).items = [] := rfl

@[simp] theorem items_push (k : FrameStack V S) (f : Frame V S) :
    (k.push f).items = f :: k.items := rfl

@[simp] theorem items_drop (k : FrameStack V S) (n : Nat) :
    (k.drop n).items = k.items.drop n := by
  simp [items, Frame.zip, drop, Stack.drop, List.drop_zipWith, List.zip]

@[simp] theorem items_clear (k : FrameStack V S) : k.clear.items = [] := rfl

theorem states_items (k : FrameStack V S) : k.items.map Frame.state = k.states.items := by
  have hlength : k.states.items.length ≤ (k.values.items.zip k.spans.items).length := by
    simp [length_values, length_spans]
  calc k.items.map Frame.state
      = (k.states.items.zip (k.values.items.zip k.spans.items)).map Prod.fst := by
        rw [items, Frame.zip, List.map_zipWith, ← List.map_uncurry_zip_eq_zipWith]
        rfl
    _ = k.states.items := List.map_fst_zip hlength

theorem peek_of_nil {k : FrameStack V S} (h : k.items = []) : k.peek = .error .peekEmpty := by
  have hs : k.states.items = [] := by rw [← states_items, h, List.map_nil]
  simp only [peek, Stack.peek, hs]
  rfl

theorem peek_of_cons {k : FrameStack V S} {f : Frame V S} {rest : List (Frame V S)}
    (h : k.items = f :: rest) : k.peek = .ok f := by
  cases hs : k.states.items with
  | nil => simp [items, Frame.zip, hs] at h
  | cons s ss =>
    cases hv : k.values.items with
    | nil => simp [items, Frame.zip, hv] at h
    | cons v vs =>
      cases hl : k.spans.items with
      | nil => simp [items, Frame.zip, hl] at h
      | cons l ls =>
        simp only [items, Frame.zip, hs, hv, hl, List.zip_cons_cons, List.zipWith_cons_cons,
          List.cons.injEq] at h
        simp only [peek, Stack.peek, hs, hv, hl, ← h.1]
        rfl

theorem top_of_le {k : FrameStack V S} {n : Nat} (h : n ≤ k.items.length) :
    k.top n = .ok (k.items.take n).reverse := by
  have hs : n ≤ k.states.depth := by
    rw [← depth_eq] at h
    exact h
  have hv : n ≤ k.values.depth := k.values_depth ▸ hs
  have hl : n ≤ k.spans.depth := k.spans_depth ▸ hs
  simp only [top, Stack.top, if_pos hs, if_pos hv, if_pos hl, bind, Except.bind, Except.ok.injEq]
  simp only [items, Frame.zip, List.zip, List.take_zipWith]
  rw [List.reverse_zipWith (by simp [length_values, length_spans]),
    List.reverse_zipWith (by simp [length_values, length_spans])]

theorem top_of_lt {k : FrameStack V S} {n : Nat} (h : k.items.length < n) :
    k.top n = .error (.viewTooDeep n k.items.length) := by
  rw [← depth_eq] at h ⊢
  have hs : k.states.top n = .error (.viewTooDeep n k.depth) := if_neg (Nat.not_le.2 h)
  simp only [top, hs]
  rfl

theorem items_of_top {k : FrameStack V S} {n : Nat} {frames : List (Frame V S)}
    (h : k.top n = .ok frames) :
    k.items = frames.reverse ++ k.items.drop n ∧ frames.length = n := by
  by_cases hn : n ≤ k.items.length
  · rw [top_of_le hn, Except.ok.injEq] at h
    simp [← h, hn]
  · simp [top_of_lt (Nat.not_le.1 hn)] at h

theorem discard_of_le {k : FrameStack V S} {n : Nat} (h : n ≤ k.items.length) :
    k.discard n = .ok (k.drop n) := by
  rw [discard, if_pos (by rwa [depth_eq])]

end FrameStack

end ShiftReduce
