import Mathlib.Data.List.Induction
import Mathlib.Order.Bounds.Defs
import Mathlib.Order.Monotone.Basic
import ShiftReduce.Stack

namespace ShiftReduce.Stack

variable {α : Type}

inductive Op (α : Type)
  | push (a : α)
  | pop
  | peek
  | get (i : Nat)
  | top (n : Nat)
  | discard (n : Nat)
  | clear

inductive Answer (α : Type)
  | done
  | element (a : α)
  | elements (l : List α)

namespace Op

/-- The fault of an operation at a depth that it has no meaning for. -/
def fault? (depth : Nat) : Op α → Option StackFault
  | push _ | clear => none
  | pop => if 0 < depth then none else some .popEmpty
  | peek => if 0 < depth then none else some .peekEmpty
  | get i => if i < depth then none else some (.noSuchIndex i depth)
  | top n => if n ≤ depth then none else some (.viewTooDeep n depth)
  | discard n => if n ≤ depth then none else some (.discardTooDeep n depth)

def onList (l : List α) : Op α → Option (Answer α × List α)
  | push a => some (.done, l ++ [a])
  | pop => l.getLast?.map fun a => (.element a, l.dropLast)
  | peek => l.getLast?.map fun a => (.element a, l)
  | get i => l[i]?.map fun a => (.element a, l)
  | top n => if n ≤ l.length then some (.elements (l.drop (l.length - n)), l) else none
  | discard n => if n ≤ l.length then some (.done, l.take (l.length - n)) else none
  | clear => some (.done, [])

/-- The list after an operation, or as it is if the operation has no meaning for it. -/
def next (l : List α) (op : Op α) : List α := ((op.onList l).map Prod.snd).getD l

def contents (ops : List (Op α)) : List α := ops.foldl next []

def heights (ops : List (Op α)) : Set Nat :=
  {n | ∃ before, before <+: ops ∧ (contents before).length = n}

end Op

def call (s : Stack α) : Op α → Except StackFault (Answer α × Stack α)
  | .push a => .ok (.done, s.push a)
  | .pop => s.pop.map fun p => (.element p.1, p.2)
  | .peek => s.peek.map fun a => (.element a, s)
  | .get i => (s.get i).map fun a => (.element a, s)
  | .top n => (s.top n).map fun l => (.elements l, s)
  | .discard n => (s.discard n).map fun s' => (.done, s')
  | .clear => .ok (.done, s.clear)

def next (s : Stack α) (op : Op α) : Stack α :=
  match s.call op with
  | .ok p => p.2
  | .error _ => s

def after (s : Stack α) (ops : List (Op α)) : Stack α := ops.foldl next s

/-- The rooms that a stack has one after the other as it grows from the room `c`. -/
def rooms (c : Nat) : Nat → Nat
  | 0 => c
  | k + 1 => rooms c k + max (rooms c k) 16

/-- How an operation that has a meaning changes a stack: it pushes an element, or the room stays as
it is and the stack gets no deeper. -/
inductive Changes (s : Stack α) : Stack α → Prop
  | pushed (a : α) : Changes s (s.push a)
  | kept {s' : Stack α} (depth : s'.depth ≤ s.depth) (capacity : s'.capacity = s.capacity) :
      Changes s s'

inductive Turns (s : Stack α) (op : Op α) : Except StackFault (Answer α × Stack α) → Prop
  | ok {r : Answer α} {s' : Stack α} (meant : op.fault? s.depth = none)
      (contents : op.onList s.toList = some (r, s'.toList)) (changes : s.Changes s') :
      Turns s op (.ok (r, s'))
  | error {f : StackFault} (unmeant : op.fault? s.depth = some f)
      (contents : op.onList s.toList = none) : Turns s op (.error f)

theorem Changes.refl (s : Stack α) : s.Changes s := .kept (Nat.le_refl _) rfl

theorem Changes.drop (s : Stack α) (n : Nat) : s.Changes (s.drop n) :=
  .kept (Nat.sub_le _ _) rfl

section Call

variable (s : Stack α)

theorem toList_drop (n : Nat) : (s.drop n).toList = s.toList.take (s.depth - n) := by
  rw [toList, toList, drop, List.reverse_drop, s.depth_eq]

theorem pop_turns : s.Turns .pop (s.call .pop) := by
  have hdepth := s.depth_eq
  rw [call, pop]
  cases hs : s.items with
  | nil => exact .error (by simp [Op.fault?, hdepth, hs]) (by simp [Op.onList, toList, hs])
  | cons a rest =>
    refine .ok (by simp [Op.fault?, hdepth, hs]) ?_ (.drop s 1)
    simp [Op.onList, toList, drop, hs]

theorem peek_turns : s.Turns .peek (s.call .peek) := by
  have hdepth := s.depth_eq
  rw [call, peek]
  cases hs : s.items with
  | nil => exact .error (by simp [Op.fault?, hdepth, hs]) (by simp [Op.onList, toList, hs])
  | cons a rest =>
    exact .ok (by simp [Op.fault?, hdepth, hs]) (by simp [Op.onList, toList, hs]) (.refl s)

theorem get_turns (i : Nat) : s.Turns (.get i) (s.call (.get i)) := by
  have hlength := length_toList s
  rw [call, get]
  cases hi : s.toList[i]? with
  | none =>
    have hout : ¬i < s.depth := by simpa [hlength] using hi
    exact .error (if_neg hout) (by rw [Op.onList, hi]; rfl)
  | some a =>
    have hin : i < s.depth := by
      rw [← hlength]
      exact (List.getElem?_eq_some_iff.1 hi).1
    exact .ok (if_pos hin) (by rw [Op.onList, hi]; rfl) (.refl s)

theorem top_turns (n : Nat) : s.Turns (.top n) (s.call (.top n)) := by
  have hlength := length_toList s
  rw [call, top]
  by_cases hn : n ≤ s.depth
  · have htop : (s.items.take n).reverse = s.toList.drop (s.depth - n) := by
      rw [toList, List.reverse_take, s.depth_eq]
    rw [if_pos hn]
    exact .ok (if_pos hn) (by rw [Op.onList, hlength, if_pos hn, htop]) (.refl s)
  · rw [if_neg hn]
    exact .error (if_neg hn) (by rw [Op.onList, hlength, if_neg hn])

theorem discard_turns (n : Nat) : s.Turns (.discard n) (s.call (.discard n)) := by
  have hlength := length_toList s
  rw [call, discard]
  by_cases hn : n ≤ s.depth
  · rw [if_pos hn]
    exact .ok (if_pos hn) (by rw [Op.onList, hlength, if_pos hn, toList_drop]) (.drop s n)
  · rw [if_neg hn]
    exact .error (if_neg hn) (by rw [Op.onList, hlength, if_neg hn])

/-- What an operation does to a stack, whatever is on it. -/
theorem call_turns (op : Op α) : s.Turns op (s.call op) := by
  cases op with
  | push a => exact .ok rfl (by simp [Op.onList]) (.pushed a)
  | pop => exact pop_turns s
  | peek => exact peek_turns s
  | get i => exact get_turns s i
  | top n => exact top_turns s n
  | discard n => exact discard_turns s n
  | clear => exact .ok rfl rfl (.kept (Nat.zero_le _) rfl)

theorem call_eq_error_iff (op : Op α) (f : StackFault) :
    s.call op = .error f ↔ op.fault? s.depth = some f := by
  have hturns := call_turns s op
  generalize s.call op = x at hturns
  cases hturns with
  | ok meant => simp [meant]
  | error unmeant => simp [unmeant]

/-- An operation gives the same on the stack as on the list of its elements. -/
theorem call_onList (op : Op α) :
    (s.call op).toOption.map (fun p => (p.1, p.2.toList)) = op.onList s.toList := by
  have hturns := call_turns s op
  generalize s.call op = x at hturns
  cases hturns with
  | ok meant contents => exact contents.symm
  | error unmeant contents => exact contents.symm

theorem next_changes (op : Op α) : s.Changes (s.next op) := by
  have hturns := call_turns s op
  unfold next
  generalize s.call op = x at hturns
  cases hturns with
  | ok meant contents changes => exact changes
  | error => exact .refl s

theorem toList_next (op : Op α) : (s.next op).toList = op.next s.toList := by
  have hlist := call_onList s op
  unfold next Op.next
  rw [← hlist]
  cases s.call op <;> rfl

end Call

section Room

variable {s s' : Stack α}

theorem capacity_push (s : Stack α) (a : α) : (s.push a).capacity =
    if s.depth = s.capacity then s.capacity + max s.capacity 16 else s.capacity := rfl

theorem rooms_monotone (c : Nat) : Monotone (rooms c) :=
  monotone_nat_of_le_succ fun k => Nat.le_add_right (rooms c k) _

/-- A room that is larger than another one has been reached by growing from it at least once. -/
theorem rooms_succ_le {c j k : Nat} (h : rooms c k < rooms c j) : rooms c (k + 1) ≤ rooms c j :=
  rooms_monotone c ((rooms_monotone c).reflect_lt h)

theorem Changes.capacity_le (h : s.Changes s') : s.capacity ≤ s'.capacity := by
  cases h with
  | pushed a =>
    rw [capacity_push]
    split <;> omega
  | kept depth capacity => exact Nat.le_of_eq capacity.symm

/-- A stack that grows at least doubles its room. -/
theorem Changes.doubles (h : s.Changes s') (hne : s'.capacity ≠ s.capacity) :
    2 * s.capacity ≤ s'.capacity := by
  cases h with
  | pushed a =>
    rw [capacity_push] at hne ⊢
    split
    · omega
    · rename_i hroom
      exact absurd (if_neg hroom) hne
  | kept depth capacity => exact absurd capacity hne

theorem Changes.depth_le (h : s.Changes s') (hs : s.depth ≤ s.capacity) :
    s'.depth ≤ s'.capacity := by
  cases h with
  | pushed a =>
    rw [capacity_push, depth_push]
    split <;> omega
  | kept depth capacity => omega

/-- The room is the first one that `h` elements fit in. -/
def Snug (c h : Nat) (s : Stack α) : Prop :=
  IsLeast {n | n ∈ Set.range (rooms c) ∧ h ≤ n} s.capacity

/-- A stack that is at most `h` deep grows only as far as it must. -/
theorem Changes.snug {c h : Nat} (hchanges : s.Changes s') (hs : Snug c h s) (hh : s.depth ≤ h) :
    Snug c (max h s'.depth) s' := by
  obtain ⟨⟨⟨k, hk⟩, hroom⟩, hleast⟩ := hs
  cases hchanges with
  | kept depth capacity =>
    rw [Snug, capacity, Nat.max_eq_left (Nat.le_trans depth hh)]
    exact ⟨⟨⟨k, hk⟩, hroom⟩, hleast⟩
  | pushed a =>
    rw [Snug, capacity_push, depth_push]
    split
    · -- The stack was full: of the rooms, only those behind the present one are large enough now.
      rename_i hfull
      refine ⟨⟨⟨k + 1, by rw [rooms, hk]⟩, by omega⟩, ?_⟩
      rintro n ⟨⟨j, rfl⟩, hn⟩
      have hlt : rooms c k < rooms c j := by omega
      have hnext := rooms_succ_le hlt
      rwa [rooms, hk] at hnext
    · refine ⟨⟨⟨k, hk⟩, by omega⟩, ?_⟩
      rintro n ⟨hrange, hn⟩
      exact hleast ⟨hrange, by omega⟩

end Room

section After

variable {c h : Nat} {s : Stack α} {ops : List (Op α)}

theorem after_concat (s : Stack α) (ops : List (Op α)) (op : Op α) :
    s.after (ops ++ [op]) = (s.after ops).next op := by
  rw [after, List.foldl_append]
  rfl

theorem toList_after (s : Stack α) (ops : List (Op α)) :
    (s.after ops).toList = ops.foldl Op.next s.toList := by
  induction ops generalizing s with
  | nil => rfl
  | cons op ops ih =>
    rw [List.foldl_cons, ← toList_next]
    exact ih (s.next op)

theorem depth_after (c : Nat) (ops : List (Op α)) :
    ((withCapacity c).after ops).depth = (Op.contents ops).length := by
  rw [← length_toList, toList_after]
  rfl

theorem depth_le_capacity (c : Nat) (ops : List (Op α)) :
    ((withCapacity c).after ops).depth ≤ ((withCapacity c).after ops).capacity := by
  induction ops using List.reverseRecOn with
  | nil => exact Nat.zero_le c
  | append_singleton ops op ih =>
    rw [after_concat]
    exact (next_changes _ op).depth_le ih

theorem isGreatest_heights_nil : IsGreatest (Op.heights ([] : List (Op α))) 0 := by
  refine ⟨⟨[], List.prefix_rfl, rfl⟩, ?_⟩
  rintro n ⟨before, hbefore, rfl⟩
  rw [List.prefix_nil.1 hbefore]
  exact Nat.le_refl 0

theorem isGreatest_heights_concat (hops : IsGreatest (Op.heights ops) h) (op : Op α) :
    IsGreatest (Op.heights (ops ++ [op])) (max h (Op.contents (ops ++ [op])).length) := by
  obtain ⟨⟨highest, hprefix, hhighest⟩, hbound⟩ := hops
  constructor
  · rcases Nat.le_total h (Op.contents (ops ++ [op])).length with hle | hle
    · exact ⟨ops ++ [op], List.prefix_rfl, (Nat.max_eq_right hle).symm⟩
    · rw [Nat.max_eq_left hle]
      exact ⟨highest, hprefix.trans (List.prefix_append ops [op]), hhighest⟩
  · rintro n ⟨before, hbefore, rfl⟩
    rcases List.prefix_concat_iff.1 hbefore with rfl | hbefore
    · exact Nat.le_max_right _ _
    · exact Nat.le_trans (hbound ⟨before, hbefore, rfl⟩) (Nat.le_max_left _ _)

/-- The greatest depth so far decides on the room. -/
theorem exists_snug (c : Nat) (ops : List (Op α)) :
    ∃ h, IsGreatest (Op.heights ops) h ∧ Snug c h ((withCapacity c).after ops) := by
  induction ops using List.reverseRecOn with
  | nil =>
    refine ⟨0, isGreatest_heights_nil, ⟨⟨0, rfl⟩, Nat.zero_le _⟩, ?_⟩
    rintro n ⟨⟨k, rfl⟩, -⟩
    exact rooms_monotone c (Nat.zero_le k)
  | append_singleton ops op ih =>
    obtain ⟨h, hgreatest, hsnug⟩ := ih
    refine ⟨_, isGreatest_heights_concat hgreatest op, ?_⟩
    have hdepth : ((withCapacity c).after ops).depth ≤ h := by
      rw [depth_after]
      exact hgreatest.2 ⟨ops, List.prefix_rfl, rfl⟩
    rw [← depth_after c, after_concat]
    exact (next_changes _ op).snug hsnug hdepth

/-- How a stack that was empty at first and had the room `c` stands to a plain list on which the
same operations were carried out. -/
structure Refines (c : Nat) (ops : List (Op α)) (s : Stack α) : Prop where
  contents : s.toList = Op.contents ops
  depth : s.depth = (Op.contents ops).length
  /-- The next operation gives the same on both. -/
  agrees : ∀ op,
    (s.call op).toOption.map (fun p => (p.1, p.2.toList)) = op.onList (Op.contents ops)
  /-- It faults if and only if it has no meaning at this depth. -/
  faults : ∀ op f, s.call op = .error f ↔ op.fault? (Op.contents ops).length = some f
  /-- Then it does nothing. -/
  unchanged : ∀ op f, s.call op = .error f → s.next op = s
  /-- There is room for all elements. -/
  fits : s.depth ≤ s.capacity
  /-- The room never shrinks. -/
  widens : ∀ op, s.capacity ≤ (s.next op).capacity
  doubles : ∀ op, (s.next op).capacity ≠ s.capacity → 2 * s.capacity ≤ (s.next op).capacity
  /-- It is the first one that the greatest depth so far fits in. -/
  capacity : ∃ h, IsGreatest (Op.heights ops) h ∧
    IsLeast {n | n ∈ Set.range (rooms c) ∧ h ≤ n} s.capacity

/-- Whatever operations are carried out, a stack is a list to whoever uses it, and its room is told
by the room that it began with and by the greatest depth so far. -/
theorem refines_list (c : Nat) (ops : List (Op α)) :
    Refines c ops ((withCapacity c).after ops) := by
  have hcontents : ((withCapacity c).after ops).toList = Op.contents ops := toList_after _ ops
  constructor
  case contents => exact hcontents
  case depth => exact depth_after c ops
  case agrees =>
    intro op
    rw [call_onList, hcontents]
  case faults =>
    intro op f
    rw [call_eq_error_iff, depth_after]
  case unchanged =>
    intro op f hf
    rw [next, hf]
  case fits => exact depth_le_capacity c ops
  case widens => exact fun op => (next_changes _ op).capacity_le
  case doubles => exact fun op => (next_changes _ op).doubles
  case capacity => exact exists_snug c ops

end After

end ShiftReduce.Stack
