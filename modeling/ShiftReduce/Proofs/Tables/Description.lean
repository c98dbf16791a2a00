import Mathlib.Algebra.Group.Int.Defs
import Mathlib.Algebra.Group.Nat.Defs
import ShiftReduce.Proofs.OrderedMap
import ShiftReduce.State

namespace ShiftReduce

namespace Action

/-- What a cell that was written for an action is read as. The number of a state may have a bit more
than a cell has room for: a shift to such a state is read as a reduction. -/
def readBack : Action → Action
  | shift target =>
    if target.id.toNat < 2 ^ 31 then shift target
    else reduce ⟨(2 ^ 32 - target.id.toNat).toUInt16⟩
  | a => a

def Fits (a : Action) : Prop := ∀ target, a = shift target → target.id.toNat < 2 ^ 31

theorem readBack_eq_self_iff (a : Action) : a.readBack = a ↔ a.Fits := by
  cases a <;> simp [readBack, Fits]

theorem decode_of_pos {c : Cell} (h : 0 < c.toInt) : decode c = shift ⟨c.toUInt32⟩ := by
  have hne : c ≠ 0 := by
    rintro rfl
    simp at h
  have hpos : 0 < c := by rwa [Int32.lt_iff_toInt_lt, Int32.toInt_zero]
  rw [decode, if_neg hne, if_pos hpos]

theorem decode_of_neg {c : Cell} (h : c.toInt < 0) :
    decode c = reduce ⟨c.toInt.natAbs.toUInt16⟩ := by
  have hne : c ≠ 0 := by
    rintro rfl
    simp at h
  have hpos : ¬0 < c := by
    rw [Int32.lt_iff_toInt_lt, Int32.toInt_zero]
    omega
  rw [decode, if_neg hne, if_neg hpos]

/-- The bits of a state number as those of a cell. -/
theorem toInt_toInt32 (n : UInt32) :
    n.toInt32.toInt = if n.toNat < 2 ^ 31 then (n.toNat : Int) else n.toNat - 2 ^ 32 := by
  have hbits : n.toInt32.toInt = if 2 * n.toNat < 2 ^ 32 then (n.toNat : Int)
      else n.toNat - 2 ^ 32 := BitVec.toInt_eq_toNat_cond _
  rw [hbits]
  split <;> split <;> omega

theorem decode_of_encode {a : Action} {c : Cell} (h : a.encode = .ok c) :
    decode c = a.readBack := by
  cases a with
  | shift target =>
    have hlt := target.id.toNat_lt
    simp only [encode] at h
    split at h
    · simp at h
    · rename_i hne
      obtain rfl := Except.ok.inj h
      have hzero : target.id.toNat ≠ 0 := fun hz => hne (UInt32.toNat_inj.1 hz)
      have hvalue := toInt_toInt32 target.id
      by_cases hfits : target.id.toNat < 2 ^ 31
      · rw [if_pos hfits] at hvalue
        rw [decode_of_pos (by omega), UInt32.toUInt32_toInt32, readBack, if_pos hfits]
      · rw [if_neg hfits] at hvalue
        have habs : target.id.toInt32.toInt.natAbs = 2 ^ 32 - target.id.toNat := by omega
        rw [decode_of_neg (by omega), habs, readBack, if_neg hfits]
  | reduce rule =>
    have hlt := rule.id.toNat_lt
    simp only [encode] at h
    split at h
    · simp at h
    · rename_i hne
      obtain rfl := Except.ok.inj h
      have hzero : rule.id.toNat ≠ 0 := fun hz => hne (UInt16.toNat_inj.1 hz)
      have hvalue : (-rule.id.toUInt32.toInt32).toInt = -(rule.id.toNat : Int) := by
        rw [Int32.toInt_neg, toInt_toInt32, UInt16.toNat_toUInt32, if_pos (by omega)]
        exact Int.bmod_eq_of_le (by omega) (by omega)
      have habs : (-rule.id.toUInt32.toInt32).toInt.natAbs = rule.id.toNat := by omega
      rw [decode_of_neg (by omega), habs]
      simp [readBack]
  | error =>
    obtain rfl := Except.ok.inj h
    rfl

/-- A shift to the start state and a reduction by rule 0 cannot be written as a cell. -/
theorem exists_encode_iff (a : Action) :
    (∃ c, a.encode = .ok c) ↔ a ≠ shift .start ∧ a ≠ reduce ⟨0⟩ := by
  cases a with
  | shift target =>
    obtain ⟨id⟩ := target
    by_cases h : id = 0 <;> simp [encode, StateId.start, h]
  | reduce rule =>
    obtain ⟨id⟩ := rule
    by_cases h : id = 0 <;> simp [encode, h]
  | error => simp [encode]

end Action

inductive TypedEntry
  | on (t : Terminal) (a : Action)
  | otherwise (a : Action)
  | goto (n : Nonterminal) (target : StateId)

namespace TypedEntry

def entry : TypedEntry → StateEntry
  | on t a => .action t a
  | otherwise a => .defaultAction a
  | goto n target => .goto n target

def action? : TypedEntry → Option Action
  | on _ a | otherwise a => some a
  | goto _ _ => none

def terminal? : TypedEntry → Option Terminal
  | on t _ => some t
  | _ => none

def actionFor? (t : Terminal) : TypedEntry → Option Action
  | on t' a => if t' = t then some a else none
  | _ => none

def default? : TypedEntry → Option Action
  | otherwise a => some a
  | _ => none

def targetFor? (n : Nonterminal) : TypedEntry → Option StateId
  | goto n' target => if n' = n then some target else none
  | _ => none

variable {α : Type} (f : TypedEntry → Option α) (lines : List TypedEntry)

def last? : Option α := lines.reverse.findSome? f

theorem last?_concat (line : TypedEntry) :
    last? f (lines ++ [line]) = (f line).or (last? f lines) := by
  simp only [last?, List.reverse_append, List.reverse_singleton, List.singleton_append,
    List.findSome?_cons]
  cases f line <;> rfl

/-- The action that a description gives for a terminal: the last one given for the terminal itself,
or else the last default, or else an error. -/
def inForce (t : Terminal) : Action :=
  ((last? (actionFor? t) lines).or (last? default? lines)).getD .error

def describe : Except Unencodable State := State.ofEntries (lines.map entry)

theorem eraseDups_concat {κ : Type} [DecidableEq κ] (l : List κ) (k : κ) :
    (l ++ [k]).eraseDups = if k ∈ l then l.eraseDups else l.eraseDups ++ [k] := by
  rw [List.eraseDups_append]
  by_cases hk : k ∈ l
  · simp [List.removeAll, hk]
  · simp [List.removeAll, hk, List.eraseDups_cons]

/-- How a state stands to the lines that it was described by. -/
structure Describes (s : State) : Prop where
  entry : ∀ t, (s.entry t).map Action.decode =
    (last? (actionFor? t) lines).map Action.readBack
  fallback : Action.decode s.fallback = ((last? default? lines).getD .error).readBack
  goto : ∀ n, s.gotoFor n = last? (targetFor? n) lines
  keys : s.actions.keys = (lines.filterMap terminal?).eraseDups

variable {lines} {s s' : State}

theorem describes_nil : Describes [] {} := ⟨fun _ => rfl, rfl, fun _ => rfl, rfl⟩

/-- What a line with an action does is done with the cell for it. -/
theorem exists_cell {a : Action} {f : Cell → State}
    (h : (a.encode >>= fun c => .ok (f c)) = .ok s) :
    ∃ c, Action.decode c = a.readBack ∧ s = f c := by
  cases hc : a.encode with
  | error e =>
    rw [hc] at h
    cases h
  | ok c =>
    rw [hc] at h
    exact ⟨c, Action.decode_of_encode hc, (Except.ok.inj h).symm⟩

/-- Each line adds what it says and leaves everything else. -/
theorem Describes.add (h : Describes lines s) {line : TypedEntry}
    (hadd : s.add line.entry = .ok s') : Describes (lines ++ [line]) s' := by
  cases line with
  | on t a =>
    obtain ⟨c, hc, rfl⟩ := exists_cell hadd
    refine ⟨fun t' => ?_, ?_, fun n => ?_, ?_⟩
    · rw [last?_concat, State.entry, OrderedMap.get?_insert]
      by_cases ht : t = t'
      · simp [actionFor?, ht, hc]
      · have hnone : actionFor? t' (on t a) = none := if_neg ht
        rw [if_neg ht, hnone]
        exact h.entry t'
    · rw [last?_concat]
      exact h.fallback
    · rw [last?_concat]
      exact h.goto n
    · have hterminals :
          (lines ++ [on t a]).filterMap terminal? = lines.filterMap terminal? ++ [t] := by
        simp [terminal?]
      rw [hterminals, eraseDups_concat, OrderedMap.keys_insert, h.keys]
      simp only [List.mem_eraseDups]
  | otherwise a =>
    obtain ⟨c, hc, rfl⟩ := exists_cell hadd
    refine ⟨fun t => ?_, ?_, fun n => ?_, ?_⟩
    · rw [last?_concat]
      exact h.entry t
    · rw [last?_concat]
      exact hc
    · rw [last?_concat]
      exact h.goto n
    · simpa [List.filterMap_cons, terminal?] using h.keys
  | goto n target =>
    obtain rfl := Except.ok.inj hadd
    refine ⟨fun t => ?_, ?_, fun n' => ?_, ?_⟩
    · rw [last?_concat]
      exact h.entry t
    · rw [last?_concat]
      exact h.fallback
    · rw [last?_concat, State.gotoFor, OrderedMap.get?_insert]
      by_cases hn : n = n'
      · simp [targetFor?, hn]
      · have hnone : targetFor? n' (TypedEntry.goto n target) = none := if_neg hn
        rw [if_neg hn, hnone]
        exact h.goto n'
    · simpa [List.filterMap_cons, terminal?] using h.keys

theorem Describes.addAll {before : List TypedEntry} (h : Describes before s)
    (hadd : (lines.map TypedEntry.entry).foldlM State.add s = .ok s') :
    Describes (before ++ lines) s' := by
  induction lines generalizing before s with
  | nil =>
    obtain rfl := Except.ok.inj hadd
    rwa [List.append_nil]
  | cons line lines ih =>
    rw [List.map_cons, List.foldlM_cons] at hadd
    cases hline : s.add line.entry with
    | error e =>
      rw [hline] at hadd
      cases hadd
    | ok s₁ =>
      rw [hline] at hadd
      have hrest := ih (h.add hline) hadd
      rwa [List.append_assoc, List.singleton_append] at hrest

theorem describes_of_describe (h : describe lines = .ok s) : Describes lines s :=
  describes_nil.addAll h

/-- A terminal is looked up as the action in force for it is read back. -/
theorem Describes.decode_lookup (h : Describes lines s) (t : Terminal) :
    Action.decode (s.lookup t) = (inForce lines t).readBack := by
  have hentry := h.entry t
  unfold State.lookup inForce
  cases hlast : last? (actionFor? t) lines with
  | some a =>
    obtain ⟨c, hc, hdecode⟩ := Option.map_eq_some_iff.1 (hentry.trans (congrArg _ hlast))
    rw [hc]
    exact hdecode
  | none =>
    have hnone := Option.map_eq_none_iff.1 (hentry.trans (congrArg _ hlast))
    rw [hnone]
    exact h.fallback

theorem Describes.hasLookahead_iff (h : Describes lines s) :
    s.hasLookahead = true ↔ ∃ t a, on t a ∈ lines := by
  have hkeys : s.hasLookahead = true ↔ ∃ t, t ∈ s.actions.keys := by
    rw [State.hasLookahead, OrderedMap.isEmpty, OrderedMap.keys, Bool.not_eq_true',
      List.isEmpty_eq_false_iff_exists_mem]
    simp
  rw [hkeys, h.keys]
  refine exists_congr fun t => ?_
  rw [List.mem_eraseDups, List.mem_filterMap]
  constructor
  · rintro ⟨line, hline, hterminal⟩
    cases line with
    | on t' a =>
      obtain rfl : t' = t := Option.some.inj hterminal
      exact ⟨a, hline⟩
    | otherwise | goto => cases hterminal
  · rintro ⟨a, hline⟩
    exact ⟨_, hline, rfl⟩

theorem exists_add_iff (s : State) (line : TypedEntry) : (∃ s', s.add line.entry = .ok s') ↔
    ∀ a ∈ line.action?, a ≠ .shift .start ∧ a ≠ .reduce ⟨0⟩ := by
  have encodes {a : Action} {f : Cell → State} :
      (∃ s', (a.encode >>= fun c => .ok (f c)) = .ok s') ↔
        ∀ a' ∈ some a, a' ≠ .shift .start ∧ a' ≠ .reduce ⟨0⟩ := by
    simp only [Option.mem_def, Option.some.injEq, forall_eq', ← Action.exists_encode_iff]
    cases a.encode with
    | error e => exact ⟨fun ⟨_, h⟩ => (by cases h), fun ⟨_, h⟩ => (by cases h)⟩
    | ok c => exact ⟨fun _ => ⟨c, rfl⟩, fun _ => ⟨f c, rfl⟩⟩
  cases line with
  | on t a => exact encodes
  | otherwise a => exact encodes
  | goto n target => exact ⟨fun _ _ h => (by cases h), fun _ => ⟨_, rfl⟩⟩

/-- A state is built unless an action is given that no cell stands for. -/
theorem exists_addAll_iff (s : State) (lines : List TypedEntry) :
    (∃ s', (lines.map TypedEntry.entry).foldlM State.add s = .ok s') ↔
      ∀ line ∈ lines, ∀ a ∈ line.action?, a ≠ .shift .start ∧ a ≠ .reduce ⟨0⟩ := by
  induction lines generalizing s with
  | nil => exact ⟨fun _ _ h => (by cases h), fun _ => ⟨s, rfl⟩⟩
  | cons line lines ih =>
    rw [List.map_cons, List.foldlM_cons, List.forall_mem_cons, ← exists_add_iff s]
    cases s.add line.entry with
    | error e => exact ⟨fun ⟨_, h⟩ => (by cases h), fun ⟨⟨_, h⟩, _⟩ => (by cases h)⟩
    | ok s₁ => exact (ih s₁).trans ⟨fun h => ⟨⟨s₁, rfl⟩, h⟩, And.right⟩

/-- The last word counts. A state is built from its lines unless one of them gives an action that no
cell stands for. Then each terminal has the action that is in force for it if a cell has room for
that action, and a shift to a state whose number is too large for a cell is read as a reduction.
Each nonterminal has its last goto. The terminals with an action of their own stand in the order in
which they came first, each once. -/
theorem described_as_given (lines : List TypedEntry) :
    ((∃ s, describe lines = .ok s) ↔
      ∀ line ∈ lines, ∀ a ∈ line.action?, a ≠ .shift .start ∧ a ≠ .reduce ⟨0⟩) ∧
    (∀ s, describe lines = .ok s →
      (∀ t, Action.decode (s.lookup t) = inForce lines t ↔ (inForce lines t).Fits) ∧
      (∀ t target, inForce lines t = .shift target → 2 ^ 31 ≤ target.id.toNat →
        Action.decode (s.lookup t) = .reduce ⟨(2 ^ 32 - target.id.toNat).toUInt16⟩) ∧
      (∀ n, s.gotoFor n = last? (targetFor? n) lines) ∧
      (s.hasLookahead = true ↔ ∃ t a, on t a ∈ lines) ∧
      s.actions.keys = (lines.filterMap terminal?).eraseDups) ∧
    ∀ a c, a.encode = .ok c → (Action.decode c = a ↔ a.Fits) := by
  refine ⟨exists_addAll_iff {} lines, fun s h => ?_, fun a c h => ?_⟩
  · have hs := describes_of_describe h
    refine ⟨fun t => ?_, fun t target htarget hlarge => ?_, hs.goto, hs.hasLookahead_iff, hs.keys⟩
    · rw [hs.decode_lookup]
      exact Action.readBack_eq_self_iff _
    · rw [hs.decode_lookup, htarget, Action.readBack, if_neg (Nat.not_lt.2 hlarge)]
  · rw [Action.decode_of_encode h]
    exact Action.readBack_eq_self_iff a

/-- A terminal that is given twice keeps its place and has its last action. -/
theorem described_as_given_repeated :
    let lines := [on ⟨3⟩ (.shift ⟨4⟩), otherwise (.reduce ⟨1⟩), on ⟨5⟩ (.reduce ⟨2⟩),
      goto ⟨1⟩ ⟨6⟩, on ⟨3⟩ (.shift ⟨2147483647⟩), goto ⟨1⟩ ⟨7⟩]
    ∃ s, describe lines = .ok s ∧ s.actions.keys = [⟨3⟩, ⟨5⟩] ∧
      Action.decode (s.lookup ⟨3⟩) = .shift ⟨2147483647⟩ ∧
      Action.decode (s.lookup ⟨9⟩) = .reduce ⟨1⟩ ∧ s.gotoFor ⟨1⟩ = some ⟨7⟩ := by
  intro lines
  obtain ⟨hbuilt, hgiven, -⟩ := described_as_given lines
  obtain ⟨s, hs⟩ := hbuilt.2 (by decide)
  obtain ⟨hactions, -, hgotos, -, hkeys⟩ := hgiven s hs
  refine ⟨s, hs, hkeys.trans (by decide), ?_, ?_, (hgotos ⟨1⟩).trans (by decide)⟩
  · refine (hactions ⟨3⟩).2 fun target htarget => ?_
    obtain rfl : StateId.mk 2147483647 = target := Action.shift.inj htarget
    decide
  · refine (hactions ⟨9⟩).2 fun target htarget => ?_
    cases htarget

/-- Both shifts get a cell, the second one that of a rule which a table set may well have. -/
theorem shift_read_as_reduction :
    let lines := [on ⟨3⟩ (.shift ⟨2147483648⟩), on ⟨4⟩ (.shift ⟨4294967293⟩)]
    ∃ s, describe lines = .ok s ∧
      inForce lines ⟨3⟩ = .shift ⟨2147483648⟩ ∧ Action.decode (s.lookup ⟨3⟩) = .reduce ⟨0⟩ ∧
      inForce lines ⟨4⟩ = .shift ⟨4294967293⟩ ∧ Action.decode (s.lookup ⟨4⟩) = .reduce ⟨3⟩ := by
  exact ⟨_, rfl, rfl, by decide, rfl, by decide⟩

end TypedEntry

end ShiftReduce
