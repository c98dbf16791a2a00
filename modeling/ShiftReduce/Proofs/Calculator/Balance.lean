import ShiftReduce.Proofs.Calculator.Termination
import ShiftReduce.Proofs.Machine.Counters
import ShiftReduce.Proofs.Machine.Growth

namespace ShiftReduce.Calculator

variable {σ α V S φ : Type} [Merge S] {m : Machine σ α V S φ}
  {feed : Supply m.scanner m.tables.endTerminal} {x : σ} {a : α} {c d : Config σ α V S}

/-- A parse of the calculator in which each token of the supply has been shifted or discarded or is
still to be read. -/
structure Balanced (feed : Supply m.scanner m.tables.endTerminal) (x : σ) (a : α)
    (d : Config σ α V S) : Prop where
  current : m.Current (m.init x a) d
  linked : Linked d.stack.items
  count : d.stats.shifts + d.stats.discarded + (feed.input d).length = (feed.pending x).length

namespace Balanced

theorem opening (hd : 0 < m.maxDepth) : Balanced feed x a (m.opening x a) where
  current := .reaches hd .refl
  linked := .opening x a
  count := Nat.zero_add _

theorem step (h : Balanced feed x a c) (hm : m.tables = tables) (hs : m.step c = .ok d) :
    Balanced feed x a d where
  current := by
    have hstep := Machine.step_current h.current
    rwa [hs] at hstep
  linked := h.linked.step hm hs
  count := (count_step feed hm h.linked hs).trans h.count

theorem reaches (hm : m.tables = tables) (hd : 0 < m.maxDepth)
    (hr : m.Reaches (m.opening x a) c) : Balanced feed x a c :=
  hr.preserves (fun h hs => h.step hm hs) (.opening hd)

theorem fetched (h : Balanced feed x a c) : Balanced feed x a (m.fetched c) where
  current := h.current.fetched
  linked := by
    rw [Machine.stack_fetched]
    exact h.linked
  count := by
    rw [Machine.shifts_fetched, Machine.discarded_fetched, feed.input_fetched]
    exact h.count

/-- As many tokens were shifted as were used up in this way, so the end is not among them. -/
theorem ne_end (h : Balanced feed x a c) :
    ∀ p ∈ told Event.shift? c.trace, p.1 ≠ m.tables.endTerminal := by
  have hrecorded := h.current.recorded
  have hspent := congrArg List.length (feed.pending_eq_spent hrecorded.chronicle.lawful)
  obtain ⟨-, hshifts, -, hdiscarded⟩ :=
    Machine.stats_account (m := m) (c := m.init x a) c.trace
  simp only [hrecorded.account] at hshifts hdiscarded
  rw [feed.left_account hrecorded, List.length_append, length_told_spent?, List.length_map,
    List.length_map] at hspent
  have hcount : _ = (feed.pending (m.init x a).scanner).length := h.count
  have hall := List.length_filter_eq_length_iff.1 (by omega :
    ((told Event.shift? c.trace).filter fun p => p.1 ≠ m.tables.endTerminal).length =
      (told Event.shift? c.trace).length)
  simpa using hall

end Balanced

end ShiftReduce.Calculator
