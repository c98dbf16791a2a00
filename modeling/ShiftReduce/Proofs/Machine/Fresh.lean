import ShiftReduce.Proofs.Machine.Congruence
import ShiftReduce.Proofs.Machine.DepthLimit

namespace ShiftReduce.Machine

variable {σ α V S φ : Type}

/-- A parse that ended by itself leaves neither frames nor a buffered token. -/
theorem cleared_of_ended {h : Halt σ α V S φ}
    (hv : (∃ v, h.verdict = .accepted v) ∨ ∃ e, h.verdict = .failed e) :
    (finish h).config.stack.items = [] ∧ (finish h).config.lookahead = none := by
  unfold finish
  rcases hv with ⟨v, hv⟩ | ⟨e, hv⟩
  · simp [hv, reset]
  · simp [hv, reset]

variable [Merge S]

def sameness (m : Machine σ α V S φ) : m.Congruence where
  scanners _ x y := x = y
  actors a a' := a = a'
  places s s' := s = s'
  next := by
    rintro x _ rfl
    exact ⟨rfl, rfl⟩
  value := by
    rintro t x _ rfl
    exact ⟨rfl, rfl⟩
  report := by
    rintro t x _ message rfl
    rfl
  drop h _ := h
  span h := by rw [h]
  merge h h' := by rw [h, h']
  rename h := by rw [h]
  reduce := by
    rintro r rule values spans spans' s _ a _ given hspans rfl rfl
    rw [List.forall₂_eq_eq_eq] at hspans
    subst hspans
    exact (Agrees.refl _).imp (by rintro p _ rfl; exact ⟨rfl, rfl, rfl⟩) fun _ _ => id

variable {m : Machine σ α V S φ} {c d : Config σ α V S}

theorem eq_of_mirrors {a b : Callback V S} (h : m.sameness.Mirrors a b) : a = b := by
  cases h with
  | next t => rfl
  | value v => rfl
  | report message places => exact congrArg _ places
  | reduce r rule values parts whole given made control =>
    have hparts := parts
    change List.Forall₂ Eq _ _ at hparts
    rw [List.forall₂_eq_eq_eq] at hparts
    rw [hparts, show _ = _ from whole]

/-- The configurations that a machine can be in between two parses: a new one, the one that a parse
leaves that ended by itself, whatever came of it, and one whose scanner and actions were
replaced. -/
inductive Idle (m : Machine σ α V S φ) : Config σ α V S → Prop
  | new (x : σ) (a : α) : Idle m (m.init x a)
  | accepted {c : Config σ α V S} {n : Nat} {v : V} (idle : Idle m c)
      (verdict : (m.parse n c).verdict = .accepted v) : Idle m (m.parse n c).config
  | failed {c : Config σ α V S} {n : Nat} {e : ParseError} (idle : Idle m c)
      (verdict : (m.parse n c).verdict = .failed e) : Idle m (m.parse n c).config
  | handed {c : Config σ α V S} (x : σ) (a : α) (idle : Idle m c) :
      Idle m { c with scanner := x, actions := a }

theorem Idle.cleared (h : m.Idle c) : c.stack.items = [] ∧ c.lookahead = none := by
  induction h with
  | new x a => exact ⟨rfl, rfl⟩
  | accepted _ verdict => exact cleared_of_ended (Or.inl ⟨_, verdict_finish _ ▸ verdict⟩)
  | failed _ verdict => exact cleared_of_ended (Or.inr ⟨_, verdict_finish _ ▸ verdict⟩)
  | handed x a _ ih => exact ih

/-- Parses that cannot be told apart from without: they end the same way with the same counters,
they make the same calls, and they leave the scanner and the actions in the same states. -/
structure Indiscernible (h h' : Halt σ α V S φ) : Prop where
  verdict : h'.verdict = h.verdict
  stats : h'.config.stats = h.config.stats
  callbacks : told Event.callback? h'.config.trace = told Event.callback? h.config.trace
  scanner : h'.config.scanner = h.config.scanner
  actions : h'.config.actions = h.config.actions

/-- Every parse starts afresh: whatever parses were made before and however they ended, the next one
is the parse that a new machine makes on the present states of the scanner and of the actions, and
no token is left over for it. -/
theorem parses_start_fresh (h : m.Idle c) :
    c.lookahead = none ∧
      ∀ n, Indiscernible (m.parse n (m.init c.scanner c.actions)) (m.parse n c) := by
  obtain ⟨hitems, hlookahead⟩ := h.cleared
  refine ⟨hlookahead, fun n => ?_⟩
  obtain ⟨hverdict, hrelates⟩ := m.sameness.progress_ends
    (c := m.init c.scanner c.actions) (d := c) rfl rfl rfl hitems n
  have hcallbacks := hrelates.callbacks.imp fun _ _ => eq_of_mirrors
  rw [List.forall₂_eq_eq_eq] at hcallbacks
  constructor
  · rw [parse_eq_finish, parse_eq_finish, verdict_finish, verdict_finish, hverdict]
  · rw [parse_eq_finish, parse_eq_finish, stats_finish, stats_finish, hrelates.stats]
  · rw [parse_eq_finish, parse_eq_finish, callbacks_finish, callbacks_finish, hcallbacks]
  · rw [parse_eq_finish, parse_eq_finish, scanner_finish, scanner_finish]
    exact hrelates.scanner.symm
  · rw [parse_eq_finish, parse_eq_finish, actions_finish, actions_finish]
    exact hrelates.actions.symm

/-- A parse that ends at the limit on the depth with a token that it did not shift. -/
theorem parses_start_fresh_hoarder :
    ((hoarder.limitedTo 2).progress 9 (hoarder.init 0 ())).config.lookahead = some ⟨3⟩ ∧
    (hoarder.limitedTo 2).Idle ((hoarder.limitedTo 2).parse 9 (hoarder.init 0 ())).config ∧
    Indiscernible ((hoarder.limitedTo 2).parse 9 (hoarder.init 2 ()))
      ((hoarder.limitedTo 2).parse 9
        ((hoarder.limitedTo 2).parse 9 (hoarder.init 0 ())).config) := by
  have hidle : (hoarder.limitedTo 2).Idle
      ((hoarder.limitedTo 2).parse 9 (hoarder.init 0 ())).config :=
    .failed (e := .stackOverflow 2) (.new 0 ()) (by decide)
  exact ⟨by decide, hidle, (parses_start_fresh hidle).2 9⟩

end ShiftReduce.Machine
