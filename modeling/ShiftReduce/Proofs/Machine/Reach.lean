import Mathlib.Logic.Relation
import ShiftReduce.Proofs.Machine.Turn

namespace ShiftReduce.Machine

variable {σ α V S φ : Type} {m : Machine σ α V S φ} {c c' : Config σ α V S} {h : Halt σ α V S φ}

section Start

variable (m) (x : σ) (a : α)

/-- A parse that is about to take its first step. -/
def opening : Config σ α V S where
  scanner := x
  actions := a
  lastSpan := m.scanner.span x
  stack := FrameStack.empty.push ⟨.start, m.actions.blank, m.scanner.span x⟩

theorem items_opening :
    (m.opening x a).stack.items = [⟨.start, m.actions.blank, m.scanner.span x⟩] := rfl

theorem start_init (hd : 0 < m.maxDepth) : m.start (m.init x a) = .ok (m.opening x a) :=
  push_of_lt _ hd

theorem start_init_of_zero (hd : m.maxDepth = 0) : ∃ h : Halt σ α V S φ,
    m.start (m.init x a) = .error h ∧ h.verdict = .failed (.stackOverflow 0) ∧
      h.config.actions = a ∧ h.config.scanner = x := by
  refine ⟨_, push_of_le _ (by simp [hd]), ?_, rfl, rfl⟩
  simp [hd]

end Start

theorem verdict_finish (h : Halt σ α V S φ) : (finish h).verdict = h.verdict := by
  unfold finish
  split <;> rfl

theorem actions_finish (h : Halt σ α V S φ) : (finish h).config.actions = h.config.actions := by
  unfold finish
  split <;> rfl

theorem scanner_finish (h : Halt σ α V S φ) : (finish h).config.scanner = h.config.scanner := by
  unfold finish
  split <;> rfl

theorem stats_finish (h : Halt σ α V S φ) : (finish h).config.stats = h.config.stats := by
  unfold finish
  split <;> rfl

theorem rulesIn_finish (h : Halt σ α V S φ) :
    rulesIn (finish h).config.trace = rulesIn h.config.trace := by
  unfold finish
  split <;> simp [reset, Event.rule?]

theorem reportsIn_finish (h : Halt σ α V S φ) :
    reportsIn (finish h).config.trace = reportsIn h.config.trace := by
  unfold finish
  split <;> simp [reset, Event.report?]

theorem Recovers.ne_accepted {expected : List Terminal} (hr : m.Recovers c expected (.error h))
    (v : V) : h.verdict ≠ .accepted v := by
  cases hr <;> simp_all

variable [Merge S]

variable (m) in
def Reaches : Config σ α V S → Config σ α V S → Prop :=
  Relation.ReflTransGen fun c c' => m.step c = .ok c'

theorem turn_of_ok (hc : m.step c = .ok c') : m.Turn c (.ok c') := hc ▸ step_turn m c

theorem turn_of_error (hc : m.step c = .error h) : m.Turn c (.error h) := hc ▸ step_turn m c

theorem verdict_ne_exhausted (hc : m.step c = .error h) : h.verdict ≠ .exhausted := by
  have key : ∀ {d : Config σ α V S} {expected : List Terminal},
      m.Recovers d expected (.error h) → h.verdict ≠ .exhausted := by
    intro d expected hrec
    cases hrec <;> simp_all
  cases turn_of_error hc with
  | failed _ recovers => exact key recovers
  | raised _ _ _ _ recovers => exact key recovers
  | _ => simp_all

/-- A parse accepts with a reduction. -/
theorem exists_accepted {v : V} {d : Config σ α V S} (hc : m.step c = .error ⟨.accepted v, d⟩) :
    ∃ f s r rule frames below reply, m.Decides c f s (.reduce r) ∧
      m.Reduces c r rule frames below (.ok reply) ∧ m.Acted c s r frames reply d ∧
      (reply.control = .accept ∨ reply.control = .proceed ∧ r = m.tables.acceptRule) ∧
      reply.value = v := by
  cases turn_of_error hc with
  | accepted decides reduces acted accepts =>
    exact ⟨_, _, _, _, _, _, _, decides, reduces, acted, accepts, rfl⟩
  | failed _ recovers => exact absurd rfl (recovers.ne_accepted v)
  | raised _ _ _ _ recovers => exact absurd rfl (recovers.ne_accepted v)
  | _ => simp_all

/-- The step that accepts counts no error. -/
theorem errors_of_accepted {v : V} {d : Config σ α V S}
    (hc : m.step c = .error ⟨.accepted v, d⟩) : d.stats.errors = c.stats.errors := by
  obtain ⟨f, s, r, rule, frames, below, reply, -, -, acted, -, -⟩ := exists_accepted hc
  rw [acted.stats]
  exact errors_poised m c s frames

/-- Errors that were counted stay counted. -/
theorem errors_le_of_step (hc : m.step c = .ok c') : c.stats.errors ≤ c'.stats.errors := by
  have recovers {d : Config σ α V S} {expected : List Terminal}
      (hrec : m.Recovers d expected (.ok c')) : d.stats.errors ≤ c'.stats.errors := by
    cases hrec with
    | recovered items passed state catches room result =>
      rw [result.stats]
      exact Nat.le_succ _
  cases turn_of_ok hc with
  | shifted decides room result => simp [result.stats]
  | reduced d st decides reduces acted => simp [acted.stats]
  | failed decides hrec => exact recovers hrec
  | raised decides reduces acted raises hrec => simpa [acted.stats] using recovers hrec
  | resumed phase top state careful fits => split <;> simp
  | discarded phase top state unfit more => simp

theorem run_of_step_error (hc : m.step c = .error h) (fuel : Nat) : m.run (fuel + 1) c = h := by
  simp [run, hc]

theorem run_of_step_ok (hc : m.step c = .ok c') (fuel : Nat) :
    m.run (fuel + 1) c = m.run fuel c' := by
  simp [run, hc]

/-- A run that is given enough steps ends where the steps from its configuration end. -/
theorem run_of_reaches (hr : m.Reaches c c') (hs : m.step c' = .error h) {fuel : Nat}
    (hf : (m.run fuel c).verdict ≠ .exhausted) : m.run fuel c = h := by
  induction hr using Relation.ReflTransGen.head_induction_on generalizing fuel with
  | refl =>
    cases fuel with
    | zero => exact absurd rfl hf
    | succ fuel => exact run_of_step_error hs fuel
  | head hstep _ ih =>
    cases fuel with
    | zero => exact absurd rfl hf
    | succ fuel =>
      rw [run_of_step_ok hstep] at hf ⊢
      exact ih hf

theorem exists_reaches_of_run {fuel : Nat} (hf : (m.run fuel c).verdict ≠ .exhausted) :
    ∃ c', m.Reaches c c' ∧ m.step c' = .error (m.run fuel c) := by
  induction fuel generalizing c with
  | zero => exact absurd rfl hf
  | succ fuel ih =>
    cases hc : m.step c with
    | error h => exact ⟨c, .refl, by rw [run_of_step_error hc, hc]⟩
    | ok d =>
      rw [run_of_step_ok hc] at hf ⊢
      obtain ⟨c', hr, hs⟩ := ih hf
      exact ⟨c', .head hc hr, hs⟩

/-- What every step preserves holds wherever a run gets. -/
theorem Reaches.preserves {P : Config σ α V S → Prop}
    (hP : ∀ {c c'}, P c → m.step c = .ok c' → P c') (hr : m.Reaches c c') (hc : P c) : P c' := by
  induction hr with
  | refl => exact hc
  | tail _ hstep ih => exact hP ih hstep

/-- The stack never gets deeper than it may. -/
theorem Reaches.depth_le (hr : m.Reaches c c') (hd : c.stack.items.length ≤ m.maxDepth) :
    c'.stack.items.length ≤ m.maxDepth := by
  refine hr.preserves (P := fun c => c.stack.items.length ≤ m.maxDepth) ?_ hd
  intro c c' hd hs
  have recovers {d : Config σ α V S} {expected : List Terminal}
      (hrec : m.Recovers d expected (.ok c')) : c'.stack.items.length ≤ m.maxDepth := by
    cases hrec with
    | recovered items passed state catches room result =>
      rw [result.items, List.length_cons, List.length_cons]
      exact room
  cases turn_of_ok hs with
  | shifted decides room result =>
    rw [result.items, List.length_cons]
    exact room
  | reduced d st decides reduces acted proceeds other state room items =>
    change st.items.length ≤ _
    rw [items, List.length_cons, List.length_cons]
    exact room
  | failed decides hrec => exact recovers hrec
  | raised decides reduces acted raises hrec => exact recovers hrec
  | resumed phase top state careful fits => split <;> simpa using hd
  | discarded phase top state unfit more => simpa using hd

/-- A run that does not end at its first configuration goes on from the next one. -/
theorem Reaches.tail_of_step (hr : m.Reaches c c') (hs : m.step c' = .error h)
    {c₁ : Config σ α V S} (hc : m.step c = .ok c₁) : m.Reaches c₁ c' := by
  rcases hr.cases_head with rfl | ⟨d, hd, hr'⟩
  · simp [hc] at hs
  · obtain rfl := Except.ok.inj (hd.symm.trans hc)
    exact hr'

/-- Configurations that take the same step end alike. -/
theorem Reaches.of_step_eq {d : Config σ α V S} (hr : m.Reaches c c')
    (hs : m.step c' = .error h) (heq : m.step d = m.step c) :
    ∃ d', m.Reaches d d' ∧ m.step d' = .error h := by
  rcases hr.cases_head with rfl | ⟨c₁, hc, hr'⟩
  · exact ⟨d, .refl, heq.trans hs⟩
  · exact ⟨c', .head (heq.trans hc) hr', hs⟩

/-- A quantity that every step lowers bounds the number of steps. -/
theorem run_ne_exhausted {P : Config σ α V S → Prop} (μ : Config σ α V S → Nat)
    (hP : ∀ {c c'}, P c → m.step c = .ok c' → P c' ∧ μ c' < μ c) {fuel : Nat} (hc : P c)
    (hf : μ c < fuel) : (m.run fuel c).verdict ≠ .exhausted := by
  induction fuel generalizing c with
  | zero => omega
  | succ fuel ih =>
    cases hs : m.step c with
    | error h =>
      rw [run_of_step_error hs]
      exact verdict_ne_exhausted hs
    | ok d =>
      rw [run_of_step_ok hs]
      obtain ⟨hd, hlt⟩ := hP hc hs
      exact ih hd (by omega)

theorem parse_init (x : σ) (a : α) (fuel : Nat) (hd : 0 < m.maxDepth) :
    m.parse fuel (m.init x a) = finish (m.run fuel (m.opening x a)) := by
  rw [parse, start_init m x a hd]

end ShiftReduce.Machine
