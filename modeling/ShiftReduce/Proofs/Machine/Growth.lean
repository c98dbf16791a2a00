import ShiftReduce.Proofs.Machine.Exits
import ShiftReduce.Proofs.Machine.History

namespace ShiftReduce.Machine

variable {σ α V S φ : Type} {m : Machine σ α V S φ} {c d e : Config σ α V S}

/-- The trace of one configuration goes on from that of another, and nothing is discarded on the
way. -/
def Grows (c d : Config σ α V S) : Prop :=
  ∃ later, d.trace = later ++ c.trace ∧ told Event.discard? later = []

namespace Grows

theorem refl (c : Config σ α V S) : Grows c c := ⟨[], rfl, rfl⟩

theorem trans (h : Grows c d) (h' : Grows d e) : Grows c e := by
  obtain ⟨later, htrace, hnone⟩ := h
  obtain ⟨later', htrace', hnone'⟩ := h'
  exact ⟨later' ++ later, by rw [htrace', htrace, List.append_assoc],
    by rw [told_append, hnone, hnone', List.append_nil]⟩

theorem suffix (h : Grows c d) : c.trace <:+ d.trace := by
  obtain ⟨later, htrace, -⟩ := h
  exact ⟨later, htrace.symm⟩

/-- The same tokens were discarded. -/
theorem told_eq (h : Grows c d) : told Event.discard? d.trace = told Event.discard? c.trace := by
  obtain ⟨later, htrace, hnone⟩ := h
  rw [htrace, told_append, hnone, List.append_nil]

theorem of_trace (h : Grows c d) (he : e.trace = d.trace) : Grows c e := by
  rw [Grows, he]
  exact h

theorem emit (h : Grows c d) {x : Event V S} (hx : x.discard? = none) : Grows c (d.emit x) :=
  h.trans ⟨[x], rfl, by simp [hx]⟩

theorem notes (h : Grows c d) (lines : List LogLine) : Grows c (d.notes lines) := by
  induction lines generalizing d with
  | nil => exact h
  | cons l rest ih => exact ih (h.emit rfl)

theorem fetched (h : Grows c d) : Grows c (m.fetched d) := by
  cases hl : d.lookahead with
  | some t => rwa [fetched_of_some hl]
  | none =>
    refine ((h.notes (m.scanner.next d.scanner).2.2).emit
      (x := .fetched (m.scanner.next d.scanner).1) rfl).of_trace ?_
    simp [Machine.fetched, fetch, hl, Config.trace_notes]

theorem turned (h : Grows c d) : Grows c (turned d) := h.emit rfl

theorem resynchronized (h : Grows c d) (s : StateId) : Grows c (resynchronized d s) :=
  (Grows.emit (x := .resynchronized s) (h.of_trace (e := { d with phase := .deciding }) rfl)
    rfl).turned

theorem countShift (h : Grows c d) : Grows c (countShift d) := by
  unfold Machine.countShift
  split
  · exact h
  · split
    · exact (h.of_trace (e := { d with mode := .normal }) rfl).emit rfl
    · exact h.of_trace rfl

theorem complained (h : Grows c d) (expected : List Terminal) :
    Grows c (m.complained d expected) := by
  have hstuck : Grows c ({ m.fetched d with
      stats := { (m.fetched d).stats with errors := (m.fetched d).stats.errors + 1 } }.emit
      (.stuck (m.ahead d) (m.scanner.span (m.fetched d).scanner))) :=
    ((h.fetched (m := m)).of_trace rfl).emit rfl
  unfold Machine.complained report
  split
  · refine Grows.notes ?_ _
    exact (hstuck.emit (x := .reported _ _) rfl).of_trace rfl
  · exact hstuck

theorem replied (h : Grows c d) (reduction : Reduction V S) (given : V) (reply : Reply α V) :
    Grows c (replied d reduction given reply) :=
  ((h.notes reply.log).emit (x := .reduced reduction given reply.value reply.control) rfl).of_trace
    (trace_replied d reduction given reply)

theorem summoned (h : Grows c d) (r : RuleId) (rule : Rule) (frames : List (Frame V S)) :
    Grows c (m.summoned d r rule frames) := by
  have hreducing : Grows c (d.emit (.reducing r rule)) := h.emit rfl
  unfold Machine.summoned
  split
  · exact hreducing.fetched
  · exact hreducing

theorem unwind (h : Grows c d) (frames : List (Frame V S)) :
    Keeps (fun x => Grows c x.2) (Grows c) (m.unwind d frames) := by
  induction frames generalizing d with
  | nil => exact h.emit rfl
  | cons f rest ih =>
    unfold Machine.unwind
    refine .bind (.demand .index _ h) fun s _ => ?_
    cases s.shiftTarget? m.tables.errorTerminal with
    | some target => exact h
    | none => exact ih ((h.of_trace rfl).emit rfl)

theorem push (h : Grows c d) (f : Frame V S) : Keeps (Grows c) (Grows c) (m.push d f) :=
  (m.push_keeps d f fun _ => h).imp (fun _ hd => h.of_trace (hd.1 ▸ rfl)) fun _ => id

theorem of_complained {expected : List Terminal} (h : Grows c (m.complained d expected)) :
    Keeps (Grows c) (Grows c) (m.recover d expected) := by
  rw [recover_eq]
  refine .bind (h.unwind _) fun x hx => ?_
  exact .bind ((hx.emit rfl).push _) fun e he => (he.emit (x := .caught _) rfl).of_trace rfl

theorem recover (h : Grows c d) (expected : List Terminal) :
    Keeps (Grows c) (Grows c) (m.recover d expected) :=
  of_complained (h.complained expected)

theorem shift (h : Grows c d) (target : StateId) :
    Keeps (Grows c) (Grows c) (m.shift d target) := by
  simp only [Machine.shift, fetch_eq]
  have htaken : Grows c ({ (m.fetched d).emit (.shifting (m.ahead d) target) with
      scanner := (m.scanner.value (m.fetched d).scanner).2 }.emit
      (.taken (m.scanner.value (m.fetched d).scanner).1)) :=
    ((h.fetched.emit rfl).of_trace rfl).emit rfl
  refine .bind (htaken.push _) fun e he => ?_
  exact Grows.turned (Grows.countShift (Grows.emit (x := .shifted _ _) (he.of_trace rfl) rfl))

theorem goto (h : Grows c d) (n : Nat) (lhs : Nonterminal) (v : V) (span : S) :
    Keeps (Grows c) (Grows c) (m.goto d n lhs v span) := by
  unfold Machine.goto
  refine .bind (.demand .stack _ h) fun k _ => ?_
  have hdropped : Grows c { d with stack := k } := h.of_trace rfl
  refine .bind (.demand .stack _ hdropped) fun f _ => ?_
  refine .bind (.demand .index _ hdropped) fun s _ => ?_
  exact .bind (hdropped.push _) fun e he => (he.emit rfl).turned

variable [Merge S]

theorem reduce (h : Grows c d) (r : RuleId) : Keeps (Grows c) (Grows c) (m.reduce d r) := by
  rw [reduce_eq_follow]
  refine .bind (.demand .index _ h) fun rule _ => ?_
  refine .bind (.demand .stack _ (h.emit rfl)) fun frames _ => ?_
  have hsummoned : Grows c (m.summoned d r rule frames) := h.summoned r rule frames
  refine .bind (.demand .action _ hsummoned) fun reply _ => ?_
  have hreplied := hsummoned.replied (m.reduction d r rule frames) (m.given frames) reply
  unfold follow
  cases reply.control with
  | accept => exact hreplied
  | abort => exact hreplied
  | raise => exact hreplied.recover []
  | proceed =>
    dsimp only
    split
    · exact hreplied
    · exact hreplied.goto _ _ _ _

end Grows

/-- Nothing is discarded where the machine decides. -/
theorem step_grows [Merge S] (hc : c.phase = .deciding) :
    Keeps (Grows c) (Grows c) (m.step c) := by
  have hrefl := Grows.refl c
  simp only [step, hc]
  refine .bind (.demand .stack _ hrefl) fun f _ => .bind (.demand .index _ hrefl) fun s _ => ?_
  rw [nextAction_eq]
  have hpoised : Grows c (if s.hasLookahead then m.fetched c else c) := by
    split
    · exact hrefl.fetched
    · exact hrefl
  cases Action.decode (s.lookup (m.ahead c)) with
  | shift target => exact hpoised.shift target
  | reduce r => exact hpoised.reduce r
  | error => exact hpoised.recover _

variable (c) in
def Continues (d : Config σ α V S) : Prop := c.trace <:+ d.trace

theorem skip_continues (m : Machine σ α V S φ) (c : Config σ α V S) (force : Bool) :
    Keeps (Continues c) (Continues c) (m.skip c force) := by
  have hrefl := Grows.refl c
  have hfetched : Grows c (m.fetched c) := hrefl.fetched
  unfold skip
  refine .bind (.demand .stack _ hrefl.suffix) fun f _ =>
    .bind (.demand .index _ hrefl.suffix) fun s _ => ?_
  rw [fetch_eq]
  dsimp only
  split
  · exact (hrefl.resynchronized f.state).suffix
  · split
    · exact (hfetched.resynchronized f.state).suffix
    · split
      · exact (hfetched.emit (x := .outOfInput) rfl).suffix
      · exact hfetched.suffix.trans (List.suffix_cons _ _)

/-- An error that is due is reported at once. -/
theorem reported_complained (m : Machine σ α V S φ) (hmode : c.mode = .normal)
    (expected : List Terminal) :
    .reported (m.describe c.actions (m.ahead c) expected) (m.scanner.span (m.fetched c).scanner) ::
      .stuck (m.ahead c) (m.scanner.span (m.fetched c).scanner) :: (m.fetched c).trace <:+
        (m.complained c expected).trace := by
  rw [← actions_fetched m c]
  unfold complained report
  rw [if_pos (by simpa using hmode), Config.trace_notes]
  exact List.suffix_append _ _

theorem suffix_finish (h : Halt σ α V S φ) : h.config.trace <:+ (finish h).config.trace := by
  unfold finish
  split
  · exact List.suffix_cons _ _
  · exact List.suffix_cons _ _
  · exact List.suffix_refl _
  · exact List.suffix_refl _

variable [Merge S]

/-- Nothing that was told is taken back. -/
theorem step_continues (m : Machine σ α V S φ) (c : Config σ α V S) :
    Keeps (Continues c) (Continues c) (m.step c) := by
  cases hphase : c.phase with
  | skipping force =>
    rw [step, hphase]
    exact skip_continues m c force
  | deciding => exact (step_grows hphase).imp (fun _ => Grows.suffix) fun _ => Grows.suffix

theorem Reaches.suffix (hr : m.Reaches c d) : c.trace <:+ d.trace := by
  refine hr.preserves (P := Continues c) ?_ (List.suffix_refl _)
  intro d e hd hs
  have hnext := step_continues m d
  rw [hs] at hnext
  exact hd.trans hnext

theorem Reaches.suffix_of_error (hr : m.Reaches c d) {h : Halt σ α V S φ}
    (hs : m.step d = .error h) : c.trace <:+ h.config.trace := by
  have hlast := step_continues m d
  rw [hs] at hlast
  exact hr.suffix.trans hlast

section Fuel

variable {n k : Nat}

/-- A run that has ended is not changed by more steps. -/
theorem run_of_le (hn : (m.run n c).verdict ≠ .exhausted) (h : n ≤ k) :
    m.run k c = m.run n c := by
  induction n generalizing c k with
  | zero => exact absurd rfl hn
  | succ n ih =>
    obtain ⟨k, rfl⟩ := Nat.exists_eq_succ_of_ne_zero (Nat.ne_zero_of_lt h)
    cases hs : m.step c with
    | error e => rw [run_of_step_error hs, run_of_step_error hs]
    | ok d =>
      rw [run_of_step_ok hs] at hn
      rw [run_of_step_ok hs, run_of_step_ok hs]
      exact ih hn (Nat.le_of_succ_le_succ h)

/-- More steps tell the same and more. -/
theorem run_suffix (m : Machine σ α V S φ) (c : Config σ α V S) (h : n ≤ k) :
    (m.run n c).config.trace <:+ (m.run k c).config.trace := by
  induction n generalizing c k with
  | zero =>
    exact run_keeps (P := Continues c) id (fun hd => (step_continues m _).imp
      (fun _ => hd.trans) fun _ => hd.trans) k (List.suffix_refl _)
  | succ n ih =>
    obtain ⟨k, rfl⟩ := Nat.exists_eq_succ_of_ne_zero (Nat.ne_zero_of_lt h)
    cases hs : m.step c with
    | error e => simp only [run_of_step_error hs, List.suffix_refl]
    | ok d =>
      rw [run_of_step_ok hs, run_of_step_ok hs]
      exact ih d (Nat.le_of_succ_le_succ h)

theorem progress_suffix (m : Machine σ α V S φ) (c : Config σ α V S) (h : n ≤ k) :
    (m.progress n c).config.trace <:+ (m.progress k c).config.trace := by
  unfold progress
  cases m.start c with
  | error e => exact List.suffix_refl _
  | ok d => exact run_suffix m d h

theorem progress_of_le (hn : (m.progress n c).verdict ≠ .exhausted) (h : n ≤ k) :
    m.progress k c = m.progress n c := by
  unfold progress at hn ⊢
  cases hs : m.start c with
  | error e => rfl
  | ok d =>
    rw [hs] at hn
    exact run_of_le hn h

end Fuel

end ShiftReduce.Machine
