import ShiftReduce.Proofs.Machine.Supply
import ShiftReduce.Proofs.Machine.Tokens

namespace ShiftReduce

namespace Supply

variable {σ α V S φ : Type} {m : Machine σ α V S φ} {c : Config σ α V S}
  {trace : List (Event V S)} (feed : Supply m.scanner m.tables.endTerminal)

def left (a : Account σ V S) : List Terminal :=
  match a.lookahead with
  | none => (feed.pending a.scanner).map Lexeme.terminal
  | some t =>
    if t = m.tables.endTerminal then [] else t :: (feed.pending a.scanner).map Lexeme.terminal

variable [Merge S]

/-- The tokens that are used up and those that are left make up the supply. -/
theorem pending_eq_spent (h : m.Lawful c trace) :
    (feed.pending c.scanner).map Lexeme.terminal =
      told (Event.spent? m.tables.endTerminal) trace ++ feed.left (m.account c trace) := by
  induction trace with
  | nil => rfl
  | cons e past ih =>
    have hpast := ih h.tail
    have hfollows := h.head
    rw [told_cons, Machine.account_cons, hpast]
    cases e with
    | fetched t =>
      obtain ⟨hfree, rfl⟩ := hfollows
      simp only [left, Machine.enter, hfree, Event.spent?]
      cases hp : feed.pending (m.account c past).scanner with
      | nil => simp [(feed.next_nil hp).1]
      | cons l rest =>
        obtain ⟨ht, -, -, hrest⟩ := feed.next_cons hp
        have hne : l.terminal ≠ m.tables.endTerminal :=
          feed.terminal_ne (hp ▸ List.mem_cons_self)
        simp [ht, hne, hrest]
    | taken v =>
      simp only [left, Machine.enter, Event.spent?,
        (feed.after_value (m.account c past).scanner).1]
      simp
    | reported text span =>
      simp only [left, Machine.enter, Event.spent?,
        (feed.after_report text span (m.account c past).scanner).1]
      simp
    | shifted t f =>
      obtain ⟨past', rfl, hready, -⟩ := hfollows
      have hready' : (m.account c (.taken f.value :: .shifting t f.state :: past')).lookahead =
          some t := hready
      by_cases ht : t = m.tables.endTerminal
      · simp [left, Machine.enter, Event.spent?, ht]
      · rw [left, hready']
        simp [left, Machine.enter, Event.spent?, ht]
    | discarded t =>
      obtain ⟨-, hready, more⟩ := hfollows
      simp [left, Machine.enter, Event.spent?, hready, more]
    | _ => simp [left, Machine.enter, Event.spent?]

theorem left_account {frames : List (Frame V S)} {d : Config σ α V S} (h : m.Recorded c frames d) :
    feed.left (m.account c d.trace) = (feed.input d).map Lexeme.terminal := by
  rw [h.account, left, input]
  cases d.lookahead with
  | none => rfl
  | some t =>
    dsimp only
    split <;> rfl

/-- The tokens are read one after the other, and the end terminal once at most. -/
theorem told_read?_prefix (h : m.Lawful c trace) : told Event.read? trace <+:
    (feed.pending c.scanner).map Lexeme.terminal ++ [m.tables.endTerminal] := by
  rw [h.told_read?, feed.pending_eq_spent h, List.append_assoc, List.prefix_append_right_inj, left]
  cases hl : (m.account c trace).lookahead with
  | none => exact List.nil_prefix
  | some t =>
    by_cases ht : t = m.tables.endTerminal
    · simp [ht]
    · simp [ht]

theorem tokens_le (n : Nat) :
    (m.progress n c).config.stats.tokens ≤ (feed.pending c.scanner).length + 1 := by
  obtain ⟨frames, hrecorded, -⟩ := (Machine.progress_closed m c n).recorded
  have htokens := (Machine.stats_account (m := m) (c := c) (m.progress n c).config.trace).1
  have hread := (feed.told_read?_prefix hrecorded.chronicle.lawful).length_le
  rw [hrecorded.account] at htokens
  rw [htokens]
  simpa using hread

end Supply

namespace Machine

variable {σ α V S φ : Type} {m : Machine σ α V S φ} {c d d' : Config σ α V S} {e r : Nat}

/-- So many errors and reductions at most were counted on the way, and no shift. -/
structure Adds (e r : Nat) (c d : Config σ α V S) : Prop where
  shifts : d.stats.shifts = c.stats.shifts
  errors : d.stats.errors ≤ c.stats.errors + e
  reductions : d.stats.reductions ≤ c.stats.reductions + r

namespace Adds

theorem refl (c : Config σ α V S) : Adds 0 0 c c := ⟨rfl, Nat.le_refl _, Nat.le_refl _⟩

theorem of_stats (h : Adds e r c d) (hs : d'.stats = d.stats) : Adds e r c d' := by
  constructor
  · rw [hs, h.shifts]
  · rw [hs]
    exact h.errors
  · rw [hs]
    exact h.reductions

theorem mono (h : Adds e r c d) {e' r' : Nat} (he : e ≤ e') (hr : r ≤ r') : Adds e' r' c d :=
  ⟨h.shifts, Nat.le_trans h.errors (Nat.add_le_add_left he _),
    Nat.le_trans h.reductions (Nat.add_le_add_left hr _)⟩

theorem fetched (h : Adds e r c d) : Adds e r c (m.fetched d) :=
  ⟨by simpa using h.shifts, by simpa using h.errors, by simpa using h.reductions⟩

theorem summoned (h : Adds e r c d) (i : RuleId) (rule : Rule) (frames : List (Frame V S)) :
    Adds e r c (m.summoned d i rule frames) := by
  have hreducing : Adds e r c (d.emit (.reducing i rule)) := h.of_stats rfl
  unfold Machine.summoned
  split
  · exact hreducing.fetched
  · exact hreducing

theorem replied (h : Adds e r c d) (reduction : Reduction V S) (given : V) (reply : Reply α V) :
    Adds e (r + 1) c (replied d reduction given reply) := by
  have hstats : (Machine.replied d reduction given reply).stats =
      { d.stats with reductions := d.stats.reductions + 1 } := by simp [Machine.replied]
  constructor
  · rw [hstats]
    exact h.shifts
  · rw [hstats]
    exact h.errors
  · rw [hstats]
    exact Nat.succ_le_succ h.reductions

theorem unwind (h : Adds e r c d) (frames : List (Frame V S)) :
    Keeps (fun x => Adds e r c x.2) (Adds e r c) (m.unwind d frames) := by
  induction frames generalizing d with
  | nil => exact h.of_stats rfl
  | cons f rest ih =>
    unfold Machine.unwind
    refine .bind (.demand .index _ h) fun s _ => ?_
    cases s.shiftTarget? m.tables.errorTerminal with
    | some target => exact h
    | none => exact ih (h.of_stats rfl)

/-- An error is counted once, however it is answered. -/
theorem recover (h : Adds e r c d) (expected : List Terminal) :
    Keeps (fun _ => True) (Adds (e + 1) r c) (m.recover d expected) := by
  have hcomplained : Adds (e + 1) r c (m.complained d expected) := by
    constructor
    · simpa [stats_complained] using h.shifts
    · rw [stats_complained]
      exact Nat.succ_le_succ h.errors
    · simpa [stats_complained] using h.reductions
  rw [recover_eq]
  exact .bind (hcomplained.unwind _) fun x hx =>
    .bind (m.push_keeps _ _ fun _ => hx.of_stats rfl) fun _ _ => trivial

theorem shift (h : Adds e r c d) (target : StateId) :
    Keeps (fun _ => True) (Adds e r c) (m.shift d target) := by
  simp only [Machine.shift, fetch_eq]
  exact .bind (m.push_keeps _ _ fun _ => (h.fetched (m := m)).of_stats rfl) fun _ _ => trivial

theorem goto (h : Adds e r c d) (n : Nat) (lhs : Nonterminal) (v : V) (span : S) :
    Keeps (fun _ => True) (Adds e r c) (m.goto d n lhs v span) := by
  unfold Machine.goto
  refine .bind (.demand .stack _ h) fun k _ => ?_
  have hdropped : Adds e r c { d with stack := k } := h.of_stats rfl
  exact .bind (.demand .stack _ hdropped) fun f _ => .bind (.demand .index _ hdropped) fun s _ =>
    .bind (m.push_keeps _ _ fun _ => hdropped) fun _ _ => trivial

theorem skip (h : Adds e r c d) (force : Bool) :
    Keeps (fun _ => True) (Adds e r c) (m.skip d force) := by
  unfold Machine.skip
  refine .bind (.demand .stack _ h) fun f _ => .bind (.demand .index _ h) fun s _ => ?_
  rw [fetch_eq]
  dsimp only
  repeat' split
  · trivial
  · trivial
  · exact (h.fetched (m := m)).of_stats rfl
  · trivial

variable [Merge S]

/-- A reduction is counted once its semantic action has answered, and the answer may raise an
error. -/
theorem reduce (h : Adds e r c d) (i : RuleId) :
    Keeps (fun _ => True) (Adds (e + 1) (r + 1) c) (m.reduce d i) := by
  have hmore : Adds (e + 1) (r + 1) c d := h.mono (Nat.le_succ e) (Nat.le_succ r)
  rw [reduce_eq_follow]
  refine .bind (.demand .index _ hmore) fun rule _ =>
    .bind (.demand .stack _ (hmore.of_stats rfl)) fun frames _ => ?_
  refine .bind (.demand .action _ (hmore.summoned i rule frames)) fun reply _ => ?_
  have hreplied : Adds e (r + 1) c (Machine.replied (m.summoned d i rule frames)
      (m.reduction d i rule frames) (m.given frames) reply) :=
    (h.summoned i rule frames).replied _ _ _
  have hended := hreplied.mono (Nat.le_succ e) (Nat.le_refl _)
  unfold follow
  cases reply.control with
  | accept => exact hended
  | abort => exact hended
  | raise => exact hreplied.recover []
  | proceed =>
    dsimp only
    split
    · exact hended
    · exact hended.goto _ _ _ _

end Adds

variable [Merge S]

/-- What the last step of a parse adds to the counters. -/
theorem step_adds (m : Machine σ α V S φ) (c : Config σ α V S) :
    Keeps (fun _ => True) (Adds 1 1 c) (m.step c) := by
  have hrefl := Adds.refl c
  have hmore : Adds 1 1 c c := hrefl.mono (Nat.zero_le 1) (Nat.zero_le 1)
  unfold step
  split
  · exact hmore.skip _
  · refine .bind (.demand .stack _ hmore) fun f _ => .bind (.demand .index _ hmore) fun s _ => ?_
    rw [nextAction_eq]
    have hpoised : Adds 0 0 c (if s.hasLookahead then m.fetched c else c) := by
      split
      · exact hrefl.fetched
      · exact hrefl
    cases Action.decode (s.lookup (m.ahead c)) with
    | shift target =>
      exact (hpoised.mono (Nat.zero_le 1) (Nat.zero_le 1)).shift target
    | reduce i => exact hpoised.reduce i
    | error => exact (hpoised.mono (Nat.le_refl 0) (Nat.zero_le 1)).recover _

end Machine

end ShiftReduce
