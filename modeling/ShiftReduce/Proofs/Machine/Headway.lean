import Mathlib.Data.Nat.PSub
import ShiftReduce.Proofs.Machine.Growth
import ShiftReduce.Proofs.Machine.Recovery

namespace ShiftReduce

section Credit

variable {V S : Type} {later past : List (Event V S)} {k : Nat}

/-- How many more errors may be met before a token is shifted or discarded. Each error costs one
and each token earns one, but there are never more than two. Nothing is left to say once an error
was met without credit. -/
def credit : List (Event V S) → Option Nat
  | [] => some 2
  | .stuck .. :: past => (credit past).bind Nat.ppred
  | .shifted .. :: past => (credit past).map fun k => min 2 (k + 1)
  | .discarded _ :: past => (credit past).map fun k => min 2 (k + 1)
  | _ :: past => credit past

/-- Errors are paid for by what was left before and by the tokens since. -/
theorem errors_le_of_credit (h : credit (later ++ past) = some k) :
    ∃ k₀, credit past = some k₀ ∧ (told Event.error? later).length + k ≤
      k₀ + (told Event.shift? later).length + (told Event.discard? later).length := by
  -- The newest event comes first, so the induction goes back in time to `past`. A token adds at
  -- most one to the credit, and an error takes one from it.
  induction later generalizing k with
  | nil => exact ⟨k, h, by simp⟩
  | cons e later ih =>
    cases e with
    | stuck t span =>
      obtain ⟨k', hk', hk⟩ := Option.bind_eq_some_iff.1 h
      obtain ⟨k₀, hk₀, hle⟩ := ih hk'
      have hsucc := Nat.ppred_eq_some.1 hk
      refine ⟨k₀, hk₀, ?_⟩
      simp [Event.error?, Event.shift?, Event.discard?]
      omega
    | shifted t f =>
      obtain ⟨k', hk', rfl⟩ := Option.map_eq_some_iff.1 h
      obtain ⟨k₀, hk₀, hle⟩ := ih hk'
      refine ⟨k₀, hk₀, ?_⟩
      simp [Event.error?, Event.shift?, Event.discard?]
      omega
    | discarded t =>
      obtain ⟨k', hk', rfl⟩ := Option.map_eq_some_iff.1 h
      obtain ⟨k₀, hk₀, hle⟩ := ih hk'
      refine ⟨k₀, hk₀, ?_⟩
      simp [Event.error?, Event.shift?, Event.discard?]
      omega
    | _ => simpa [Event.error?, Event.shift?, Event.discard?] using ih h

theorem credit_le_two (h : credit past = some k) : k ≤ 2 := by
  induction past generalizing k with
  | nil => exact (Option.some.inj h).ge
  | cons e past ih =>
    cases e with
    | stuck t span =>
      obtain ⟨k', hk', hk⟩ := Option.bind_eq_some_iff.1 h
      exact (Nat.ppred_eq_some.1 hk ▸ Nat.le_succ k).trans (ih hk')
    | shifted t f =>
      obtain ⟨k', -, rfl⟩ := Option.map_eq_some_iff.1 h
      exact Nat.min_le_left _ _
    | discarded t =>
      obtain ⟨k', -, rfl⟩ := Option.map_eq_some_iff.1 h
      exact Nat.min_le_left _ _
    | _ => exact ih h

end Credit

namespace Machine

variable {σ α V S φ : Type} {m : Machine σ α V S φ} {c d e : Config σ α V S}

section Credit

theorem credit_notes (d : Config σ α V S) (lines : List LogLine) :
    credit (d.notes lines).trace = credit d.trace := by
  induction lines generalizing d with
  | nil => rfl
  | cons l rest ih => exact ih (d.emit (.note l))

theorem credit_fetched (m : Machine σ α V S φ) (d : Config σ α V S) :
    credit (m.fetched d).trace = credit d.trace := by
  cases hl : d.lookahead with
  | some t => rw [fetched_of_some hl]
  | none =>
    simp only [fetched, fetch, hl, Config.trace_emit, credit, credit_notes]

theorem credit_countShift (d : Config σ α V S) :
    credit (countShift d).trace = credit d.trace := by
  unfold countShift
  split
  · rfl
  · split <;> rfl

theorem credit_replied (d : Config σ α V S) (reduction : Reduction V S) (given : V)
    (reply : Reply α V) :
    credit (replied d reduction given reply).trace = credit d.trace := by
  rw [trace_replied]
  exact credit_notes d _

theorem credit_summoned (m : Machine σ α V S φ) (d : Config σ α V S) (r : RuleId) (rule : Rule)
    (frames : List (Frame V S)) : credit (m.summoned d r rule frames).trace = credit d.trace := by
  unfold summoned
  split
  · exact credit_fetched m (d.emit (.reducing r rule))
  · rfl

theorem credit_complained (m : Machine σ α V S φ) (d : Config σ α V S)
    (expected : List Terminal) :
    credit (m.complained d expected).trace = (credit d.trace).bind Nat.ppred := by
  have hstuck : credit (m.complained d expected).trace =
      (credit (m.fetched d).trace).bind Nat.ppred := by
    unfold complained report
    split
    · rw [credit_notes]
      rfl
    · rfl
  rw [hstuck, credit_fetched]

theorem credit_unwind (d : Config σ α V S) (frames : List (Frame V S)) :
    Keeps (fun x => credit x.2.trace = credit d.trace)
      (fun e => credit e.trace = credit d.trace) (m.unwind d frames) := by
  induction frames generalizing d with
  | nil => rfl
  | cons f rest ih =>
    unfold unwind
    refine .bind (.demand .index _ rfl) fun s _ => ?_
    cases s.shiftTarget? m.tables.errorTerminal with
    | some target => rfl
    | none => exact ih ({ d with stack := d.stack.drop 1 }.emit (.popped f.state))

end Credit

section Backed

/-- The credit that a configuration counts on. One is gone if nothing was shifted since the last
error, and the other one too while a token is still to be skipped unseen. -/
def needed (d : Config σ α V S) : Nat :=
  2 - (if d.mode = .recovering 0 then 1 else 0) - (if d.phase = .skipping true then 1 else 0)

def Backed (d : Config σ α V S) : Prop := ∃ k, credit d.trace = some k ∧ needed d ≤ k

def Solvent (d : Config σ α V S) : Prop := ∃ k, credit d.trace = some k

theorem Backed.solvent (h : Backed d) : Solvent d := h.imp fun _ => And.left

theorem Backed.congr (h : Backed d) (ht : credit e.trace = credit d.trace)
    (hm : e.mode = d.mode) (hp : e.phase = d.phase) : Backed e := by
  rwa [Backed, needed, ht, hm, hp]

theorem Backed.fetched (h : Backed d) : Backed (m.fetched d) :=
  h.congr (credit_fetched m d) (by simp) (by simp)

/-- Where the machine decides there is credit for an error. -/
theorem needed_of_seen (hp : d.phase ≠ .skipping true) :
    needed d = if d.mode = .recovering 0 then 1 else 2 := by
  rw [needed, if_neg hp]
  split <;> rfl

theorem needed_of_deciding (hp : d.phase = .deciding) :
    needed d = if d.mode = .recovering 0 then 1 else 2 := needed_of_seen (by simp [hp])

/-- A token that has been skipped unseen need not be paid for again. -/
theorem seen_le_needed (d : Config σ α V S) :
    (if d.mode = .recovering 0 then 1 else 2) ≤ needed d + 1 := by
  unfold needed
  split <;> split <;> omega

theorem needed_le_two (d : Config σ α V S) : needed d ≤ 2 :=
  (Nat.sub_le _ _).trans (Nat.sub_le _ _)

theorem start_backed (m : Machine σ α V S φ) (c : Config σ α V S) :
    Keeps Backed Solvent (m.start c) := by
  rw [start_eq]
  refine (m.push_keeps (Q := Solvent) _ _ fun _ => ⟨2, rfl⟩).imp ?_ fun d => id
  rintro d ⟨rfl, -⟩
  exact ⟨2, rfl, needed_le_two _⟩

theorem shift_backed (h : Backed d) (hp : d.phase = .deciding) (target : StateId) :
    Keeps Backed Solvent (m.shift d target) := by
  obtain ⟨k, hk, hneeded⟩ := h
  have hfetched : credit (m.fetched d).trace = some k := (credit_fetched m d).trans hk
  have hpos : 1 ≤ k := by
    rw [needed_of_deciding hp] at hneeded
    split at hneeded <;> omega
  simp only [shift, fetch_eq]
  refine .bind (m.push_keeps _ _ fun _ => ⟨k, hfetched⟩) ?_
  rintro e ⟨rfl, -⟩
  refine ⟨2, ?_, needed_le_two _⟩
  change credit (countShift _).trace = _
  rw [credit_countShift]
  change (credit (m.fetched d).trace).map _ = _
  rw [hfetched, Option.map_some, Nat.min_eq_left (by omega)]

/-- An error is met on credit. If nothing was shifted since the last one, the credit is used up
now, and a token is going to be skipped. -/
theorem recover_backed (h : Backed d) (hp : d.phase = .deciding) (expected : List Terminal) :
    Keeps Backed Solvent (m.recover d expected) := by
  obtain ⟨k, hk, hneeded⟩ := h
  rw [needed_of_deciding hp] at hneeded
  have hpos : k = k - 1 + 1 := by
    split at hneeded <;> omega
  have hcomplained : credit (m.complained d expected).trace = some (k - 1) := by
    rw [credit_complained, hk, hpos]
    rfl
  rw [recover_eq]
  refine .bind ((credit_unwind _ _).imp (fun _ => id) fun e he => ⟨k - 1, he.trans hcomplained⟩) ?_
  rintro ⟨target, e⟩ he
  have hcredit : credit e.trace = some (k - 1) := he.trans hcomplained
  refine .bind (m.push_keeps _ _ fun _ => ⟨k - 1, hcredit⟩) ?_
  rintro e' ⟨rfl, -⟩
  refine ⟨k - 1, hcredit, ?_⟩
  by_cases hstalled : d.mode = .recovering 0
  · simp [needed, hstalled]
  · simp only [hstalled, if_false] at hneeded
    have hleft : 1 ≤ k - 1 := by omega
    simpa [needed, hstalled] using hleft

theorem goto_backed (h : Backed d) (n : Nat) (lhs : Nonterminal) (v : V) (span : S) :
    Keeps Backed Solvent (m.goto d n lhs v span) := by
  unfold goto
  refine .bind (.demand .stack _ h.solvent) fun k _ => ?_
  have hdropped : Backed { d with stack := k } := h
  refine .bind (.demand .stack _ hdropped.solvent) fun f _ =>
    .bind (.demand .index _ hdropped.solvent) fun s _ =>
    .bind (m.push_keeps _ _ fun _ => hdropped.solvent) ?_
  rintro e ⟨rfl, -⟩
  exact h.congr rfl rfl rfl

theorem skip_backed (h : Backed d) {force : Bool} (hp : d.phase = .skipping force) :
    Keeps Backed Solvent (m.skip d force) := by
  have hresumed {e : Config σ α V S} (he : Backed e) (hf : e.phase = .skipping false)
      (s : StateId) : Backed (resynchronized e s) := by
    obtain ⟨k, hk, hneeded⟩ := he
    rw [needed_of_seen (by simp [hf])] at hneeded
    refine ⟨k, hk, ?_⟩
    rwa [needed_of_deciding (phase_resynchronized e s), mode_resynchronized]
  unfold skip
  refine .bind (.demand .stack _ h.solvent) fun f _ =>
    .bind (.demand .index _ h.solvent) fun s _ => ?_
  rw [fetch_eq]
  dsimp only
  split
  · rename_i hfree
    exact hresumed h (by simp_all) f.state
  · split
    · rename_i hfits
      exact hresumed h.fetched (by simp_all) f.state
    · split
      · exact (h.fetched (m := m)).solvent
      · obtain ⟨k, hk, hneeded⟩ := h.fetched (m := m)
        refine ⟨min 2 (k + 1), congrArg (Option.map fun k => min 2 (k + 1)) hk, ?_⟩
        refine Nat.le_min.2 ⟨needed_le_two _, ?_⟩
        rw [needed_of_seen (by simp)]
        exact (seen_le_needed (m.fetched d)).trans (Nat.add_le_add_right hneeded 1)

variable [Merge S]

theorem reduce_backed (h : Backed d) (hp : d.phase = .deciding) (r : RuleId) :
    Keeps Backed Solvent (m.reduce d r) := by
  rw [reduce_eq_follow]
  refine .bind (.demand .index _ h.solvent) fun rule _ => ?_
  refine .bind (.demand .stack _ h.solvent) fun frames _ => ?_
  have hsummoned : Backed (m.summoned d r rule frames) :=
    h.congr (credit_summoned m d r rule frames) (by unfold summoned; split <;> simp)
      (by unfold summoned; split <;> simp)
  refine .bind (.demand .action _ hsummoned.solvent) fun reply _ => ?_
  have hreplied : Backed (replied (m.summoned d r rule frames) (m.reduction d r rule frames)
      (m.given frames) reply) :=
    hsummoned.congr (credit_replied _ _ _ _) (mode_replied _ _ _ _) (phase_replied _ _ _ _)
  unfold follow
  cases reply.control with
  | accept => exact hreplied.solvent
  | abort => exact hreplied.solvent
  | raise =>
    refine recover_backed hreplied ?_ []
    rw [phase_replied]
    unfold summoned
    split <;> simp [hp]
  | proceed =>
    dsimp only
    split
    · exact hreplied.solvent
    · exact goto_backed hreplied _ _ _ _

theorem step_backed (h : Backed d) : Keeps Backed Solvent (m.step d) := by
  unfold step
  split
  · rename_i force hp
    exact skip_backed h hp
  · rename_i hp
    refine .bind (.demand .stack _ h.solvent) fun f _ =>
      .bind (.demand .index _ h.solvent) fun s _ => ?_
    rw [nextAction_eq]
    have hpoised : Backed (if s.hasLookahead then m.fetched d else d) := by
      split
      · exact h.fetched
      · exact h
    have hphase : (if s.hasLookahead then m.fetched d else d).phase = .deciding := by
      split <;> simp [hp]
    cases Action.decode (s.lookup (m.ahead d)) with
    | shift target => exact shift_backed hpoised hphase target
    | reduce r => exact reduce_backed hpoised hphase r
    | error => exact recover_backed hpoised hphase _

theorem progress_solvent (m : Machine σ α V S φ) (c : Config σ α V S) (n : Nat) :
    Solvent (m.progress n c).config :=
  progress_keeps (start_backed m c) Backed.solvent step_backed n

end Backed

section Headway

variable [Merge S]

variable (m c) in
/-- An error is answered by ending the parse or by skipping the token that it was met at. -/
inductive Headway : Prop
  | ended {p : ParseError} {d : Config σ α V S} (halts : m.step c = .error ⟨.failed p, d⟩) :
      Headway
  | outOfInput {p : ParseError} {d e : Config σ α V S} (steps : m.step c = .ok d)
      (halts : m.step d = .error ⟨.failed p, e⟩) : Headway
  | skipped {d e : Config σ α V S} (steps : m.step c = .ok d) (skips : m.step d = .ok e)
      (lost : told Event.discard? e.trace = told Event.discard? c.trace ++ [m.ahead c])
      (discarded : e.stats.discarded = c.stats.discarded + 1) : Headway

theorem Stuck.phase (h : m.Stuck c) : c.phase = .deciding := by
  cases h with
  | unexpected decides => exact decides.phase
  | raised decides => exact decides.phase

omit [Merge S] in
theorem Recovers.exists_failed {expected : List Terminal} {h : Halt σ α V S φ}
    (hr : m.Recovers c expected (.error h)) (hc : m.Stands c) :
    ∃ p, h.verdict = .failed p := by
  cases hr with
  | cornered passed verdict => exact ⟨_, verdict⟩
  | overflow items full verdict => exact ⟨_, verdict⟩
  | lost mem state => exact absurd state (hc.state_ne_error mem _)

/-- The token is skipped unseen, whatever the state has for it. -/
theorem Recovered.headway {expected : List Terminal} {kept : List (Frame V S)} {target : StateId}
    {row : State} (h : m.Recovered d expected kept target e) (hstep : m.step c = .ok e)
    (hphase : c.phase = .deciding) (hstalled : d.mode = .recovering 0)
    (hrow : m.tables.state target = .ok row) (hahead : m.ahead d = m.ahead c)
    (hdiscarded : d.stats.discarded = c.stats.discarded) : m.Headway c := by
  have hskipping : e.phase = .skipping true := by simpa [hstalled] using h.phase
  have hskip := step_of_skipping hskipping (by rw [h.items, List.head?_cons]) hrow
  rw [if_pos (Or.inl rfl)] at hskip
  split at hskip
  · exact .outOfInput hstep hskip
  · refine .skipped hstep hskip ?_ ?_
    · have hgrows : Grows c e := by
        have hkeeps := step_grows (m := m) hphase
        rwa [hstep] at hkeeps
      rw [Config.trace_emit, told_cons, hgrows.fetched.told_eq, ahead_of_some h.lookahead, hahead]
      rfl
    · simp [h.stats, hdiscarded]

/-- An error that is met before anything was shifted since the last one. -/
theorem Stuck.headway (h : m.Stuck c) (hc : m.Stands c) (hmode : c.mode = .recovering 0) :
    m.Headway c := by
  obtain ⟨d, expected, hstep, hstack, hdmode, hdiscarded, -, hahead⟩ := h.exists_recover
  have hd : m.Stands d := by rwa [Stands, hstack]
  have hrec := recover_recovers m d expected
  rw [← hstep] at hrec
  cases hs : m.step c with
  | error x =>
    rw [hs] at hrec
    obtain ⟨v, e⟩ := x
    obtain ⟨p, rfl⟩ := hrec.exists_failed hd
    exact .ended hs
  | ok e =>
    rw [hs] at hrec
    cases hrec with
    | recovered items passed state catches room result =>
      obtain ⟨row, hrow⟩ := Tables.exists_state (Tables.target_lt_of_shiftTarget? state catches)
      exact result.headway hs h.phase (hdmode.trans hmode) hrow hahead hdiscarded

/-- Whatever the tables, the scanner and the actions are, an error either comes after a token that
was shifted since the last one, or the token that it is met at is skipped or the parse ends. So in
no stretch of a parse there are more than two errors more than tokens shifted and discarded. The
end terminal counts when it is shifted. -/
theorem recovery_makes_headway (m : Machine σ α V S φ) {c : Config σ α V S}
    (hc : c.stack.items = []) (n : Nat) :
    (∀ d k, m.progress n c = ⟨.exhausted, d⟩ → m.Stuck d → shiftsSinceError d.trace = some k →
      0 < k ∨ m.Headway d) ∧
    (∀ later past, later ++ past <:+ (m.progress n c).config.trace →
      (told Event.error? later).length ≤
        (told Event.shift? later).length + (told Event.discard? later).length + 2) ∧
    (m.parse n c).config.stats.errors ≤
      (m.parse n c).config.stats.shifts + (m.parse n c).config.stats.discarded + 2 := by
  obtain ⟨k, hk⟩ := progress_solvent m c n
  refine ⟨fun d k hd hstuck hsince => ?_, fun later past hs => ?_, ?_⟩
  · rcases Nat.eq_zero_or_pos k with rfl | hpos
    · have hexhausted : (m.progress n c).verdict = .exhausted := by rw [hd]
      have hstands := progress_exhausted (start_stands hc) Stands.keeps hexhausted
      have hcurrent := progress_current hexhausted
      rw [hd] at hstands hcurrent
      exact Or.inr (hstuck.headway hstands ((stalled_iff hcurrent.mode).2 hsince))
    · exact Or.inl hpos
  · obtain ⟨newest, hnewest⟩ := hs
    rw [← hnewest] at hk
    obtain ⟨k₁, hk₁, -⟩ := errors_le_of_credit hk
    obtain ⟨k₀, hk₀, hle⟩ := errors_le_of_credit hk₁
    have htwo := credit_le_two hk₀
    omega
  · obtain ⟨frames, hrecorded, -⟩ := (progress_closed m c n).recorded
    obtain ⟨-, hshifts, herrors, hdiscarded⟩ :=
      stats_account (m := m) (c := c) (m.progress n c).config.trace
    rw [hrecorded.account] at hshifts herrors hdiscarded
    -- The whole parse is a stretch that begins without anything before it, with the credit of two.
    rw [← List.append_nil (m.progress n c).config.trace] at hk
    obtain ⟨k₀, hk₀, hle⟩ := errors_le_of_credit hk
    obtain rfl := Option.some.inj hk₀
    rw [parse_eq_finish, stats_finish, hshifts, herrors, hdiscarded]
    omega

/-- Tables whose start state shifts the error terminal into a state without entries, in which the
next error is met at once. -/
def restless : Tables where
  rules := #[⟨⟨0⟩, []⟩, ⟨⟨1⟩, []⟩]
  states := #[{ actions := .ofList [(⟨2⟩, 1)] }, {}]
  sound := by decide

def restlessMachine : Machine Nat Unit Unit ByteRange Empty where
  tables := restless
  scanner := .reciting restless [⟨3⟩, ⟨3⟩] (by decide)
  actions := { blank := (), reduce := fun _ value state => .ok { value, state } }

theorem recovery_makes_headway_restless : (restlessMachine.init 0 ()).stack.items = [] ∧
    restlessMachine.progress 2 (restlessMachine.init 0 ()) =
      ⟨.exhausted, (restlessMachine.progress 2 (restlessMachine.init 0 ())).config⟩ ∧
    restlessMachine.Stuck (restlessMachine.progress 2 (restlessMachine.init 0 ())).config ∧
    shiftsSinceError (restlessMachine.progress 2 (restlessMachine.init 0 ())).config.trace =
      some 0 ∧
    (0 < 0 ∨
      restlessMachine.Headway (restlessMachine.progress 2 (restlessMachine.init 0 ())).config) := by
  have hempty : (restlessMachine.init 0 ()).stack.items = [] := rfl
  have hprogress : restlessMachine.progress 2 (restlessMachine.init 0 ()) =
      ⟨.exhausted, (restlessMachine.progress 2 (restlessMachine.init 0 ())).config⟩ := rfl
  have hstuck : restlessMachine.Stuck
      (restlessMachine.progress 2 (restlessMachine.init 0 ())).config :=
    .unexpected ⟨rfl, rfl, rfl, rfl⟩
  have hsince : shiftsSinceError
      (restlessMachine.progress 2 (restlessMachine.init 0 ())).config.trace = some 0 := rfl
  exact ⟨hempty, hprogress, hstuck, hsince,
    (recovery_makes_headway restlessMachine hempty 2).1 _ _ hprogress hstuck hsince⟩

end Headway

end Machine

end ShiftReduce
