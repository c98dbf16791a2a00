import Mathlib.Data.Nat.Find
import ShiftReduce.Proofs.Machine.Discipline
import ShiftReduce.Proofs.Machine.Incidents
import ShiftReduce.Proofs.Machine.Record
import ShiftReduce.Proofs.Machine.Supply

namespace ShiftReduce

namespace FrameStack

variable {V S : Type} {k : FrameStack V S}

theorem stacks_eq_nil (h : k.items = []) :
    k.states.items = [] ∧ k.values.items = [] ∧ k.spans.items = [] := by
  have hstates : k.states.items = [] := by rw [← states_items, h, List.map_nil]
  refine ⟨hstates, List.eq_nil_of_length_eq_zero ?_, List.eq_nil_of_length_eq_zero ?_⟩
  · rw [length_values, hstates, List.length_nil]
  · rw [length_spans, hstates, List.length_nil]

end FrameStack

def State.Refuses (s : State) (t : Terminal) : Prop := s.hasLookahead = true ∧ s.lookup t = 0

instance (s : State) (t : Terminal) : Decidable (s.Refuses t) :=
  inferInstanceAs (Decidable (s.hasLookahead = true ∧ s.lookup t = 0))

/-- A scanner that has a list of terminals to return, and after them `stop` for ever. -/
structure Tape {σ V S : Type} (s : Scanner σ V S) (stop : Terminal) where
  rest : σ → List Terminal
  next_nil : ∀ {x}, rest x = [] → (s.next x).1 = stop ∧ rest (s.next x).2.1 = []
  next_cons : ∀ {x t ts}, rest x = t :: ts → (s.next x).1 = t ∧ rest (s.next x).2.1 = ts
  rest_report : ∀ text span x, rest (s.report text span x).1 = rest x

namespace Tape

open Machine

variable {σ α V S φ : Type} {m : Machine σ α V S φ} {c d : Config σ α V S}
  (tape : Tape m.scanner m.tables.endTerminal)

def token (c : Config σ α V S) (i : Nat) : Terminal :=
  (m.ahead c :: tape.rest (m.fetched c).scanner).getD i m.tables.endTerminal

@[simp] theorem token_zero : tape.token c 0 = m.ahead c := rfl

theorem token_congr (ha : m.ahead d = m.ahead c)
    (hs : tape.rest (m.fetched d).scanner = tape.rest (m.fetched c).scanner) :
    tape.token d = tape.token c := by
  funext i
  rw [token, token, ha, hs]

@[simp] theorem token_fetched : tape.token (m.fetched c) = tape.token c :=
  tape.token_congr (ahead_fetched m c) (by rw [fetched_fetched])

@[simp] theorem token_resynchronized (s : StateId) :
    tape.token (resynchronized c s) = tape.token c :=
  tape.token_congr (ahead_resynchronized c s) (by rw [scanner_fetched_congr] <;> rfl)

/-- Once the next token is dropped the others move up. -/
theorem token_dropped (hs : d.scanner = (m.fetched c).scanner) (hl : d.lookahead = none) (i : Nat) :
    tape.token d i = tape.token c (i + 1) := by
  rw [token, token, ahead_of_none hl, scanner_fetched_of_none hl, hs, List.getD_cons_succ]
  cases hr : tape.rest (m.fetched c).scanner with
  | nil =>
    obtain ⟨ht, hnil⟩ := tape.next_nil hr
    rw [ht, hnil]
    cases i <;> rfl
  | cons t ts =>
    obtain ⟨ht, hts⟩ := tape.next_cons hr
    rw [ht, hts]

theorem token_recovered {expected : List Terminal} {kept : List (Frame V S)} {target : StateId}
    (h : m.Recovered c expected kept target d) : tape.token d = tape.token c := by
  refine tape.token_congr (ahead_of_some h.lookahead) ?_
  rw [fetched_of_some h.lookahead, h.scanner]
  split
  · exact tape.rest_report _ _ _
  · rfl

theorem exists_end (c : Config σ α V S) : ∃ n, tape.token c n = m.tables.endTerminal :=
  ⟨(m.ahead c :: tape.rest (m.fetched c).scanner).length, by simp [token]⟩

end Tape

def Supply.tape {σ V S : Type} {s : Scanner σ V S} {stop : Terminal} (feed : Supply s stop) :
    Tape s stop where
  rest x := (feed.pending x).map Lexeme.terminal
  next_nil h := by
    obtain ⟨ht, hp⟩ := feed.next_nil (List.map_eq_nil_iff.1 h)
    exact ⟨ht, by rw [hp, List.map_nil]⟩
  next_cons h := by
    obtain ⟨l, rest, hp, rfl, rfl⟩ := List.map_eq_cons_iff.1 h
    obtain ⟨ht, -, -, hrest⟩ := feed.next_cons hp
    exact ⟨ht, by rw [hrest]⟩
  rest_report text span x := by rw [(feed.after_report text span x).1]

namespace Machine

variable {σ α V S φ : Type} (m : Machine σ α V S φ) (c : Config σ α V S)

/-- The topmost frame whose state has an entry of its own that shifts the error terminal, with the
frames above it and below it and the state to go to. -/
structure Catches (above : List (Frame V S)) (g : Frame V S) (below : List (Frame V S))
    (target : StateId) : Prop where
  items : c.stack.items = above ++ g :: below
  passed : ∀ f ∈ above, m.Passes f
  shifts : ∃ s, m.tables.state g.state = .ok s ∧
    s.shiftTarget? m.tables.errorTerminal = some target

/-- The token at this place cannot end the skipping: the state has no action for it, or it is the
one that the parse was stuck at before. -/
def Rejects (row : State) (stalled : Prop) (tokens : Nat → Terminal) (i : Nat) : Prop :=
  i = 0 ∧ stalled ∨ row.Refuses (tokens i)

def Skips (row : State) (stalled : Prop) (tokens : Nat → Terminal) (n : Nat) : Prop :=
  ∀ i < n, Rejects row stalled tokens i ∧ tokens i ≠ m.tables.endTerminal

variable {m c}

section Skips

variable {row : State} {stalled : Prop} {tokens : Nat → Terminal} {n : Nat}

theorem rejects_succ : Rejects row stalled tokens (n + 1) ↔
    Rejects row False (fun i => tokens (i + 1)) n := by
  simp [Rejects]

theorem Skips.tail (h : m.Skips row stalled tokens (n + 1)) :
    m.Skips row False (fun i => tokens (i + 1)) n := fun i hi =>
  have hi' := h (i + 1) (Nat.succ_lt_succ hi)
  ⟨rejects_succ.1 hi'.1, hi'.2⟩

/-- The skipping stops somewhere: at a token that is not rejected or at the end. -/
theorem exists_skips (row : State) (stalled : Prop)
    (hend : ∃ n, tokens n = m.tables.endTerminal) : ∃ n, m.Skips row stalled tokens n ∧
      (¬Rejects row stalled tokens n ∨
        Rejects row stalled tokens n ∧ tokens n = m.tables.endTerminal) := by
  classical
  have hstop : ∃ n, ¬(Rejects row stalled tokens n ∧ tokens n ≠ m.tables.endTerminal) := by
    obtain ⟨n, hn⟩ := hend
    exact ⟨n, fun h => h.2 hn⟩
  refine ⟨Nat.find hstop, fun i hi => not_not.1 (Nat.find_min hstop hi), ?_⟩
  have hfound := Nat.find_spec hstop
  by_cases hr : Rejects row stalled tokens (Nat.find hstop)
  · exact Or.inr ⟨hr, not_not.1 fun hne => hfound ⟨hr, hne⟩⟩
  · exact Or.inl hr

end Skips

section Unwind

/-- Some state on the stack catches the error, or all of them pass it on. -/
theorem Stands.catches_or (hc : m.Stands c) :
    (∃ above g below target, m.Catches c above g below target) ∨
      ∀ f ∈ c.stack.items, m.Passes f := by
  have hunwind := unwind_unwinds (m := m) c c.stack.items rfl
  generalize m.unwind c c.stack.items = x at hunwind
  generalize hframes : c.stack.items = frames at hunwind
  cases hunwind with
  | caught above passed state catches items alike =>
    exact Or.inl ⟨_, _, _, _, hframes, passed, _, state, catches⟩
  | cornered passed verdict actions => exact Or.inr passed
  | lost mem state verdict =>
    exact absurd state (hc.state_ne_error (hframes ▸ mem) _)

theorem unwind_of_passes {frames : List (Frame V S)} (hframes : c.stack.items = frames)
    (h : ∀ f ∈ frames, m.Passes f) : ∃ d : Config σ α V S,
      m.unwind c frames = .error ⟨.failed .unrecoverable, d⟩ ∧ d.stack.items = [] ∧
        d.stats = c.stats := by
  induction frames generalizing c with
  | nil => exact ⟨_, rfl, hframes, rfl⟩
  | cons f rest ih =>
    obtain ⟨s, hs, hpass⟩ := h f List.mem_cons_self
    simp only [unwind, hs, Config.demand, bind, Except.bind, hpass]
    exact ih (c := { c with stack := c.stack.drop 1 }.emit (.popped f.state)) (by simp [hframes])
      fun g hg => h g (List.mem_cons_of_mem f hg)

theorem unwind_of_catches {above below : List (Frame V S)} {g : Frame V S} {target : StateId}
    (h : m.Catches c above g below target) : ∃ d : Config σ α V S,
      m.unwind c (above ++ g :: below) = .ok (target, d) ∧ d.stack.items = g :: below ∧
        Alike c d := by
  obtain ⟨items, passed, s, hs, htarget⟩ := h
  induction above generalizing c with
  | nil =>
    refine ⟨c, ?_, items, .refl c⟩
    simp only [List.nil_append, unwind, hs, Config.demand, bind, Except.bind, htarget]
  | cons f above ih =>
    obtain ⟨sf, hsf, hpass⟩ := passed f List.mem_cons_self
    simp only [List.cons_append, unwind, hsf, Config.demand, bind, Except.bind, hpass]
    obtain ⟨d, hd, hitems, halike⟩ := ih
      (c := { c with stack := c.stack.drop 1 }.emit (.popped f.state)) (by simp [items])
      fun g hg => passed g (List.mem_cons_of_mem f hg)
    exact ⟨d, hd, hitems, (Alike.pop c _ _).trans halike⟩

end Unwind

section Recover

variable {above below : List (Frame V S)} {g : Frame V S} {target : StateId}

theorem recover_of_passes (h : ∀ f ∈ c.stack.items, m.Passes f) (expected : List Terminal) :
    ∃ d : Config σ α V S, m.recover c expected = .error ⟨.failed .unrecoverable, d⟩ ∧
      d.stack.items = [] ∧ d.stats.discarded = c.stats.discarded := by
  obtain ⟨d, hd, hitems, hstats⟩ := unwind_of_passes (m := m) (c := m.complained c expected) rfl
    (by rwa [stack_complained])
  refine ⟨d, ?_, hitems, ?_⟩
  · rw [recover_eq, hd]
    rfl
  · rw [hstats, stats_complained, discarded_fetched]

/-- The configuration in which the error terminal is about to be shifted. -/
theorem recover_of_catches (h : m.Catches c above g below target) (expected : List Terminal) :
    ∃ d : Config σ α V S, d.stack.items = g :: below ∧
      Alike (m.complained c expected) d ∧ m.recover c expected = (do
        let frame : Frame V S := ⟨target, m.actions.blank, m.scanner.span (m.fetched c).scanner⟩
        let d ← m.push (d.emit (.catching target)) frame
        .ok { d.emit (.caught frame) with
          mode := .recovering 0
          phase := .skipping (decide ((m.fetched c).mode = .recovering 0)) }) := by
  have hcomplained : m.Catches (m.complained c expected) above g below target :=
    ⟨by rw [stack_complained, h.items], h.passed, h.shifts⟩
  obtain ⟨d, hd, hitems, halike⟩ := unwind_of_catches hcomplained
  refine ⟨d, hitems, halike, ?_⟩
  rw [recover_eq, hcomplained.items, hd]
  rfl

theorem recover_of_le (h : m.Catches c above g below target)
    (hfull : m.maxDepth ≤ below.length + 1) (expected : List Terminal) :
    ∃ d : Config σ α V S,
      m.recover c expected = .error ⟨.failed (.stackOverflow m.maxDepth), d⟩ ∧
        d.stack.items = g :: below ∧ d.stats.discarded = c.stats.discarded := by
  obtain ⟨d, hitems, halike, hrecover⟩ := recover_of_catches h expected
  refine ⟨d.emit (.catching target), ?_, hitems, ?_⟩
  · simp only [hrecover, bind, Except.bind]
    rw [push_of_le _ (by simpa [hitems] using hfull)]
  · rw [Config.stats_emit, halike.stats, stats_complained, discarded_fetched]

theorem recover_of_lt (h : m.Catches c above g below target)
    (hroom : below.length + 1 < m.maxDepth) (expected : List Terminal) :
    ∃ d, m.recover c expected = .ok d ∧ m.Recovered c expected (g :: below) target d := by
  obtain ⟨d, hitems, halike, hrecover⟩ := recover_of_catches h expected
  refine ⟨_, ?_, halike.recovered hitems target _ rfl⟩
  simp only [hrecover, bind, Except.bind]
  rw [push_of_lt _ (by simpa [hitems] using hroom)]
  rfl

end Recover

section Skip

variable [Merge S] {f : Frame V S} {row : State} {force : Bool}

theorem step_of_skipping (phase : c.phase = .skipping force)
    (top : c.stack.items.head? = some f) (state : m.tables.state f.state = .ok row) :
    m.step c = if force = true ∨ row.Refuses (m.ahead c) then
        if m.ahead c = m.tables.endTerminal then
          .error ⟨.failed .unexpectedEnd, (m.fetched c).emit .outOfInput⟩
        else .ok ({ m.fetched c with
          lookahead := none
          phase := .skipping false
          stats := { (m.fetched c).stats with
            discarded := (m.fetched c).stats.discarded + 1 } }.emit (.discarded (m.ahead c)))
      else .ok (resynchronized (if row.hasLookahead then m.fetched c else c) f.state) := by
  obtain ⟨rest, hrest⟩ := List.head?_eq_some_iff.1 top
  simp only [step, phase, skip, FrameStack.peek_of_cons hrest, state, Config.demand, bind,
    Except.bind, fetch_eq]
  cases hf : force <;> cases hl : row.hasLookahead <;> by_cases h0 : row.lookup (m.ahead c) = 0 <;>
    simp [State.Refuses, hl, h0] <;> rfl

end Skip

section Settles

variable [Merge S]

variable (m) in
/-- What answering an error comes to: the machine takes steps until it decides again or halts. -/
inductive Settles : Config σ α V S → Except (Halt σ α V S φ) (Config σ α V S) → Prop
  | halted {c : Config σ α V S} {h : Halt σ α V S φ} (halts : m.step c = .error h) :
      Settles c (.error h)
  | resumed {c d : Config σ α V S} (steps : m.step c = .ok d) (decides : d.phase = .deciding) :
      Settles c (.ok d)
  | skipped {c d : Config σ α V S} {force : Bool}
      {x : Except (Halt σ α V S φ) (Config σ α V S)} (steps : m.step c = .ok d)
      (skips : d.phase = .skipping force) (settles : Settles d x) : Settles c x

theorem Settles.unique {x y : Except (Halt σ α V S φ) (Config σ α V S)} (hx : m.Settles c x)
    (hy : m.Settles c y) : x = y := by
  induction hx with
  | halted halts => cases hy <;> simp_all
  | resumed steps decides => cases hy <;> simp_all
  | skipped steps skips settles ih =>
    cases hy with
    | halted halts => simp_all
    | resumed steps' decides => simp_all
    | skipped steps' skips' settles' =>
      obtain rfl := Except.ok.inj (steps.symm.trans steps')
      exact ih settles'

variable {tape : Tape m.scanner m.tables.endTerminal} {f : Frame V S} {row : State} {force : Bool}
  {n : Nat}

structure Skipped (tape : Tape m.scanner m.tables.endTerminal) (c : Config σ α V S) (force : Bool)
    (n : Nat) (d : Config σ α V S) : Prop where
  phase : d.phase = .skipping (decide (n = 0) && force)
  stack : d.stack = c.stack
  token : ∀ i, tape.token d i = tape.token c (n + i)
  discarded : d.stats.discarded = c.stats.discarded + n

theorem step_of_rejected (phase : c.phase = .skipping force)
    (top : c.stack.items.head? = some f) (state : m.tables.state f.state = .ok row)
    (hreject : Rejects row (force = true) (tape.token c) 0)
    (hmore : tape.token c 0 ≠ m.tables.endTerminal) :
    ∃ d, m.step c = .ok d ∧ Skipped tape c force 1 d := by
  have hreject' : force = true ∨ row.Refuses (m.ahead c) := by simpa [Rejects] using hreject
  have hmore' : m.ahead c ≠ m.tables.endTerminal := hmore
  rw [step_of_skipping phase top state, if_pos hreject', if_neg hmore']
  refine ⟨_, rfl, rfl, stack_fetched m c, fun i => ?_, by simp⟩
  rw [Nat.add_comm 1 i]
  refine tape.token_dropped ?_ ?_ i <;> rfl

/-- Rejected tokens are skipped one by one. -/
theorem exists_skipped (phase : c.phase = .skipping force)
    (top : c.stack.items.head? = some f) (state : m.tables.state f.state = .ok row)
    (hskips : m.Skips row (force = true) (tape.token c) n) :
    ∃ d, Skipped tape c force n d ∧ ∀ {x}, m.Settles d x → m.Settles c x := by
  -- After the first rejected token nothing is skipped unseen any more, whatever `force` was.
  induction n generalizing c force with
  | zero => exact ⟨c, ⟨by simpa using phase, rfl, by simp, rfl⟩, id⟩
  | succ n ih =>
    obtain ⟨hreject, hmore⟩ := hskips 0 (Nat.succ_pos n)
    obtain ⟨d, hd, hone⟩ := step_of_rejected phase top state hreject hmore
    have hphase : d.phase = .skipping false := by simpa using hone.phase
    have htail : m.Skips row (false = true) (tape.token d) n := by
      have htoken : tape.token d = fun i => tape.token c (i + 1) := by
        funext i
        rw [hone.token, Nat.add_comm]
      simpa [htoken] using hskips.tail
    obtain ⟨e, he, hsettles⟩ := ih hphase (hone.stack ▸ top) htail
    refine ⟨e, ⟨by simpa using he.phase, he.stack.trans hone.stack, fun i => ?_, ?_⟩,
      fun hx => .skipped hd hphase (hsettles hx)⟩
    · rw [he.token, hone.token]
      congr 1
      omega
    · rw [he.discarded, hone.discarded]
      omega

omit [Merge S] in
theorem rejects_skipped {d : Config σ α V S} (h : Skipped tape c force n d) :
    Rejects row (force = true) (tape.token c) n ↔
      (decide (n = 0) && force) = true ∨ row.Refuses (m.ahead d) := by
  have htoken : m.ahead d = tape.token c n := h.token 0
  simp [Rejects, htoken]

/-- The skipping ends at a token that is not rejected. -/
theorem Skipped.resumes {d : Config σ α V S} (h : Skipped tape c force n d)
    (top : c.stack.items.head? = some f) (state : m.tables.state f.state = .ok row)
    (hfits : ¬Rejects row (force = true) (tape.token c) n) :
    ∃ e, m.step d = .ok e ∧ e.phase = .deciding ∧ e.stack = d.stack ∧
      tape.token e = tape.token d ∧ e.stats.discarded = d.stats.discarded := by
  rw [step_of_skipping h.phase (h.stack ▸ top) state, if_neg (mt (rejects_skipped h).2 hfits)]
  refine ⟨_, rfl, rfl, ?_, ?_, ?_⟩
  all_goals split <;> simp

/-- The skipping fails at the end of the input. -/
theorem Skipped.ends {d : Config σ α V S} (h : Skipped tape c force n d)
    (top : c.stack.items.head? = some f) (state : m.tables.state f.state = .ok row)
    (hreject : Rejects row (force = true) (tape.token c) n)
    (hend : tape.token c n = m.tables.endTerminal) :
    ∃ e, m.step d = .error ⟨.failed .unexpectedEnd, e⟩ ∧ e.stack = d.stack ∧
      e.stats.discarded = d.stats.discarded := by
  have hahead : m.ahead d = m.tables.endTerminal := (h.token 0).trans hend
  rw [step_of_skipping h.phase (h.stack ▸ top) state, if_pos ((rejects_skipped h).1 hreject),
    if_pos hahead]
  exact ⟨_, rfl, by simp, by simp⟩

end Settles

section Outcome

variable [Merge S]

def Stalled (c : Config σ α V S) : Prop := shiftsSinceError c.trace = some 0

variable (m) in
/-- What answering an error comes to, by the stack and the tokens that come next. -/
inductive Outcome (tape : Tape m.scanner m.tables.endTerminal) (c : Config σ α V S) :
    Except (Halt σ α V S φ) (Config σ α V S) → Prop
  /-- No state on the stack shifts the error terminal. -/
  | cornered {d : Config σ α V S} (passed : ∀ f ∈ c.stack.items, m.Passes f)
      (states : d.stack.states.items = []) (values : d.stack.values.items = [])
      (spans : d.stack.spans.items = []) (discarded : d.stats.discarded = c.stats.discarded) :
      Outcome tape c (.error ⟨.failed .unrecoverable, d⟩)
  /-- The error terminal does not fit on the stack. -/
  | overflow {above below : List (Frame V S)} {g : Frame V S} {target : StateId}
      {d : Config σ α V S} (catches : m.Catches c above g below target)
      (full : m.maxDepth ≤ below.length + 1) (items : d.stack.items = g :: below)
      (discarded : d.stats.discarded = c.stats.discarded) :
      Outcome tape c (.error ⟨.failed (.stackOverflow m.maxDepth), d⟩)
  /-- After `n` tokens there is one to go on with. -/
  | resumed (n : Nat) {above below : List (Frame V S)} {g : Frame V S} {target : StateId}
      {row : State} {d : Config σ α V S} (catches : m.Catches c above g below target)
      (room : below.length + 1 < m.maxDepth) (state : m.tables.state target = .ok row)
      (skips : m.Skips row (Stalled c) (tape.token c) n)
      (fits : ¬Rejects row (Stalled c) (tape.token c) n) (phase : d.phase = .deciding)
      (items : d.stack.items =
        ⟨target, m.actions.blank, m.scanner.span (m.fetched c).scanner⟩ :: g :: below)
      (token : ∀ i, tape.token d i = tape.token c (n + i))
      (discarded : d.stats.discarded = c.stats.discarded + n) : Outcome tape c (.ok d)
  /-- After `n` tokens the input is at its end. -/
  | ended (n : Nat) {above below : List (Frame V S)} {g : Frame V S} {target : StateId}
      {row : State} {d : Config σ α V S} (catches : m.Catches c above g below target)
      (room : below.length + 1 < m.maxDepth) (state : m.tables.state target = .ok row)
      (skips : m.Skips row (Stalled c) (tape.token c) n)
      (rejects : Rejects row (Stalled c) (tape.token c) n)
      (last : tape.token c n = m.tables.endTerminal)
      (items : d.stack.items =
        ⟨target, m.actions.blank, m.scanner.span (m.fetched c).scanner⟩ :: g :: below)
      (discarded : d.stats.discarded = c.stats.discarded + n) :
      Outcome tape c (.error ⟨.failed .unexpectedEnd, d⟩)

variable {tape : Tape m.scanner m.tables.endTerminal}

/-- The error is answered as it was met, whether a semantic action was called before or not. -/
theorem Stuck.exists_recover (h : m.Stuck c) : ∃ d expected, m.step c = m.recover d expected ∧
    d.stack = c.stack ∧ d.mode = c.mode ∧ d.stats.discarded = c.stats.discarded ∧
    (m.fetched d).scanner = (m.fetched c).scanner ∧ m.ahead d = m.ahead c := by
  cases h with
  | unexpected decides => exact ⟨c, _, step_of_decides decides, rfl, rfl, rfl, rfl, rfl⟩
  | raised decides reduces raises =>
    obtain ⟨d, hd, hstep⟩ := step_of_answer decides reduces
    refine ⟨d, [], ?_, hd.stack, hd.mode, ?_, hd.scanner_fetched, hd.ahead_eq⟩
    · rw [hstep, follow, raises]
    · rw [hd.stats]
      rcases poised_cases m c _ _ with hp | ⟨hp, -, -⟩ <;> rw [hp]
      exact discarded_fetched m c

omit [Merge S] in
theorem stalled_iff (hmode : c.mode = modeAfter c.trace) :
    c.mode = .recovering 0 ↔ Stalled c := by
  rw [hmode, modeAfter, Stalled]
  cases shiftsSinceError c.trace with
  | none => simp
  | some n =>
    by_cases hn : recoveryShifts ≤ n
    · have : n ≠ 0 := by
        unfold recoveryShifts at hn
        omega
      simp [hn, this]
    · simp [hn]

/-- The error terminal was shifted: what follows depends on the tokens up to the first one that is
not rejected. -/
theorem Recovered.outcome {d e : Config σ α V S} {expected : List Terminal}
    {above below : List (Frame V S)} {g : Frame V S} {target : StateId}
    (h : m.Recovered d expected (g :: below) target e) (hstep : m.step c = .ok e)
    (hcatches : m.Catches c above g below target) (hroom : below.length + 1 < m.maxDepth)
    (htoken : tape.token e = tape.token c) (hstalled : d.mode = .recovering 0 ↔ Stalled c)
    (hspan : (m.fetched d).scanner = (m.fetched c).scanner)
    (hdiscarded : d.stats.discarded = c.stats.discarded) :
    ∃ x, m.Settles c x ∧ m.Outcome tape c x := by
  obtain ⟨s, hs, htarget⟩ := hcatches.shifts
  obtain ⟨row, hrow⟩ := Tables.exists_state (Tables.target_lt_of_shiftTarget? hs htarget)
  have hforce : (decide (d.mode = .recovering 0) = true) = Stalled c := by
    rw [decide_eq_true_eq, hstalled]
  have htop : e.stack.items.head? =
      some ⟨target, m.actions.blank, m.scanner.span (m.fetched d).scanner⟩ := by
    rw [h.items, List.head?_cons]
  have he : e.stats.discarded = c.stats.discarded := by
    rw [h.stats]
    exact (discarded_fetched m d).trans hdiscarded
  obtain ⟨n, hskips, hend⟩ := exists_skips (m := m) row (Stalled c) (tape.exists_end c)
  have hskips' : m.Skips row (decide (d.mode = .recovering 0) = true) (tape.token e) n := by
    rwa [hforce, htoken]
  obtain ⟨e', hskipped, hsettles⟩ := exists_skipped h.phase htop hrow hskips'
  have hlast : e'.stats.discarded = c.stats.discarded + n := by rw [hskipped.discarded, he]
  have hitems {x : Config σ α V S} (hx : x.stack = e'.stack) : x.stack.items =
      ⟨target, m.actions.blank, m.scanner.span (m.fetched c).scanner⟩ :: g :: below := by
    rw [hx, hskipped.stack, h.items, hspan]
  rcases hend with hfits | ⟨hrejects, hend⟩
  · obtain ⟨x, hx, hphase, hstack, hnext, hdisc⟩ :=
      hskipped.resumes htop hrow (by rwa [hforce, htoken])
    refine ⟨.ok x, .skipped hstep h.phase (hsettles (.resumed hx hphase)),
      .resumed n hcatches hroom hrow hskips hfits hphase (hitems hstack) (fun i => ?_)
        (hdisc.trans hlast)⟩
    rw [hnext, hskipped.token, htoken]
  · obtain ⟨x, hx, hstack, hdisc⟩ :=
      hskipped.ends htop hrow (by rwa [hforce, htoken]) (by rwa [htoken])
    exact ⟨_, .skipped hstep h.phase (hsettles (.halted hx)),
      .ended n hcatches hroom hrow hskips hrejects hend (hitems hstack) (hdisc.trans hlast)⟩

theorem Stuck.outcome (h : m.Stuck c) (hc : m.Stands c) (hmode : c.mode = modeAfter c.trace) :
    ∃ x, m.Settles c x ∧ m.Outcome tape c x := by
  obtain ⟨d, expected, hstep, hstack, hdmode, hdiscarded, hscanner, hahead⟩ := h.exists_recover
  have htoken : tape.token d = tape.token c := tape.token_congr hahead (by rw [hscanner])
  rcases hc.catches_or with ⟨above, g, below, target, hcatches⟩ | hpass
  · have hcatches' : m.Catches d above g below target :=
      ⟨by rw [hstack, hcatches.items], hcatches.passed, hcatches.shifts⟩
    by_cases hroom : below.length + 1 < m.maxDepth
    · obtain ⟨e, he, hrec⟩ := recover_of_lt hcatches' hroom expected
      exact hrec.outcome (hstep.trans he) hcatches hroom ((tape.token_recovered hrec).trans htoken)
        (hdmode ▸ stalled_iff hmode) hscanner hdiscarded
    · obtain ⟨e, he, hitems, hdisc⟩ := recover_of_le hcatches' (Nat.not_lt.1 hroom) expected
      exact ⟨_, .halted (hstep.trans he),
        .overflow hcatches (Nat.not_lt.1 hroom) hitems (hdisc.trans hdiscarded)⟩
  · obtain ⟨e, he, hitems, hdisc⟩ := recover_of_passes (m := m) (c := d) (by rwa [hstack]) expected
    obtain ⟨hstates, hvalues, hspans⟩ := FrameStack.stacks_eq_nil hitems
    exact ⟨_, .halted (hstep.trans he),
      .cornered hpass hstates hvalues hspans (hdisc.trans hdiscarded)⟩

/-- Wherever a parse meets an error, its answer comes to an end, and how it ends is told by the
states on the stack, by the tokens that come next and by whether anything was shifted since the
last error. -/
theorem recovery_outcome (tape : Tape m.scanner m.tables.endTerminal) (hc : c.stack.items = [])
    {n : Nat} {d : Config σ α V S} (hd : m.progress n c = ⟨.exhausted, d⟩) (h : m.Stuck d) :
    (∃ x, m.Settles d x) ∧ ∀ x, m.Settles d x → m.Outcome tape d x := by
  have hexhausted : (m.progress n c).verdict = .exhausted := by rw [hd]
  have hstands := progress_exhausted (start_stands hc) Stands.keeps hexhausted
  have hcurrent := progress_current hexhausted
  rw [hd] at hstands hcurrent
  obtain ⟨x, hx, hout⟩ : ∃ x, m.Settles d x ∧ m.Outcome tape d x :=
    h.outcome hstands hcurrent.mode
  refine ⟨⟨x, hx⟩, fun y hy => ?_⟩
  rwa [hy.unique hx]

end Outcome

/-- Tables whose start state shifts the error terminal; a phrase of the grammar ends with terminal
5. -/
def stumbling : Tables where
  rules := #[⟨⟨0⟩, []⟩, ⟨⟨1⟩, []⟩]
  states := #[
    { actions := .ofList [(⟨2⟩, 1), (⟨3⟩, 2)] },
    { actions := .ofList [(⟨5⟩, 2)] },
    { actions := .ofList [(⟨3⟩, 2)] }]
  sound := by decide

def stumbler : Machine Nat Unit Unit ByteRange Empty where
  tables := stumbling
  scanner := .reciting stumbling [⟨3⟩, ⟨3⟩, ⟨4⟩, ⟨4⟩, ⟨5⟩] (by decide)
  actions := { blank := (), reduce := fun _ value state => .ok { value, state } }

def stumblerTape : Tape stumbler.scanner stumbler.tables.endTerminal where
  rest x := [⟨3⟩, ⟨3⟩, ⟨4⟩, ⟨4⟩, ⟨5⟩].drop x
  next_nil {x} h := by
    have hx := List.drop_eq_nil_iff.1 h
    refine ⟨?_, List.drop_eq_nil_of_le (Nat.le_succ_of_le hx)⟩
    change List.getD _ x _ = _
    rw [List.getD_eq_getElem?_getD, List.getElem?_eq_none hx]
    rfl
  next_cons {x t ts} h := by
    refine ⟨?_, ?_⟩
    · change List.getD _ x _ = t
      rw [List.getD_eq_getElem?_getD, ← List.head?_drop, h]
      rfl
    · change List.drop (x + 1) _ = ts
      rw [← List.tail_drop, h, List.tail_cons]
  rest_report _ _ _ := rfl

theorem recovery_outcome_stumbler : (stumbler.init 0 ()).stack.items = [] ∧
    stumbler.progress 2 (stumbler.init 0 ()) =
      ⟨.exhausted, (stumbler.progress 2 (stumbler.init 0 ())).config⟩ ∧
    stumbler.Stuck (stumbler.progress 2 (stumbler.init 0 ())).config ∧
    stumbler.Outcome stumblerTape (stumbler.progress 2 (stumbler.init 0 ())).config
      (.ok (stumbler.progress 6 (stumbler.init 0 ())).config) ∧
    (stumbler.progress 6 (stumbler.init 0 ())).config.stats.discarded = 2 := by
  have hempty : (stumbler.init 0 ()).stack.items = [] := rfl
  have hprogress : stumbler.progress 2 (stumbler.init 0 ()) =
      ⟨.exhausted, (stumbler.progress 2 (stumbler.init 0 ())).config⟩ := rfl
  have hstuck : stumbler.Stuck (stumbler.progress 2 (stumbler.init 0 ())).config :=
    .unexpected ⟨rfl, rfl, rfl, rfl⟩
  have hsettles : stumbler.Settles (stumbler.progress 2 (stumbler.init 0 ())).config
      (.ok (stumbler.progress 6 (stumbler.init 0 ())).config) :=
    .skipped rfl rfl (.skipped rfl rfl (.skipped rfl rfl (.resumed rfl rfl)))
  exact ⟨hempty, hprogress, hstuck,
    (recovery_outcome stumblerTape hempty hprogress hstuck).2 _ hsettles, rfl⟩

end Machine

end ShiftReduce
