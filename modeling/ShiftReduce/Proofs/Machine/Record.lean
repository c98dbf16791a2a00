import ShiftReduce.Proofs.Machine.Exits
import ShiftReduce.Proofs.Machine.History

namespace ShiftReduce.Machine

variable {σ α V S φ : Type}

theorem account_notes (m : Machine σ α V S φ) (c d : Config σ α V S) (lines : List LogLine) :
    m.account c (d.notes lines).trace = m.account c d.trace := by
  induction lines generalizing d with
  | nil => rfl
  | cons l rest ih => exact ih (d.emit (.note l))

section Recorded

variable [Merge S] {m : Machine σ α V S φ} {c d : Config σ α V S} {frames : List (Frame V S)}
  {t : Terminal}

variable (m c) in
/-- The trace of a configuration is a history of the parse that was started in `c`, and the
configuration is as its account says, apart from the stack, for which the frames stand. -/
structure Recorded (frames : List (Frame V S)) (d : Config σ α V S) : Prop where
  chronicle : m.Chronicle c d.trace
  account : m.account c d.trace = ⟨d.scanner, d.lastSpan, frames, d.lookahead, d.stats⟩

theorem Chronicle.notes (h : m.Chronicle c d.trace) (lines : List LogLine) :
    m.Chronicle c (d.notes lines).trace := by
  induction lines generalizing d with
  | nil => exact h
  | cons l rest ih => exact ih (d := d.emit (.note l)) (h.quiet rfl)

namespace Recorded

theorem emit {e : Event V S} (h : m.Recorded c frames d) (he : e.quiet = true) :
    m.Recorded c frames (d.emit e) :=
  ⟨h.chronicle.quiet he, (account_quiet he _).trans h.account⟩

theorem notes (h : m.Recorded c frames d) (lines : List LogLine) :
    m.Recorded c frames (d.notes lines) := by
  refine ⟨h.chronicle.notes lines, ?_⟩
  rw [account_notes, h.account]
  simp

theorem fetched (h : m.Recorded c frames d) : m.Recorded c frames (m.fetched d) := by
  cases hl : d.lookahead with
  | some t => rwa [fetched_of_some hl]
  | none =>
    obtain ⟨lines, htrace⟩ : ∃ lines, (m.fetched d).trace =
        .fetched (m.scanner.next d.scanner).1 :: (d.notes lines).trace :=
      ⟨(m.scanner.next d.scanner).2.2, by simp [Machine.fetched, fetch, hl, Config.trace_notes]⟩
    have hfree : (m.account c (d.notes lines).trace).lookahead = none := by
      rw [account_notes, h.account, hl]
    constructor
    · rw [htrace]
      simpa only [account_notes, h.account] using (h.chronicle.notes lines).fetched hfree
    · rw [htrace, account_cons, account_notes, h.account]
      simp [Machine.fetched, fetch, hl, enter]

/-- The configuration in which a shift has got the token's value. -/
theorem attempted (h : m.Recorded c frames d) (hl : d.lookahead = some t) (target : StateId) :
    m.Recorded c frames ({ d.emit (.shifting t target) with
      scanner := (m.scanner.value d.scanner).2 }.emit (.taken (m.scanner.value d.scanner).1)) := by
  constructor
  · simpa only [Config.trace_emit, h.account] using
      h.chronicle.attempted target (by rw [h.account, hl])
  · simp only [Config.trace_emit, account_cons, h.account]
    rfl

/-- The configuration in which the token stands on the stack. -/
theorem shifted (h : m.Recorded c frames d) (hl : d.lookahead = some t) (target : StateId)
    (room : frames.length < m.maxDepth) (k : FrameStack V S) : m.Recorded c
      (⟨target, (m.scanner.value d.scanner).1,
        m.scanner.span (m.scanner.value d.scanner).2⟩ :: frames)
      { d with
        scanner := (m.scanner.value d.scanner).2
        stack := k
        lookahead := if t = m.tables.endTerminal then d.lookahead else none
        stats := { d.stats with shifts := d.stats.shifts + 1 }
        trace := .shifted t ⟨target, (m.scanner.value d.scanner).1,
            m.scanner.span (m.scanner.value d.scanner).2⟩ ::
          .taken (m.scanner.value d.scanner).1 :: .shifting t target :: d.trace } := by
  constructor
  · simpa only [h.account] using
      h.chronicle.shifted target (by rw [h.account, hl]) (by rwa [h.account])
  · simp only [account_cons, h.account]
    rfl

theorem discarded (h : m.Recorded c frames d) (hurt : shiftsSinceError d.trace ≠ none)
    (hl : d.lookahead = some t) (more : t ≠ m.tables.endTerminal) (phase : Phase) :
    m.Recorded c frames
      ({ d with
        lookahead := none
        phase
        stats := { d.stats with discarded := d.stats.discarded + 1 } }.emit (.discarded t)) := by
  constructor
  · exact h.chronicle.discarded hurt (by rw [h.account, hl]) more
  · simp only [Config.trace_emit, account_cons, h.account]
    rfl

theorem replied {r : RuleId} {rule : Rule} {phrase below : List (Frame V S)}
    (h : m.Recorded c (phrase.reverse ++ below) d) (hlength : phrase.length = rule.length)
    (hknown : phrase = [] → d.lookahead ≠ none) (reply : Reply α V) :
    m.Recorded c (phrase.reverse ++ below) (replied d
      ⟨r, rule, phrase.map Frame.value, phrase.map Frame.span,
        spread (Merge.merge (m.scanner.span d.scanner) d.lastSpan) phrase⟩
      (m.given phrase) reply) := by
  have hn := h.notes reply.log
  constructor
  · rw [trace_replied]
    have hitems : (m.account c (d.notes reply.log).trace).frames = phrase.reverse ++ below := by
      rw [hn.account]
    have hknown' : phrase = [] → (m.account c (d.notes reply.log).trace).lookahead ≠ none := by
      rwa [account_notes, h.account]
    have hreduced := hn.chronicle.reduced r reply.value reply.control hitems hlength hknown'
    simpa only [account_notes, h.account, offer, gapIn] using hreduced
  · rw [trace_replied, account_cons, account_notes, h.account]
    simp [Machine.replied, enter]

theorem folded {r : Reduction V S} {given made : V} {past : List (Event V S)}
    (h : m.Recorded c frames d) (htrace : d.trace = .reduced r given made .proceed :: past)
    (proper : r.rule.length < frames.length)
    (room : frames.length - r.rule.length < m.maxDepth) (state : StateId) (k : FrameStack V S) :
    m.Recorded c (⟨state, made, r.span⟩ :: frames.drop r.rule.length)
      ({ d with stack := k }.emit (.folded r.rule.length ⟨state, made, r.span⟩)) := by
  have hframes : (m.account c past).frames = frames := by
    have hc := congrArg Account.frames h.account
    rwa [htrace] at hc
  constructor
  · have hchronicle := h.chronicle
    simp only [Config.trace_emit]
    rw [htrace] at hchronicle ⊢
    exact hchronicle.folded state (by rwa [hframes]) (by rwa [hframes])
  · rw [Config.trace_emit, account_cons]
    simp only [h.account]
    rfl

/-- The configuration in which an error has been counted and, if it is due, reported. -/
theorem complained (h : m.Recorded c frames d) (hl : d.lookahead = some t)
    (hmode : d.mode = modeAfter d.trace) (expected : List Terminal) :
    m.Recorded c frames (m.report
      ({ d with stats := { d.stats with errors := d.stats.errors + 1 } }.emit
        (.stuck t (m.scanner.span d.scanner))) t (m.scanner.span d.scanner) expected) := by
  have hready : (m.account c d.trace).lookahead = some t := by rw [h.account, hl]
  unfold report
  split
  · rename_i hnormal
    have hdue : Due d.trace := modeAfter_eq_normal_iff.1 (hmode.symm.trans hnormal)
    refine notes ⟨?_, ?_⟩ _
    · simpa only [Config.trace_emit, h.account] using h.chronicle.complained _ hready hdue
    · simp only [Config.trace_emit, account_cons, h.account]
      rfl
  · rename_i hknown
    have hdue : ¬Due d.trace := fun hd =>
      hknown (hmode.trans (modeAfter_eq_normal_iff.2 hd))
    constructor
    · simpa only [Config.trace_emit, h.account] using h.chronicle.muted hready hdue
    · simp only [Config.trace_emit, account_cons, h.account]
      rfl

theorem popped (h : m.Recorded c frames d) (hurt : shiftsSinceError d.trace ≠ none)
    (state : StateId) (k : FrameStack V S) :
    m.Recorded c (frames.drop 1) ({ d with stack := k }.emit (.popped state)) := by
  refine ⟨h.chronicle.popped state hurt, ?_⟩
  simp only [Config.trace_emit, account_cons, h.account]
  rfl

theorem caught (h : m.Recorded c frames d) (hurt : shiftsSinceError d.trace ≠ none)
    (room : frames.length < m.maxDepth) (f : Frame V S) (k : FrameStack V S) :
    m.Recorded c (f :: frames) ({ d with stack := k }.emit (.caught f)) := by
  refine ⟨h.chronicle.caught f hurt (by rwa [h.account]), ?_⟩
  simp only [Config.trace_emit, account_cons, h.account]
  rfl

/-- The history goes on to be one when it is told how the parse has ended. -/
theorem finish {h : Halt σ α V S φ} (hr : m.Recorded c frames h.config) :
    m.Chronicle c (Machine.finish h).config.trace ∧
      m.account c (Machine.finish h).config.trace = m.account c h.config.trace := by
  rcases trace_finish h with htrace | ⟨e, he, htrace⟩
  · rw [htrace]
    exact ⟨hr.chronicle, rfl⟩
  · rw [htrace]
    exact ⟨hr.chronicle.quiet he, account_quiet he _⟩

end Recorded

end Recorded

section ShiftsSinceError

theorem shiftsSinceError_notes (d : Config σ α V S) (lines : List LogLine) :
    shiftsSinceError (d.notes lines).trace = shiftsSinceError d.trace := by
  induction lines generalizing d with
  | nil => rfl
  | cons l rest ih => exact ih (d.emit (.note l))

theorem shiftsSinceError_fetched (m : Machine σ α V S φ) (d : Config σ α V S) :
    shiftsSinceError (m.fetched d).trace = shiftsSinceError d.trace := by
  cases hl : d.lookahead with
  | some t => rw [fetched_of_some hl]
  | none =>
    simp only [fetched, fetch, hl, Config.trace_emit, shiftsSinceError, shiftsSinceError_notes]

theorem shiftsSinceError_complained (m : Machine σ α V S φ) (d : Config σ α V S)
    (expected : List Terminal) :
    shiftsSinceError (m.complained d expected).trace = some 0 := by
  unfold complained report
  split
  · rw [shiftsSinceError_notes]
    rfl
  · rfl

theorem shiftsSinceError_countShift (d : Config σ α V S) :
    shiftsSinceError (countShift d).trace = shiftsSinceError d.trace := by
  unfold countShift
  split
  · rfl
  · split <;> rfl

theorem shiftsSinceError_replied (d : Config σ α V S) (reduction : Reduction V S) (given : V)
    (reply : Reply α V) : shiftsSinceError (replied d reduction given reply).trace =
      shiftsSinceError d.trace := by
  rw [trace_replied]
  exact shiftsSinceError_notes d _

end ShiftsSinceError

section Current

variable [Merge S] {m : Machine σ α V S φ} {c d : Config σ α V S} {t : Terminal}

variable (m c) in
/-- A configuration of a parse that goes on. The mode is the one that the history leads to, and
input is skipped only after an error. -/
structure Current (d : Config σ α V S) : Prop where
  recorded : m.Recorded c d.stack.items d
  mode : d.mode = modeAfter d.trace
  phase : d.phase = .deciding ∨ shiftsSinceError d.trace ≠ none

variable (m c) in
/-- A configuration in which a parse has ended. When nothing can be put in place of frames that
were taken off, the stack lacks them. -/
inductive Closed (d : Config σ α V S) : Prop
  | standing (recorded : m.Recorded c d.stack.items d)
  | bare {frames : List (Frame V S)} (recorded : m.Recorded c frames d)
      (items : d.stack.items = [])
  | full {frames : List (Frame V S)} (recorded : m.Recorded c frames d)
      (below : d.stack.items <:+ frames) (full : m.maxDepth ≤ d.stack.items.length)
  | lost {frames : List (Frame V S)} {f : Frame V S} {e : IndexFault}
      (recorded : m.Recorded c frames d) (below : d.stack.items <:+ frames)
      (mem : f ∈ d.stack.items) (state : m.tables.state f.state = .error e)

theorem Closed.recorded (h : m.Closed c d) :
    ∃ frames, m.Recorded c frames d ∧ d.stack.items <:+ frames := by
  cases h with
  | standing recorded => exact ⟨_, recorded, List.suffix_refl _⟩
  | bare recorded items => exact ⟨_, recorded, items ▸ List.nil_suffix⟩
  | full recorded below => exact ⟨_, recorded, below⟩
  | lost recorded below => exact ⟨_, recorded, below⟩

namespace Current

theorem closed (h : m.Current c d) : m.Closed c d := .standing h.recorded

theorem emit {e : Event V S} (h : m.Current c d) (he : e.quiet = true) :
    m.Current c (d.emit e) := by
  have htrace : shiftsSinceError (d.emit e).trace = shiftsSinceError d.trace :=
    shiftsSinceError_quiet he _
  refine ⟨h.recorded.emit he, ?_, ?_⟩
  · rw [Config.mode_emit, modeAfter, htrace, h.mode, modeAfter]
  · rw [Config.phase_emit, htrace]
    exact h.phase

theorem turned (h : m.Current c d) : m.Current c (turned d) := h.emit rfl

theorem fetched (h : m.Current c d) : m.Current c (m.fetched d) := by
  have hfetched := h.recorded.fetched
  rw [← stack_fetched m d] at hfetched
  refine ⟨hfetched, ?_, ?_⟩
  · rw [mode_fetched, modeAfter, shiftsSinceError_fetched, h.mode, modeAfter]
  · rw [phase_fetched, shiftsSinceError_fetched]
    exact h.phase

end Current

end Current

section Keeps

variable [Merge S] {m : Machine σ α V S φ} {c d : Config σ α V S} {t : Terminal}

theorem start_current (m : Machine σ α V S φ) (c : Config σ α V S) :
    Keeps (m.Current c) (m.Closed c) (m.start c) := by
  have hbegun : m.Recorded c (m.bottom c :: c.stack.items) (m.begun c) := ⟨.empty, rfl⟩
  rw [start_eq]
  refine (m.push_keeps _ _ fun hfull => .full hbegun (List.suffix_cons _ _) hfull).imp ?_
    fun d => id
  rintro d ⟨rfl, -⟩
  exact ⟨⟨.empty, rfl⟩, rfl, Or.inl rfl⟩

theorem Recorded.countShift {frames : List (Frame V S)} (h : m.Recorded c frames d) :
    m.Recorded c frames (countShift d) := by
  unfold Machine.countShift
  split
  · exact h
  · split
    · have hnormal : m.Recorded c frames { d with mode := .normal } := ⟨h.chronicle, h.account⟩
      exact hnormal.emit rfl
    · exact ⟨h.chronicle, h.account⟩

/-- Counting a token that was just shifted leads to the mode that the history leads to. -/
theorem countShift_current {past : List (Event V S)} {f : Frame V S}
    (h : m.Recorded c d.stack.items d) (htrace : d.trace = .shifted t f :: past)
    (hmode : d.mode = modeAfter past)
    (hphase : d.phase = .deciding ∨ shiftsSinceError past ≠ none) :
    m.Current c (countShift d) := by
  have hstack : (countShift d).stack = d.stack := (countShift_alike d).2.1
  refine ⟨hstack ▸ h.countShift, ?_, ?_⟩
  · rw [mode_countShift, hmode, modeAfter, modeAfter, shiftsSinceError_countShift, htrace]
    exact (modeAfter_shifted t f past).symm
  · rw [(countShift_alike d).2.2.2.2.1, shiftsSinceError_countShift, htrace]
    simpa [shiftsSinceError] using hphase

theorem shift_current (h : m.Current c d) (target : StateId) :
    Keeps (m.Current c) (m.Closed c) (m.shift d target) := by
  have hfetched := h.fetched
  have hl := lookahead_fetched m d
  simp only [shift, fetch_eq]
  refine .bind (m.push_keeps _ _ fun _ =>
    .standing (hfetched.recorded.attempted hl target)) ?_
  rintro e ⟨rfl, hroom⟩
  have hshifted := hfetched.recorded.shifted hl target hroom
    ((m.fetched d).stack.push ⟨target, (m.scanner.value (m.fetched d).scanner).1,
      m.scanner.span (m.scanner.value (m.fetched d).scanner).2⟩)
  exact Current.turned (countShift_current hshifted rfl hfetched.mode hfetched.phase)

theorem unwind_recorded {frames : List (Frame V S)} (hd : d.stack.items = frames)
    (h : m.Recorded c d.stack.items d) (h₀ : shiftsSinceError d.trace = some 0) :
    Keeps (fun y => m.Recorded c y.2.stack.items y.2 ∧ shiftsSinceError y.2.trace = some 0)
      (m.Closed c) (m.unwind d frames) := by
  induction frames generalizing d with
  | nil => exact .standing (h.emit rfl)
  | cons f rest ih =>
    unfold unwind
    refine .bind (.demand .index _ (.standing h)) fun s _ => ?_
    cases s.shiftTarget? m.tables.errorTerminal with
    | some target => exact ⟨h, h₀⟩
    | none =>
      have hpopped := h.popped (by simp [h₀]) f.state (d.stack.drop 1)
      rw [← FrameStack.items_drop] at hpopped
      exact ih (by simp [hd]) hpopped h₀

theorem recover_current (h : m.Current c d) (expected : List Terminal) :
    Keeps (m.Current c) (m.Closed c) (m.recover d expected) := by
  have hcomplained : m.Recorded c (m.complained d expected).stack.items
      (m.complained d expected) := by
    rw [stack_complained, ← stack_fetched m d]
    exact h.fetched.recorded.complained (lookahead_fetched m d) h.fetched.mode expected
  rw [recover_eq]
  refine .bind (unwind_recorded rfl hcomplained (shiftsSinceError_complained m d expected)) ?_
  rintro ⟨target, e⟩ ⟨he, h₀⟩
  have hcatching : m.Recorded c e.stack.items (e.emit (.catching target)) := he.emit rfl
  refine .bind (m.push_keeps _ _ fun _ => .standing hcatching) ?_
  rintro e' ⟨rfl, hroom⟩
  have h₀' : shiftsSinceError (e.emit (.catching target)).trace = some 0 := h₀
  have hurt : shiftsSinceError (e.emit (.catching target)).trace ≠ none := by
    rw [h₀']
    exact Option.some_ne_none 0
  have hcaught := hcatching.caught hurt hroom
    ⟨target, m.actions.blank, m.scanner.span (m.fetched d).scanner⟩ (e.stack.push
      ⟨target, m.actions.blank, m.scanner.span (m.fetched d).scanner⟩)
  have hmode : modeAfter (e.emit (.catching target)).trace = .recovering 0 := by
    rw [modeAfter, h₀']
    rfl
  exact ⟨⟨hcaught.chronicle, hcaught.account⟩, hmode.symm, Or.inr hurt⟩

theorem spread_gap_summoned (m : Machine σ α V S φ) (d : Config σ α V S) (r : RuleId)
    (rule : Rule) (frames : List (Frame V S)) :
    spread (m.gap d) frames =
      spread (Merge.merge (m.scanner.span (m.summoned d r rule frames).scanner)
        (m.summoned d r rule frames).lastSpan) frames := by
  match frames with
  | [] => simp [summoned, gap]
  | [f] => rfl
  | f :: g :: rest => rfl

theorem summoned_current (h : m.Current c d) (r : RuleId) (rule : Rule)
    (frames : List (Frame V S)) : m.Current c (m.summoned d r rule frames) := by
  have hreducing : m.Current c (d.emit (.reducing r rule)) := h.emit rfl
  unfold summoned
  split
  · exact hreducing.fetched
  · exact hreducing

theorem replied_current {r : RuleId} {rule : Rule} {frames : List (Frame V S)}
    (h : m.Current c d) (htop : d.stack.top rule.length = .ok frames) (reply : Reply α V) :
    m.Current c (replied (m.summoned d r rule frames) (m.reduction d r rule frames)
      (m.given frames) reply) := by
  obtain ⟨hitems, hlength⟩ := FrameStack.items_of_top htop
  have hsummoned := summoned_current h r rule frames
  have hknown : frames = [] → (m.summoned d r rule frames).lookahead ≠ none := by
    rintro rfl
    simp [summoned]
  have hrecorded := hsummoned.recorded
  rw [stack_summoned, hitems] at hrecorded
  have hreplied := hrecorded.replied (r := r) hlength hknown reply
  rw [← spread_gap_summoned, ← hitems] at hreplied
  refine ⟨?_, ?_, ?_⟩
  · rw [stack_replied, stack_summoned]
    exact hreplied
  · rw [mode_replied, modeAfter, shiftsSinceError_replied, hsummoned.mode, modeAfter]
  · rw [phase_replied, shiftsSinceError_replied]
    exact hsummoned.phase

theorem goto_current {r : Reduction V S} {given made : V} {past : List (Event V S)}
    (h : m.Current c d) (htrace : d.trace = .reduced r given made .proceed :: past) :
    Keeps (m.Current c) (m.Closed c) (m.goto d r.rule.length r.rule.lhs made r.span) := by
  unfold goto
  refine .bind (.demand .stack _ h.closed) fun k hk => ?_
  have hitems : k.items = d.stack.items.drop r.rule.length := by
    rw [FrameStack.discard] at hk
    split at hk
    · rw [← Except.ok.inj hk, FrameStack.items_drop]
    · simp at hk
  have hbelow : k.items <:+ d.stack.items := hitems ▸ List.drop_suffix _ _
  have hdrop : m.Recorded c d.stack.items { d with stack := k } :=
    ⟨h.recorded.chronicle, h.recorded.account⟩
  dsimp only
  -- From here on the stack lacks the frames of the right-hand side until the new one is pushed.
  cases hk' : k.items with
  | nil =>
    rw [FrameStack.peek_of_nil hk']
    exact .bare hdrop hk'
  | cons f rest =>
    rw [FrameStack.peek_of_cons hk']
    have hmem : f ∈ k.items := hk' ▸ List.mem_cons_self
    have hlength : k.items.length = d.stack.items.length - r.rule.length := by
      rw [hitems, List.length_drop]
    have hproper : r.rule.length < d.stack.items.length := by
      rw [hk', List.length_cons] at hlength
      omega
    refine .bind (P := (· = f)) rfl ?_
    intro g hg
    subst hg
    refine .bind (P := fun _ => True) ?_ fun s _ => ?_
    · cases hs : m.tables.state g.state with
      | ok s => trivial
      | error e => exact Closed.lost hdrop hbelow hmem hs
    · refine .bind (m.push_keeps _ _ fun hfull => Closed.full hdrop hbelow hfull) ?_
      rintro e ⟨rfl, hroom⟩
      have hfolded := h.recorded.folded htrace hproper (hlength ▸ hroom)
        ((s.gotoFor r.rule.lhs).getD g.state)
        (k.push ⟨(s.gotoFor r.rule.lhs).getD g.state, made, r.span⟩)
      rw [← hitems] at hfolded
      exact Current.turned ⟨hfolded, h.mode, h.phase⟩

theorem skip_current (h : m.Current c d) (force : Bool) (hphase : d.phase = .skipping force) :
    Keeps (m.Current c) (m.Closed c) (m.skip d force) := by
  have hurt : shiftsSinceError d.trace ≠ none := by
    rcases h.phase with hp | hp
    · simp [hphase] at hp
    · exact hp
  have hresumed {e : Config σ α V S} (he : m.Current c e) (s : StateId) :
      m.Current c (resynchronized e s) := by
    have hdeciding : m.Current c { e with phase := .deciding } :=
      ⟨⟨he.recorded.chronicle, he.recorded.account⟩, he.mode, Or.inl rfl⟩
    exact (hdeciding.emit rfl).turned
  have hfetched := h.fetched
  unfold skip
  refine .bind (.demand .stack _ h.closed) fun f _ =>
    .bind (.demand .index _ h.closed) fun s _ => ?_
  rw [fetch_eq]
  dsimp only
  split
  · exact hresumed h f.state
  · split
    · exact hresumed hfetched f.state
    · split
      · exact (hfetched.emit rfl).closed
      · rename_i more
        have hurt' : shiftsSinceError (m.fetched d).trace ≠ none := by
          rwa [shiftsSinceError_fetched]
        exact ⟨hfetched.recorded.discarded hurt' (lookahead_fetched m d) more _, hfetched.mode,
          Or.inr hurt'⟩

theorem reduce_current (h : m.Current c d) (r : RuleId) :
    Keeps (m.Current c) (m.Closed c) (m.reduce d r) := by
  rw [reduce_eq_follow]
  refine .bind (.demand .index _ h.closed) fun rule _ => ?_
  have hreducing : m.Current c (d.emit (.reducing r rule)) := h.emit rfl
  refine .bind (.demand .stack _ hreducing.closed) fun frames htop => ?_
  refine .bind (.demand .action _ (summoned_current h r rule frames).closed) fun reply _ => ?_
  have hreplied := replied_current (r := r) h htop reply
  unfold follow
  cases hc : reply.control with
  | accept => exact hreplied.closed
  | abort => exact hreplied.closed
  | raise => exact recover_current hreplied []
  | proceed =>
    dsimp only
    split
    · exact hreplied.closed
    · have htrace := trace_replied (m.summoned d r rule frames) (m.reduction d r rule frames)
        (m.given frames) reply
      rw [hc] at htrace
      exact goto_current hreplied htrace

theorem step_current (h : m.Current c d) :
    Keeps (m.Current c) (m.Closed c) (m.step d) := by
  unfold step
  split
  · rename_i force hphase
    exact skip_current h force hphase
  · refine .bind (.demand .stack _ h.closed) fun f _ =>
      .bind (.demand .index _ h.closed) fun s _ => ?_
    rw [nextAction_eq]
    have hpoised : m.Current c (if s.hasLookahead then m.fetched d else d) := by
      split
      · exact h.fetched
      · exact h
    cases Action.decode (s.lookup (m.ahead d)) with
    | shift target => exact shift_current hpoised target
    | reduce r => exact reduce_current hpoised r
    | error => exact recover_current hpoised _

/-- A parse writes its history into its trace, whatever the tables, the scanner and the actions
are. -/
theorem progress_closed (m : Machine σ α V S φ) (c : Config σ α V S) (n : Nat) :
    m.Closed c (m.progress n c).config :=
  progress_keeps (start_current m c) Current.closed step_current n

/-- The scanner was called as the trace tells and in no other way. -/
theorem scanner_progress (m : Machine σ α V S φ) (c : Config σ α V S) (n : Nat) :
    (m.progress n c).config.scanner = (m.account c (m.progress n c).config.trace).scanner := by
  obtain ⟨frames, hrecorded, -⟩ := (progress_closed m c n).recorded
  rw [hrecorded.account]

theorem scanner_parse (m : Machine σ α V S φ) (c : Config σ α V S) (n : Nat) :
    (m.parse n c).config.scanner = (m.account c (m.parse n c).config.trace).scanner := by
  obtain ⟨frames, hrecorded, -⟩ := (progress_closed m c n).recorded
  rw [parse_eq_finish, scanner_finish, hrecorded.finish.2, hrecorded.account]

theorem progress_current {n : Nat} (hn : (m.progress n c).verdict = .exhausted) :
    m.Current c (m.progress n c).config :=
  progress_exhausted (start_current m c) step_current hn

/-- The same of a parse whose first step is still to come, wherever its steps lead. -/
theorem Current.reaches {x : σ} {a : α} (hd : 0 < m.maxDepth) (hr : m.Reaches (m.opening x a) d) :
    m.Current (m.init x a) d := by
  have hstart := start_current m (m.init x a)
  rw [start_init m x a hd] at hstart
  refine hr.preserves (P := m.Current (m.init x a)) ?_ hstart
  intro c c' hc hs
  have hstep := step_current hc
  rwa [hs] at hstep

end Keeps

end ShiftReduce.Machine
