import ShiftReduce.Proofs.Calculator.Safety
import ShiftReduce.Proofs.Calculator.Setting

namespace ShiftReduce.Calculator

variable {maxDepth : Nat} {c c' d : Config Lexer Ledger Value Span}

/-- The diagnostics keep up with the text. Until the end of input has been read they are all about
what comes before the place reached, and unless the token read last has just stopped the parse, it
has no diagnostic but the lexer's. -/
structure Prompt (c : Config Lexer Ledger Value Span) : Prop where
  passed : c.lookahead ≠ some Token.endOfInput.terminal →
    ∀ d ∈ c.scanner.diagnostics, d.span.start.Precedes c.scanner.place
  current : ∀ t, c.lookahead = some t → t ≠ Token.endOfInput.terminal →
    c.scanner.span.start.Precedes c.scanner.place
  timely : ∀ t, c.lookahead = some t → c.mode ≠ .recovering 0 → c.scanner.Timely

namespace Prompt

theorem of_eq (h : Prompt c) (hs : d.scanner = c.scanner) (hl : d.lookahead = c.lookahead)
    (hm : d.mode = c.mode) : Prompt d := by
  refine ⟨?_, ?_, ?_⟩
  · rw [hs, hl]
    exact h.passed
  · rw [hs, hl]
    exact h.current
  · rw [hs, hl, hm]
    exact h.timely

theorem fetched (h : Prompt c) : Prompt ((machine maxDepth).fetched c) := by
  cases hl : c.lookahead with
  | some t => rwa [Machine.fetched_of_some hl]
  | none =>
    have hlook : ((machine maxDepth).fetched c).lookahead = some c.scanner.next.1.terminal := by
      rw [Machine.lookahead_fetched, Machine.ahead_of_none hl]
      rfl
    have hpassed := h.passed (by simp [hl])
    have hscanner : ((machine maxDepth).fetched c).scanner = c.scanner.next.2 :=
      Machine.scanner_fetched_of_none hl
    rw [Lexer.next_eq] at hlook hscanner
    have hstart := fun d hd => Lexer.precedes_start (l := c.scanner.rest) (hpassed d hd)
    have hstop (t : Terminal)
        (ht : some (Lexer.item c.scanner.place c.scanner.rest).token.terminal = some t)
        (hend : t ≠ Token.endOfInput.terminal) :
        (Lexer.item c.scanner.place c.scanner.rest).start.Precedes
          (Lexer.item c.scanner.place c.scanner.rest).stop := by
      refine Lexer.start_precedes_stop fun hlast => hend ?_
      rw [← Option.some.inj ht, (Lexer.token_eq_endOfInput_iff _).2 hlast]
    refine ⟨?_, ?_, ?_⟩
    · rw [hlook, hscanner]
      intro hend d hd
      have hitem := hstop _ rfl fun h => hend (congrArg some h)
      rcases List.mem_append.1 hd with hd | hd
      · rw [(Lexer.Item.isLexical_of_mem_complaint hd).2]
        exact hitem
      · exact (hstart d hd).trans hitem
    · rw [hlook, hscanner]
      exact hstop
    · intro t _ _
      rw [hscanner]
      exact ⟨_, _, rfl, fun d hd => (Lexer.Item.isLexical_of_mem_complaint hd).1, hstart⟩

theorem acted {s : State} {r : RuleId} {frames : List (Frame Value Span)}
    {reply : Reply Ledger Value} (h : Prompt c)
    (hd : (machine maxDepth).Acted c s r frames reply d) : Prompt d := by
  have hp : Prompt ((machine maxDepth).poised c s frames) := by
    rcases Machine.poised_cases (machine maxDepth) c s frames with hp | ⟨hp, -, -⟩
    · rw [hp]
      exact h.fetched
    · rwa [hp]
  exact hp.of_eq hd.scanner hd.lookahead (hd.mode.trans (Machine.mode_poised _ _ _ _).symm)

theorem recovers {expected : List Terminal} (h : Prompt c)
    (hr : (machine maxDepth).Recovers c expected (.ok c')) : Prompt c' := by
  cases hr with
  | recovered items passed state catches room result =>
    have hf : Prompt ((machine maxDepth).fetched c) := h.fetched
    have hlook : c'.lookahead = ((machine maxDepth).fetched c).lookahead := by
      rw [result.lookahead, Machine.lookahead_fetched]
    refine ⟨?_, ?_, fun _ _ hmode => absurd result.mode hmode⟩
    · intro hend
      rw [hlook] at hend
      have hpassed := hf.passed hend
      have hcurrent := hf.current _ (Machine.lookahead_fetched _ c)
        fun ht => hend (by rw [Machine.lookahead_fetched, ht])
      rw [result.scanner]
      split
      · change ∀ d ∈ (Lexer.report _ _ _).diagnostics,
          d.span.start.Precedes (Lexer.report _ _ _).place
        rw [Lexer.diagnostics_report, Lexer.place_report]
        split
        · exact hpassed
        · intro d hd
          rcases List.mem_cons.1 hd with rfl | hd
          · exact hcurrent
          · exact hpassed d hd
      · exact hpassed
    · intro t ht
      rw [hlook] at ht
      rw [result.scanner]
      split
      · change _ → (Lexer.report _ _ _).span.start.Precedes (Lexer.report _ _ _).place
        rw [Lexer.span_report, Lexer.place_report]
        exact hf.current t ht
      · exact hf.current t ht

/-- No step puts a diagnostic out of order. -/
theorem step (hl : Linked c.stack.items) (h : Prompt c)
    (hs : (machine maxDepth).step c = .ok c') : Prompt c' := by
  have hf : Prompt ((machine maxDepth).fetched c) := h.fetched
  have consumed {d : Config Lexer Ledger Value Span}
      (hne : (machine maxDepth).ahead c ≠ Token.endOfInput.terminal) (hl : d.lookahead = none)
      (hd : d.scanner.diagnostics = ((machine maxDepth).fetched c).scanner.diagnostics)
      (hp : d.scanner.place = ((machine maxDepth).fetched c).scanner.place) : Prompt d := by
    refine ⟨fun _ => ?_, by simp [hl], by simp [hl]⟩
    rw [hd, hp]
    exact hf.passed (by simpa using hne)
  cases Machine.turn_of_ok hs with
  | shifted decides room result =>
    obtain ⟨l, rest, hinput, -⟩ := Decides.takes (supply maxDepth) rfl hl decides
    have hne := ((supply maxDepth).ahead_of_cons hinput).2.1
    refine consumed hne ?_ ?_ ?_
    · rw [result.lookahead, if_neg hne]
    · rw [result.scanner]
      rfl
    · rw [result.scanner]
      rfl
  | reduced d st decides reduces acted => exact (h.acted acted).of_eq rfl rfl rfl
  | failed decides recovers => exact h.recovers recovers
  | raised decides reduces acted raises recovers => exact (h.acted acted).recovers recovers
  | resumed phase top state careful fits =>
    split
    · exact hf.of_eq rfl rfl rfl
    · exact h.of_eq rfl rfl rfl
  | discarded phase top state unfit more => exact consumed more rfl rfl rfl

end Prompt

/-- What stays as it is until the parse ends: where the text stops, that no cause of a failure has
been noted, and that the mode tells of errors. -/
structure Steady (stop : Position) (c : Config Lexer Ledger Value Span) : Prop where
  place : c.scanner.place.advance c.scanner.rest = stop
  fatal : c.actions.fatal = none
  stalled : c.mode = .recovering 0 → ∀ f, c.stack.items.head? = some f → f.state = afterError
  calm : c.stats.errors = 0 → c.mode = .normal

namespace Steady

variable {stop : Position}

theorem place_fetched (h : Steady stop c) : ((machine maxDepth).fetched c).scanner.place.advance
    ((machine maxDepth).fetched c).scanner.rest = stop := by
  cases hl : c.lookahead with
  | some t =>
    rw [Machine.fetched_of_some hl]
    exact h.place
  | none =>
    rw [Machine.scanner_fetched_of_none hl]
    change c.scanner.next.2.place.advance c.scanner.next.2.rest = stop
    rw [Lexer.next_eq]
    exact (Lexer.advance_rest _ _).trans h.place

theorem place_poised (h : Steady stop c) (s : State) (frames : List (Frame Value Span)) :
    ((machine maxDepth).poised c s frames).scanner.place.advance
      ((machine maxDepth).poised c s frames).scanner.rest = stop := by
  rcases Machine.poised_cases (machine maxDepth) c s frames with hp | ⟨hp, -, -⟩
  · rw [hp]
    exact h.place_fetched
  · rw [hp]
    exact h.place

/-- An answer to an error leaves the text and the ledger as they are, and the error terminal on top
of the stack. -/
theorem recovers {d : Config Lexer Ledger Value Span} {expected : List Terminal}
    (hplace : ((machine maxDepth).fetched d).scanner.place.advance
      ((machine maxDepth).fetched d).scanner.rest = stop) (hfatal : d.actions.fatal = none)
    (ho : Orderly (supply maxDepth) c')
    (hr : (machine maxDepth).Recovers d expected (.ok c')) : Steady stop c' := by
  have hcount := hr.errors_ne_zero
  cases hr with
  | recovered items passed state catches room result =>
    refine ⟨?_, result.actions ▸ hfatal, ?_, fun h => absurd h hcount⟩
    · rw [result.scanner]
      split
      · change (Lexer.report _ _ _).place.advance (Lexer.report _ _ _).rest = stop
        rw [Lexer.place_report, Lexer.rest_report]
        exact hplace
      · exact hplace
    · exact fun _ f hf => ho.caught f hf (by rw [result.phase]; simp)

theorem shifted {target : StateId} (h : Steady stop c)
    (result : (machine maxDepth).Shifted c target c') : Steady stop c' := by
  refine ⟨?_, result.actions ▸ h.fatal, ?_, ?_⟩
  · rw [result.scanner]
    exact h.place_fetched
  · rw [result.mode]
    intro hmode
    cases hc : c.mode <;> simp [hc, Mode.counted] at hmode
    split at hmode <;> simp at hmode
  · rw [result.stats, result.mode]
    intro herrors
    rw [h.calm (by simpa using herrors)]
    rfl

theorem step (ho : Orderly (supply maxDepth) c) (h : Steady stop c)
    (hs : (machine maxDepth).step c = .ok c') : Steady stop c' := by
  have ho' := (ho.step rfl hs).1
  have fatal {r : Reduction Value Span} {v : Value} {reply : Reply Ledger Value}
      (hreply : Ledger.reduce r v c.actions = .ok reply) (hne : reply.control ≠ .abort) :
      reply.state.fatal = none :=
    ((Ledger.reduce_restrained hreply).2.resolve_left hne).trans h.fatal
  cases Machine.turn_of_ok hs with
  | shifted decides room result => exact h.shifted result
  | @reduced f g s s' r rule frames below reply d st decides reduces acted proceeds =>
    refine ⟨?_, ?_, ?_, ?_⟩
    · rw [Machine.scanner_turned, acted.scanner]
      exact h.place_poised s frames
    · rw [Machine.actions_turned, acted.actions]
      exact fatal reduces.reply (by simp [proceeds])
    · rw [Machine.mode_turned, acted.mode]
      intro hmode
      exact absurd (h.stalled hmode f decides.top) (ho.ne_afterError rfl decides (by simp))
    · rw [Machine.stats_turned, Machine.mode_turned, acted.stats, acted.mode]
      exact fun herrors => h.calm (by simpa using herrors)
  | failed decides hr => exact recovers h.place_fetched h.fatal ho' hr
  | raised decides reduces acted raises hr =>
    refine recovers ?_ ?_ ho' hr
    · rw [acted.scanner_fetched]
      exact h.place_fetched
    · rw [acted.actions]
      exact fatal reduces.reply (by simp [raises])
  | resumed phase top state careful fits =>
    split
    · exact ⟨h.place_fetched, by simpa using h.fatal, by simpa using h.stalled,
        by simpa using h.calm⟩
    · exact ⟨h.place, h.fatal, h.stalled, h.calm⟩
  | discarded phase top state unfit more =>
    exact ⟨h.place_fetched, by simpa using h.fatal, by simpa using h.stalled,
      by simpa using h.calm⟩

end Steady

end ShiftReduce.Calculator
