import ShiftReduce.Proofs.Calculator.Boundary

namespace ShiftReduce.Calculator

variable {maxDepth : Nat} {p q : String} {bindings : Variables} {v : Value}
  {c d : Config Lexer Ledger Value Span} {h : Halt Lexer Ledger Value Span ActionFault}

theorem ofString_joined (p q : String) :
    (Lexer.ofString (p ++ "\n" ++ q)).rest = p.toList ++ '\n' :: q.toList := by
  change (p ++ "\n" ++ q).toList = _
  simp

/-- A parse that accepts had room for a statement. -/
theorem one_lt_of_accepts (hd : 0 < maxDepth)
    (hr : (machine maxDepth).Reaches (beginning maxDepth p bindings) c)
    (hs : (machine maxDepth).step c = .error ⟨.accepted v, d⟩) : 1 < maxDepth := by
  obtain ⟨⟨f, g, hitems, -⟩, -⟩ := accepted_shape (Fitting.visited hr).linked hs
  have hdepth := hr.depth_le hd
  rw [hitems] at hdepth
  exact hdepth

/-- The run behind an evaluation that comes to its end, and what of the evaluation can be seen
before its last step. -/
structure Finishes (maxDepth : Nat) (p : String) (bindings : Variables)
    (c : Config Lexer Ledger Value Span) : Prop where
  room : 1 < maxDepth
  visited : (machine maxDepth).Reaches (beginning maxDepth p bindings) c
  accepts : ∃ v d, (machine maxDepth).step c = .error ⟨.accepted v, d⟩
  statements : (evaluate maxDepth p bindings).statements = c.actions.statements.reverse
  errors : (evaluate maxDepth p bindings).errors = c.actions.errors.reverse
  bindings_eq : (evaluate maxDepth p bindings).bindings = c.actions.bindings
  diagnostics : (evaluate maxDepth p bindings).diagnostics =
    ((machine maxDepth).fetched c).scanner.diagnostics.reverse
  stats : (evaluate maxDepth p bindings).stats.errors = c.stats.errors

theorem exists_finishes (hp : (evaluate maxDepth p bindings).outcome = .finished) :
    ∃ c, Finishes maxDepth p bindings c := by
  have hpos : 0 < maxDepth := by
    rw [Nat.pos_iff_ne_zero]
    rintro rfl
    simp [evaluate_of_zero] at hp
  obtain ⟨c, ⟨verdict, d⟩, hr, hs, heval⟩ := evaluate_ends maxDepth p bindings hpos
  rw [heval] at hp
  obtain ⟨v, rfl⟩ : ∃ v, verdict = .accepted v := ofVerdict_eq_finished.1 hp
  obtain ⟨-, -, -, hactions, hscanner⟩ := accepted_shape (Fitting.visited hr).linked hs
  refine ⟨c, one_lt_of_accepts hpos hr hs, hr, ⟨v, d, hs⟩, ?_, ?_, ?_, ?_, ?_⟩
  · rw [heval, ← hactions]
    rfl
  · rw [heval, ← hactions]
    rfl
  · rw [heval, ← hactions]
    rfl
  · rw [heval, ← hscanner]
    rfl
  · rw [heval, ← Machine.errors_of_accepted hs]
    rfl

/-- No error has just come up where a run comes to its end. -/
theorem Finishes.mode_ne (h : Finishes maxDepth p bindings c) : c.mode ≠ .recovering 0 := by
  have hu := (Underway.beginning maxDepth p bindings).reaches h.visited
  obtain ⟨v, d, hs⟩ := h.accepts
  obtain ⟨⟨f, g, hitems, hf, -⟩, -⟩ := accepted_shape hu.fitting.linked hs
  intro hmode
  have hcaught := hu.steady.stalled hmode f (by rw [hitems, List.head?_cons])
  rw [hf] at hcaught
  exact absurd hcaught (by decide)

/-- The place in a joined text where the first one has been taken to its end: the parse stands in
front of the first token of the other one, with a ledger and in a mode that `c` has as well. -/
structure Crosses (maxDepth : Nat) (p q : String) (bindings : Variables)
    (c d : Config Lexer Ledger Value Span) (y : Lexer) : Prop where
  opened : Opened y c.actions c.mode d
  between : y.Between p.toList q.toList
  diagnostics : y.diagnostics = ((machine maxDepth).fetched c).scanner.diagnostics
  passed : ∀ d ∈ y.diagnostics, d.span.start.Precedes y.place
  visited : ∃ d₀, (machine maxDepth).Reaches (beginning maxDepth (p ++ "\n" ++ q) bindings) d₀ ∧
    (machine maxDepth).step d = (machine maxDepth).step d₀

/-- Where there is nothing to read in the first text, nothing has happened yet. -/
theorem Finishes.crosses_of_blank (h : Finishes maxDepth p bindings c) (q : String)
    (hblank : (Lexer.ofString p).next.1 = .endOfInput) :
    ∃ d y, Crosses maxDepth p q bindings c d y := by
  obtain ⟨v, e, hs⟩ := h.accepts
  obtain ⟨c₁, hc₁, ho⟩ := exists_opened (Lexer.ofString p) { bindings } h.room
  obtain ⟨h₁, hs₁⟩ : ∃ h, (machine maxDepth).step c₁ = .error h := ho.accepts hblank
  obtain rfl : c₁ = c := by
    rcases (h.visited.tail_of_step hs hc₁).cases_head with rfl | ⟨c₂, hc₂, -⟩
    · rfl
    · simp [hs₁] at hc₂
  obtain ⟨d, hd₁, hod⟩ := exists_opened (Lexer.ofString (p ++ "\n" ++ q)) { bindings } h.room
  refine ⟨d, Lexer.ofString (p ++ "\n" ++ q), ⟨?_, ⟨p.toList, ofString_joined p q, ?_, rfl⟩, ?_,
    by simp [Lexer.ofString], d, .single hd₁, rfl⟩⟩
  · rw [ho.actions, ho.mode_eq]
    exact hod
  · rw [Lexer.next_eq] at hblank
    exact (Lexer.token_eq_endOfInput_iff _).1 hblank
  · rw [Machine.fetched_of_some ho.lookahead, ho.scanner, Lexer.diagnostics_next,
      Lexer.complaint_of_ne_invalid (by simp [hblank])]
    rfl

def Setting.ahead (q : String) : Setting where
  behind := '\n' :: q.toList
  apart := .inr ⟨_, rfl⟩

theorem Setting.ledgerOf_ahead (q : String) (l : Ledger) : (Setting.ahead q).ledgerOf l = l := by
  simp [ledgerOf, ahead]

/-- Where a parse of the first text ends, the same parse of the joined text goes on with the
other. -/
theorem Setting.Replays.crosses (hu : Underway maxDepth (({} : Position).advance p.toList) c)
    (h : (Setting.ahead q).Replays c d)
    (hr : (machine maxDepth).Reaches (beginning maxDepth (p ++ "\n" ++ q) bindings) d)
    {e : Config Lexer Ledger Value Span}
    (hs : (machine maxDepth).step c = .error ⟨.accepted v, e⟩) (hunread : c.lookahead = none) :
    Crosses maxDepth p q bindings c ((machine maxDepth).fetched d) d.scanner := by
  obtain ⟨⟨f, g, hitems, hf, hg⟩, hphase, hend, -⟩ := accepted_shape hu.fitting.linked hs
  have hunread' : d.lookahead = none := h.lookahead.trans hunread
  have hlast : c.scanner.next.1 = .endOfInput := by
    rw [Machine.ahead_of_none hunread] at hend
    exact Token.terminal_injective hend
  have hscanner : ((machine maxDepth).fetched c).scanner = c.scanner.next.2 :=
    Machine.scanner_fetched_of_none hunread
  obtain ⟨hmode, hdiagnostics⟩ := h.heard.of_not_recovering rfl
  have hsame : d.scanner.diagnostics = c.scanner.diagnostics := by
    rw [hdiagnostics]
    simp [Setting.shown, Setting.ahead]
  have hplace : d.scanner.place = c.scanner.place := h.lexer.place
  obtain ⟨f', rest, hf', hrest, hitems'⟩ := List.forall₂_cons_left_iff.1 (hitems ▸ h.frames)
  obtain ⟨g', below, hg', hbelow, rfl⟩ := List.forall₂_cons_left_iff.1 hrest
  obtain rfl := List.forall₂_nil_left_iff.1 hbelow
  have hmem : afterStmts ∈ stateIds := by decide
  have decides : (machine maxDepth).Decides d f' (stateAt afterStmts)
      (Action.decode ((stateAt afterStmts).lookup ((machine maxDepth).ahead d))) :=
    ⟨h.phase.trans hphase, by rw [hitems', List.head?_cons],
      by rw [hf'.state, hf]; exact state_eq hmem, rfl⟩
  refine ⟨⟨?_, ?_, ?_, ?_, ?_, f', g', ?_, hf'.state.trans hf, hg'.state.trans hg⟩,
      ⟨c.scanner.rest, h.lexer.rest, ?_, ?_⟩, ?_, ?_, d, hr, Machine.step_fetched decides rfl⟩
  · exact Machine.scanner_fetched_of_none hunread'
  · rw [Machine.lookahead_fetched, Machine.ahead_of_none hunread']
    rfl
  · rw [Machine.actions_fetched, h.actions, Setting.ledgerOf_ahead]
  · rw [Machine.mode_fetched, hmode]
  · rw [Machine.phase_fetched, h.phase, hphase]
  · rw [Machine.stack_fetched, hitems']
  · rw [hplace]
    rw [Lexer.next_eq] at hlast
    exact (Lexer.token_eq_endOfInput_iff _).1 hlast
  · rw [hplace]
    exact hu.steady.place
  · rw [hsame, hscanner, Lexer.diagnostics_next, Lexer.complaint_of_ne_invalid (by simp [hlast])]
    rfl
  · rw [hsame, hplace]
    exact hu.prompt.passed (by simp [hunread])

/-- A parse of the first text is taken to its end in the joined text. -/
theorem Finishes.crosses_of_text (h : Finishes maxDepth p bindings c) (q : String)
    (htext : (Lexer.ofString p).next.1 ≠ .endOfInput) :
    ∃ d y, Crosses maxDepth p q bindings c d y := by
  obtain ⟨v, e, hs⟩ := h.accepts
  have hu := Underway.beginning maxDepth p bindings
  have hopening : (Setting.ahead q).Replays (beginning maxDepth p bindings)
      (beginning maxDepth (p ++ "\n" ++ q) bindings) := by
    refine ⟨⟨ofString_joined p q, rfl, rfl, rfl⟩, .alike _ _, .cons ⟨rfl, ?_⟩ .nil, rfl, rfl, rfl⟩
    intro X hX
    simp [entered_start] at hX
  have hreads : (Setting.ahead q).Reads maxDepth (beginning maxDepth p bindings) := fun _ hend =>
    htext (Token.terminal_injective hend)
  -- The first step is not replayed by itself, since the stack is too shallow for what follows.
  obtain ⟨c₁, hc₁, ho⟩ := exists_opened (Lexer.ofString p) { bindings } h.room
  have hstep := hopening.step hreads hu.timely hu.fitting
  rw [hc₁] at hstep
  obtain ⟨d₁, hd₁, hreplays⟩ := hstep.exists_ok
  have hdeep : 2 ≤ c₁.stack.items.length := by
    obtain ⟨f, g, hitems, -⟩ := ho.items
    rw [hitems]
    exact Nat.le_refl 2
  have hfirst : c₁.lookahead ≠ some Token.endOfInput.terminal := by
    rw [ho.lookahead]
    exact fun hend => htext (Token.terminal_injective (Option.some.inj hend))
  obtain ⟨d', hr', hreplays', hlook⟩ :=
    hreplays.replayed (hu.step hc₁) hdeep hfirst (h.visited.tail_of_step hs hc₁) hs
  obtain ⟨-, -, hend, -⟩ := accepted_shape (hu.reaches h.visited).fitting.linked hs
  refine ⟨_, _, hreplays'.crosses (hu.reaches h.visited) (.head hd₁ hr') hs ?_⟩
  cases hl : c.lookahead with
  | none => rfl
  | some t => exact absurd (by rw [hl, ← hend, Machine.ahead_of_some hl]) hlook

/-- The first text of a joined one is taken to its end. -/
theorem Finishes.exists_crosses (h : Finishes maxDepth p bindings c) (q : String) :
    ∃ d y, Crosses maxDepth p q bindings c d y := by
  by_cases hblank : (Lexer.ofString p).next.1 = .endOfInput
  · exact h.crosses_of_blank q hblank
  · exact h.crosses_of_text q hblank

/-- A diagnostic that a joined text has at the place where the second one begins is on a line of
the first. -/
theorem Crosses.above {y : Lexer} (h : Crosses maxDepth p q bindings c d y) :
    ∀ d ∈ y.diagnostics, d.span.start.line < p.toList.count '\n' + 1 := by
  intro e he
  obtain ⟨gap, -, -, hstop⟩ := h.between
  have hline := ((h.passed e he).advance gap).line_le
  rw [hstop, Position.line_advance] at hline
  change _ ≤ 0 + _ at hline
  omega

def Setting.after (p : String) (c : Config Lexer Ledger Value Span) (ds : List Diagnostic)
    (above : ∀ d ∈ ds, d.span.start.line < p.toList.count '\n' + 1) : Setting where
  lines := p.toList.count '\n' + 1
  ledger := c.actions
  diagnostics := ds
  recovering := c.mode ≠ .normal
  above

section After

variable {y : Lexer} {c₁ : Config Lexer Ledger Value Span}
  {above : ∀ d ∈ y.diagnostics, d.span.start.line < p.toList.count '\n' + 1}

theorem Lexer.Between.item_after (h : y.Between p.toList q.toList) :
    Lexer.item y.place y.rest =
      { (Lexer.item (Lexer.ofString q).place (Lexer.ofString q).rest).down
          (Setting.after p c y.diagnostics above).lines with
        rest := (Lexer.item (Lexer.ofString q).place (Lexer.ofString q).rest).rest ++
          (Setting.after p c y.diagnostics above).behind } := by
  rw [h.item_eq]
  change _ = { (Lexer.item {} q.toList).down _ with rest := (Lexer.item {} q.toList).rest ++ [] }
  rw [List.append_nil]
  rfl

/-- Unless it comes right after an error, a run is heard from its beginning on. -/
theorem Setting.heard_after (hmode : c.mode ≠ .recovering 0) :
    (Setting.after p c y.diagnostics above).Heard .normal c.mode [] y.diagnostics := by
  cases hc : c.mode with
  | normal => exact .alike .normal []
  | recovering n =>
    cases n with
    | zero => exact absurd hc hmode
    | succ n => exact .deaf n (by simp [Setting.after, hc]) (by simp)

theorem Setting.ledgerOf_after (hfatal : c.actions.fatal = none) :
    (Setting.after p c y.diagnostics above).ledgerOf { bindings := c.actions.bindings } =
      c.actions := by
  change ({ c.actions with fatal := none } : Ledger) = c.actions
  rw [← hfatal]

/-- The parse of the other text is replayed in the joined text, from the first token on. -/
theorem Crosses.replays (h : Crosses maxDepth p q bindings c d y)
    (hfatal : c.actions.fatal = none) (hmode : c.mode ≠ .recovering 0)
    (ho : Opened (Lexer.ofString q) { bindings := c.actions.bindings } .normal c₁) :
    (Setting.after p c y.diagnostics above).Replays c₁ d := by
  obtain ⟨htoken, hunder, new, hnew, hx, hy⟩ :=
    Setting.Under.of_item (w := Setting.after p c y.diagnostics above) h.between.item_after
  obtain ⟨f, g, hitems, hf, hg⟩ := ho.items
  obtain ⟨f', g', hitems', hf', hg'⟩ := h.opened.items
  refine ⟨?_, ?_, ?_, ?_, ?_, ?_⟩
  · rw [ho.scanner, h.opened.scanner]
    exact hunder
  · rw [ho.mode_eq, h.opened.mode_eq, ho.scanner, h.opened.scanner, hx, hy]
    exact (Setting.heard_after hmode).lexical hnew
  · rw [hitems, hitems']
    refine .cons ⟨hf'.trans hf.symm, fun X hX hother => ?_⟩
      (.cons ⟨hg'.trans hg.symm, fun X hX => ?_⟩ .nil)
    · rw [hf, (stmts_entered afterStmts (by decide)).2 rfl] at hX
      exact absurd (Option.some.inj hX).symm hother
    · rw [hg, entered_start] at hX
      simp at hX
  · rw [ho.lookahead, h.opened.lookahead, htoken]
  · rw [ho.phase, h.opened.phase]
  · rw [ho.actions, h.opened.actions, Setting.ledgerOf_after hfatal]

end After

/-- A run that nothing follows ends in its setting as it does without. -/
theorem Setting.Replays.ends {w : Setting} {stop : Position} {c' : Config Lexer Ledger Value Span}
    (hw : w.behind = []) (hu : Underway maxDepth stop c) (hreplays : w.Replays c d)
    (hr : (machine maxDepth).Reaches c c') (hs : (machine maxDepth).step c' = .error h) :
    ∃ d' h', (machine maxDepth).Reaches d d' ∧ (machine maxDepth).step d' = .error h' ∧
      w.Closes h h' := by
  refine Machine.lockstep (R := fun c d => Underway maxDepth stop c ∧ w.Replays c d) ?_
    ⟨hu, hreplays⟩ hr hs
  rintro c d ⟨hu, hreplays⟩
  have hreads : w.Reads maxDepth c := fun hne => absurd hw hne
  exact (hreplays.step hreads hu.timely hu.fitting).and_left fun b hb => hu.step hb

/-- What two runs that have come to the same end have come to. -/
theorem Setting.Closes.ending {w : Setting} {h h' : Halt Lexer Ledger Value Span ActionFault}
    (hcloses : w.Closes h h') :
    (ending h').statements =
        w.ledger.statements.reverse ++ (ending h).statements.map (·.down w.lines) ∧
      (ending h').errors = w.ledger.errors.reverse ++ (ending h).errors.map (·.down w.lines) ∧
      (ending h').outcome = (ending h).outcome.down w.lines ∧
      (ending h').bindings = (ending h).bindings ∧
      ∃ ds, (ending h').diagnostics = w.diagnostics.reverse ++ ds.map (·.down w.lines) ∧
        (ds = (ending h).diagnostics ∨ w.recovering = true ∧
          ds = (ending h).diagnostics.eraseP fun d => !d.isLexical) := by
  obtain ⟨mode, mode', hheard⟩ := hcloses.heard
  obtain ⟨es, hes, hcases⟩ := hheard.exists_shown
  have houtcome := w.outcome_eq h.config.actions hcloses.verdict
  rw [← hcloses.actions] at houtcome
  refine ⟨?_, ?_, houtcome, ?_, es.reverse, ?_, ?_⟩
  · change h'.config.actions.statements.reverse = _
    rw [hcloses.actions]
    simp [Setting.ledgerOf, Calculator.ending]
  · change h'.config.actions.errors.reverse = _
    rw [hcloses.actions]
    simp [Setting.ledgerOf, Calculator.ending]
  · change h'.config.actions.bindings = _
    rw [hcloses.actions]
    rfl
  · change h'.config.scanner.diagnostics.reverse = _
    rw [hes]
    simp [Setting.shown]
  · rcases hcases with rfl | ⟨hrecovering, hes⟩
    · exact .inl rfl
    · exact .inr ⟨hrecovering, hes⟩

/-- A program that is evaluated to its end changes nothing about what is evaluated on the lines
behind it but the variables. After a syntax error in it, the first one there may go without a
diagnostic. -/
theorem evaluate_joined (maxDepth : Nat) (p q : String) (bindings : Variables)
    (hp : (evaluate maxDepth p bindings).outcome = .finished) :
    let k := p.toList.count '\n' + 1
    let joined := evaluate maxDepth (p ++ "\n" ++ q) bindings
    let first := evaluate maxDepth p bindings
    let second := evaluate maxDepth q first.bindings
    joined.statements = first.statements ++ second.statements.map (·.down k) ∧
      joined.errors = first.errors ++ second.errors.map (·.down k) ∧
      joined.outcome = second.outcome.down k ∧ joined.bindings = second.bindings ∧
      ∃ ds, joined.diagnostics = first.diagnostics ++ ds.map (·.down k) ∧
        (ds = second.diagnostics ∨ first.stats.errors ≠ 0 ∧
          ds = second.diagnostics.eraseP fun d => !d.isLexical) := by
  obtain ⟨c, h⟩ := exists_finishes hp
  have hpos : 0 < maxDepth := Nat.zero_lt_of_lt h.room
  have hu := (Underway.beginning maxDepth p bindings).reaches h.visited
  obtain ⟨d, y, hcross⟩ := h.exists_crosses q
  obtain ⟨d₀, hr₀, heq⟩ := hcross.visited
  obtain ⟨c₁, hc₁, ho⟩ := exists_opened (Lexer.ofString q) { bindings := c.actions.bindings } h.room
  have hu₁ := (Underway.beginning maxDepth q c.actions.bindings).step hc₁
  have hreplays : (Setting.after p c y.diagnostics hcross.above).Replays c₁ d :=
    hcross.replays hu.steady.fatal h.mode_ne ho
  obtain ⟨c₂, h₂, hr₂, hs₂, hsecond⟩ := evaluate_ends maxDepth q c.actions.bindings hpos
  obtain ⟨d₁, h₁, hr₁, hs₁, hcloses⟩ := hreplays.ends rfl hu₁ (hr₂.tail_of_step hs₂ hc₁) hs₂
  obtain ⟨d₂, hr₁, hs₁⟩ := hr₁.of_step_eq hs₁ heq.symm
  have hjoined := evaluate_of_reaches maxDepth (p ++ "\n" ++ q) bindings hpos (hr₀.trans hr₁) hs₁
  obtain ⟨hstatements, herrors, houtcome, hbindings, ds, hdiagnostics, hds⟩ := hcloses.ending
  intro k joined first second
  have hbegin : second = evaluate maxDepth q c.actions.bindings := by
    rw [← h.bindings_eq]
  simp only [hbegin, hsecond, joined, hjoined, first, h.statements, h.errors, h.diagnostics,
    h.stats, ← hcross.diagnostics]
  refine ⟨hstatements, herrors, houtcome, hbindings, ds, hdiagnostics, hds.imp id ?_⟩
  rintro ⟨hrecovering, hmissed⟩
  have hmode : c.mode ≠ .normal := by simpa [Setting.after] using hrecovering
  exact ⟨fun herrors => hmode (hu.steady.calm herrors), hmissed⟩

theorem evaluate_joined_recovering :
    (evaluate 16 "x = ;" .empty).outcome = .finished ∧
      (evaluate 16 ("x = ;" ++ "\n" ++ "1 + ; 2;") .empty).values = [none, none, some 2] := by
  have hfinished : (evaluate 16 "x = ;" .empty).outcome = .finished := by decide +kernel
  obtain ⟨hstatements, -⟩ := evaluate_joined 16 "x = ;" "1 + ; 2;" .empty hfinished
  refine ⟨hfinished, ?_⟩
  rw [Evaluation.values, hstatements]
  decide +kernel

end ShiftReduce.Calculator
