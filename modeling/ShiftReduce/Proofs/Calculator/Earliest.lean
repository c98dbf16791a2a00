import Mathlib.Algebra.BigOperators.Group.List.Basic
import ShiftReduce.Proofs.Calculator.Balance
import ShiftReduce.Proofs.Calculator.Moves
import ShiftReduce.Proofs.Calculator.Viable

namespace ShiftReduce.Calculator

theorem stmts_edges : ∀ s ∈ stateIds, ∀ e ∈ (stateAt s).edges,
    e.1 = .nonterminal Phrase.stmts.nonterminal → s = .start := by
  decide +kernel

theorem entered_ne_program : ∀ s ∈ stateIds,
    entered s ≠ some (.nonterminal Phrase.program.nonterminal) := by
  decide +kernel

/-- All statements that have been read are one phrase on the stack. -/
theorem Linked.count_stmts_le {V S : Type} {fs : List (Frame V S)} (h : Linked fs) :
    (symbols fs).count (.nonterminal Phrase.stmts.nonterminal) ≤ 1 := by
  induction h with
  | start state => simp [symbols, state, entered_start]
  | @push f g rest X edge below ih =>
    rw [symbols_cons, (edges_checked _ below.mem_stateIds _ edge).2.2.1, List.count_append]
    by_cases hX : X = .nonterminal Phrase.stmts.nonterminal
    · have hstart := stmts_edges _ below.mem_stateIds _ edge hX
      obtain rfl := below.eq_nil_of_start hstart
      simp [symbols, hstart, hX, entered_start]
    · simpa [hX] using ih

section Assembled

variable {σ α V S φ : Type} [Merge S] {m : Machine σ α V S φ}
  {feed : Supply m.scanner m.tables.endTerminal} {e : S} {w : List (Lexeme V S)} {a₀ : α}
  {c : Config σ α V S} {ps : List (Tree V S × Frame V S)}

/-- The stack is hardly higher than what has been read is long. -/
theorem Assembled.length_le (h : Assembled feed e w a₀ c ps) :
    c.stack.items.length + (feed.input c).length ≤ w.length + 2 := by
  obtain ⟨bottom, hitems, -⟩ := h.bottom
  have hpos : ∀ n ∈ (ps.map Prod.fst).map Tree.breadth, 1 ≤ n := by
    intro n hn
    rw [List.map_map] at hn
    obtain ⟨q, hq, rfl⟩ := List.mem_map.1 hn
    refine (h.valid q hq).breadth_pos fun hprog => ?_
    have hmem : q.2 ∈ c.stack.items := by
      rw [hitems]
      exact List.mem_append_left _ (List.mem_reverse.2 (List.mem_map.2 ⟨q, hq, rfl⟩))
    exact entered_ne_program _ (h.linked.mem_stateIds_of_mem hmem) (hprog ▸ h.symbols q hq)
  have hsum := List.length_le_sum_of_one_le _ hpos
  have hcount := h.linked.count_stmts_le
  rw [h.symbols_eq] at hcount
  rw [Tree.sum_breadth] at hsum
  simp only [List.length_map] at hsum
  rw [← h.input, List.length_append, hitems, List.length_append, List.length_reverse,
    List.length_map, List.length_singleton]
  omega

/-- As long as no error occurs, a parse goes on until it finds one or accepts. -/
theorem Assembled.turns (hm : m.tables = tables) (hproceed : m.actions.Proceeding)
    (hdepth : w.length + 3 ≤ m.maxDepth) (h : Assembled feed e w a₀ c ps) :
    (∃ c', m.step c = .ok c' ∧ c'.stats.errors = c.stats.errors) ∨
      (∃ f s, m.Decides c f s .error) ∨ ∃ v d, m.step c = .error ⟨.accepted v, d⟩ := by
  have hroom := h.length_le
  have sound {h' : Halt σ α V S φ} {k : Fault φ} (hs : m.step c = .error h')
      (hk : h'.verdict = .fault k) : False := by
    obtain ⟨f, s, r, rule, frames, below, i, -, reduces, -⟩ := h.linked.action_of_fault hm hs hk
    obtain ⟨reply, hreply, -⟩ := hproceed (m.reduction c r rule frames) (m.given frames) c.actions
    simp [reduces.reply] at hreply
  -- With room for every token the stack cannot overflow, actions that always proceed neither abort
  -- nor raise, and linked tables exclude the faults.
  have hturn := Machine.step_turn m c
  generalize hs : m.step c = x at hturn ⊢
  cases hturn with
  | shifted decides room result => exact .inl ⟨_, rfl, by simp [result.stats]⟩
  | reduced d st decides reduces acted => exact .inl ⟨_, rfl, by simp [acted.stats]⟩
  | accepted decides reduces acted => exact .inr (.inr ⟨_, _, rfl⟩)
  | failed decides => exact .inr (.inl ⟨_, _, decides⟩)
  | shiftOverflow decides full =>
    obtain ⟨l, rest, hinput, -⟩ := Decides.takes feed hm h.linked decides
    rw [hinput, List.length_cons] at hroom
    omega
  | gotoOverflow decides reduces full =>
    rw [reduces.items, List.length_append, List.length_cons] at hroom
    omega
  | aborted decides reduces acted aborts =>
    simp [hproceed.control_eq reduces.reply] at aborts
  | raised decides reduces acted raises =>
    simp [hproceed.control_eq reduces.reply] at raises
  | resumed phase => simp [h.phase] at phase
  | discarded phase => simp [h.phase] at phase
  | outOfInput phase => simp [h.phase] at phase
  | bare items verdict => exact absurd (sound hs verdict) id
  | lost top state verdict => exact absurd (sound hs verdict) id
  | lostRule decides rule verdict => exact absurd (sound hs verdict) id
  | shortStack decides known short verdict => exact absurd (sound hs verdict) id
  | actionFault decides reduces verdict => exact absurd (sound hs verdict) id
  | gotoBare decides reduces verdict => exact absurd (sound hs verdict) id
  | gotoLost decides reduces state verdict => exact absurd (sound hs verdict) id

/-- A parse that does not accept a program comes to an error, and from then on to its end it tells
of that error. -/
theorem Assembled.exists_failed {c' : Config σ α V S} {h' : Halt σ α V S φ}
    (hm : m.tables = tables) (hproceed : m.actions.Proceeding) (hdepth : w.length + 3 ≤ m.maxDepth)
    (htokens : ∀ l ∈ w, l.terminal ≠ Token.error.terminal)
    (hw : ¬ Derivable (w.map Lexeme.terminal)) (h : Assembled feed e w a₀ c ps)
    (herrors : c.stats.errors = 0) (hr : m.Reaches c c') (hs : m.step c' = .error h') :
    ∃ d f s, m.Reaches c d ∧ d.stats.errors = 0 ∧ m.Decides d f s .error ∧
      (m.complained d (s.expected m.tables.errorTerminal)).trace <:+ h'.config.trace := by
  have accepts {c : Config σ α V S} {ps : List (Tree V S × Frame V S)} {v : V}
      {d : Config σ α V S} (h : Assembled feed e w a₀ c ps)
      (hc : m.step c = .error ⟨.accepted v, d⟩) : False := by
    obtain ⟨t, ht, -⟩ := h.accepted hm (fun r v a reply hreply => by
      simp [hproceed.control_eq hreply]) htokens hc
    exact hw (Tree.derivable_iff.2 ⟨t, ht⟩)
  have complains {d : Config σ α V S} {f : Frame V S} {s : State} (hd : m.Decides d f s .error) :
      Keeps (Machine.Grows (m.complained d (s.expected m.tables.errorTerminal)))
        (Machine.Grows (m.complained d (s.expected m.tables.errorTerminal))) (m.step d) := by
    rw [Machine.step_of_decides hd]
    exact (Machine.Grows.refl _).of_complained
  -- Induction on the rest of the run from its front: each step is clean, and then the parse is
  -- still assembled, or it is the one that complains.
  induction hr using Relation.ReflTransGen.head_induction_on generalizing ps with
  | refl =>
    rcases h.turns hm hproceed hdepth with ⟨d, hd, -⟩ | ⟨f, s, hd⟩ | ⟨v, d, hd⟩
    · simp [hs] at hd
    · have hgrows := complains hd
      rw [hs] at hgrows
      exact ⟨_, f, s, .refl, herrors, hd, hgrows.suffix⟩
    · exact absurd (accepts h hd) id
  | @head c c₁ hstep hrest ih =>
    rcases h.turns hm hproceed hdepth with ⟨d, hd, hclean⟩ | ⟨f, s, hd⟩ | ⟨v, d, hd⟩
    · obtain rfl := Except.ok.inj (hd.symm.trans hstep)
      rw [herrors] at hclean
      obtain ⟨ps', h'⟩ := Assembled.step hm htokens (fun _ => ⟨ps, h⟩) hstep hclean
      obtain ⟨d, f, s, hreach, hfail⟩ := ih h' hclean
      exact ⟨d, f, s, .head hstep hreach, hfail⟩
    · have hgrows := complains hd
      rw [hstep] at hgrows
      exact ⟨c, f, s, .refl, herrors, hd,
        hgrows.suffix.trans (Machine.Reaches.suffix_of_error hrest hs)⟩
    · simp [hstep] at hd

/-- What the trace tells before the first error: the tokens that were read without the next one
were shifted. -/
theorem Assembled.told_fetched {x : σ} {a : α} (hm : m.tables = tables) (hd : 0 < m.maxDepth)
    (h : Assembled feed e (feed.pending x) a₀ c ps) (hr : m.Reaches (m.opening x a) c)
    (herrors : c.stats.errors = 0) :
    let read := ((ps.map Prod.fst).flatMap Tree.yield).map Lexeme.terminal
    told Event.error? (m.fetched c).trace = [] ∧ told Event.discard? (m.fetched c).trace = [] ∧
      (told Event.shift? (m.fetched c).trace).map Prod.fst = read ∧
      told Event.read? (m.fetched c).trace = read ++ [m.ahead c] := by
  intro read
  have hcurrent := (Machine.Current.reaches hd hr).fetched
  have hlawful := hcurrent.recorded.chronicle.lawful
  obtain ⟨-, -, herror, -⟩ :=
    Machine.stats_account (m := m) (c := m.init x a) (m.fetched c).trace
  rw [hcurrent.recorded.account] at herror
  have herror : told Event.error? (m.fetched c).trace = [] := by
    rw [← List.length_eq_zero_iff, ← herror]
    exact (Machine.errors_fetched m c).trans herrors
  have hdiscard := hlawful.told_discard? herror
  have hspent : told (Event.spent? m.tables.endTerminal) (m.fetched c).trace = read := by
    have hpending := feed.pending_eq_spent hlawful
    rw [feed.left_account hcurrent.recorded, feed.input_fetched] at hpending
    refine List.append_cancel_right (hpending.symm.trans ?_)
    rw [← List.map_append, h.input]
    rfl
  have hbalanced : Balanced feed x a c := .reaches hm hd hr
  have hshift := hbalanced.fetched.ne_end
  refine ⟨herror, hdiscard, ?_, ?_⟩
  · rw [← hspent, told_spent?_eq hdiscard hshift]
  · rw [hlawful.told_read?, hspent, hcurrent.recorded.account]
    simp

/-- Behind what has been read stands the next token. -/
theorem Assembled.exists_left (hm : m.tables = tables) (h : Assembled feed e w a₀ c ps) :
    ∃ left, (track feed c).2 = m.ahead c :: left ∧
      w.map Lexeme.terminal ++ [Token.endOfInput.terminal] =
        ((ps.map Prod.fst).flatMap Tree.yield).map Lexeme.terminal ++ m.ahead c :: left := by
  obtain ⟨left, hleft⟩ := exists_track feed hm c
  refine ⟨left, hleft, ?_⟩
  rw [← h.input, List.map_append, List.append_assoc, ← hleft]
  rfl

/-- The first tokens, up to the next one or with it. -/
theorem Assembled.take_eq (hm : m.tables = tables) (h : Assembled feed e w a₀ c ps) :
    let read := ((ps.map Prod.fst).flatMap Tree.yield).map Lexeme.terminal
    let all := w.map Lexeme.terminal ++ [Token.endOfInput.terminal]
    read.length ≤ (w.map Lexeme.terminal).length ∧
      (w.map Lexeme.terminal).take read.length = read ∧
      all[read.length]? = some (m.ahead c) ∧ all.take (read.length + 1) = read ++ [m.ahead c] := by
  intro read all
  obtain ⟨left, -, hall⟩ := h.exists_left hm
  change all = read ++ m.ahead c :: left at hall
  have hread : w.map Lexeme.terminal = read ++ (feed.input c).map Lexeme.terminal := by
    rw [← List.map_append, h.input]
  refine ⟨?_, ?_, ?_, ?_⟩
  · have hlength := congrArg List.length hread
    rw [List.length_append] at hlength
    omega
  · rw [hread, List.take_left]
  · rw [hall, List.getElem?_append_right (Nat.le_refl _), Nat.sub_self]
    rfl
  · rw [hall, List.append_cons]
    exact List.take_left' (by simp [read])

/-- No program begins with what has been read and the token at which an error is found. -/
theorem Assembled.not_viable {x : σ} {a : α} {f : Frame V S} {s : State} (hm : m.tables = tables)
    (htokens : ∀ l ∈ feed.pending x, l.terminal ≠ Token.error.terminal)
    (h : Assembled feed e (feed.pending x) a₀ c ps) (hr : m.Reaches (m.opening x a) c)
    (herrors : c.stats.errors = 0) (hd : m.Decides c f s .error) {v : List Terminal}
    (hv : Derivable v) :
    ¬ ((ps.map Prod.fst).flatMap Tree.yield).map Lexeme.terminal ++ [m.ahead c] <+:
      v ++ [Token.endOfInput.terminal] := by
  obtain ⟨rest, hrest⟩ := List.head?_eq_some_iff.1 hd.top
  obtain ⟨left, hleft, hall⟩ := h.exists_left hm
  have hpath := Moves.of_reaches hm htokens hr herrors
  rw [hall] at hpath
  have hstates : track feed c = (f.state :: rest.map Frame.state, m.ahead c :: left) := by
    rw [← hleft, ← List.map_cons, ← hrest]
    rfl
  rw [hstates] at hpath
  have hact := hd.action
  rw [(Decides.row hm h.linked hd).2] at hact
  exact hv.not_prefix hpath hact

end Assembled

section Parse

variable {σ α V S φ : Type} [Merge S] (m : Machine σ α V S φ)

/-- The first error of a parse that was started in `c` and has come to `d`. It is reported for the
token with the index `i`, where the end of input comes behind all tokens. At that time the tokens in
front of it have been shifted, none has been discarded, and no other has been read. -/
structure FirstReport (ls : List (Lexeme V S)) (c d : Config σ α V S) (past : List (Event V S))
    (i : Nat) : Prop where
  /-- The scanner was called with the report, and called in no other way than the trace tells. -/
  scanner : d.scanner = (m.account c d.trace).scanner
  reported : ∃ b t expected span,
    .reported (m.describe b t expected) span :: .stuck t span :: past <:+ d.trace ∧
      (ls.map Lexeme.terminal ++ [Token.endOfInput.terminal])[i]? = some t ∧
      ∀ l ∈ ls[i]?, span = l.span
  first : told Event.error? past = [] ∧ reportsIn past = []
  shifted : (told Event.shift? past).map Prod.fst = (ls.map Lexeme.terminal).take i
  kept : told Event.discard? past = []
  read : told Event.read? past =
    (ls.map Lexeme.terminal ++ [Token.endOfInput.terminal]).take (i + 1)

variable {m} {feed : Supply m.scanner m.tables.endTerminal} {x : σ} {a : α}

theorem Assembled.firstReport {e : S} {a₀ : α} {c : Config σ α V S}
    {ps : List (Tree V S × Frame V S)} {s : State} {d : Config σ α V S}
    (hm : m.tables = tables) (hdepth : 0 < m.maxDepth)
    (h : Assembled feed e (feed.pending x) a₀ c ps) (hr : m.Reaches (m.opening x a) c)
    (herrors : c.stats.errors = 0)
    (htrace : (m.complained c (s.expected m.tables.errorTerminal)).trace <:+ d.trace)
    (hscanner : d.scanner = (m.account (m.init x a) d.trace).scanner) :
    FirstReport m (feed.pending x) (m.init x a) d (m.fetched c).trace
      (((ps.map Prod.fst).flatMap Tree.yield).map Lexeme.terminal).length := by
  obtain ⟨hfirst, hkept, hshifted, hread⟩ := h.told_fetched hm hdepth hr herrors
  obtain ⟨-, htake, hnext, htakes⟩ := h.take_eq hm
  exact
    { scanner := hscanner
      reported := by
        refine ⟨c.actions, m.ahead c, s.expected m.tables.errorTerminal,
          m.scanner.span (m.fetched c).scanner, ?_, hnext, ?_⟩
        · exact (Machine.reported_complained m h.mode _).trans htrace
        · intro l hl
          rw [← h.input, List.length_map, List.getElem?_append_right (Nat.le_refl _),
            Nat.sub_self] at hl
          obtain ⟨later, hlater⟩ := List.head?_eq_some_iff.1 (List.head?_eq_getElem? ▸ hl)
          exact (feed.ahead_of_cons hlater).2.2.2.1
      first := ⟨hfirst, by rw [Machine.reportsIn_fetched]; exact h.reports⟩
      shifted := hshifted.trans htake.symm
      kept := hkept
      read := hread.trans htakes.symm }

variable (feed)

/-- An error is found at the earliest token that it can be found at: what comes before it is the
beginning of a program, and no program begins with it. -/
theorem errors_detected_earliest (hm : m.tables = tables) (hproceed : m.actions.Proceeding)
    (htokens : ∀ l ∈ feed.pending x, ∃ t : Token, t ≠ .endOfInput ∧ t ≠ .error ∧
      l.terminal = t.terminal)
    (hdepth : (feed.pending x).length + 3 ≤ m.maxDepth) {n : Nat}
    (hfuel : fuel (feed.pending x).length ≤ n)
    (hw : ¬ Derivable ((feed.pending x).map Lexeme.terminal)) :
    let w := (feed.pending x).map Lexeme.terminal
    let stop := Token.endOfInput.terminal
    ∃ i past, i ≤ w.length ∧
      FirstReport m (feed.pending x) (m.init x a) (m.parse n (m.init x a)).config past i ∧
      (∃ v, Derivable (w.take i ++ v)) ∧
      ∀ v, Derivable v → ¬ (w ++ [stop]).take (i + 1) <+: v ++ [stop] := by
  intro w stop
  have hplain : ∀ l ∈ feed.pending x, l.terminal ≠ Token.error.terminal := by
    intro l hl herr
    obtain ⟨t, -, hne, ht⟩ := htokens l hl
    exact hne (Token.terminal_injective (ht.symm.trans herr))
  have hrun := run_ends feed hm x a hplain
    (show 8 * (feed.pending x).length + 4 < n by unfold fuel at hfuel; omega)
  have hparse : m.parse n (m.init x a) = Machine.finish (m.run n (m.opening x a)) :=
    m.parse_init x a n (by omega)
  obtain ⟨c, hr, hs⟩ := Machine.exists_reaches_of_run hrun
  have hopening : Assembled feed (m.gap (m.opening x a)) (feed.pending x) a (m.opening x a) [] :=
    .opening x a
  obtain ⟨d, f, s, hd, herrors, decides, htrace⟩ :=
    hopening.exists_failed hm hproceed hdepth hplain hw rfl hr hs
  obtain ⟨ps, h⟩ := Assembled.reaches hm hplain hd herrors
  obtain ⟨hle, htake, -, htakes⟩ := h.take_eq hm
  rw [hparse]
  have hreport := h.firstReport hm (by omega) hd herrors
    (htrace.trans (Machine.suffix_finish (m.run n (m.opening x a))))
    (hparse ▸ m.scanner_parse (m.init x a) n)
  refine ⟨_, _, hle, hreport, ?_, fun v hv => ?_⟩
  · obtain ⟨v, hv⟩ := h.viable hplain
    exact ⟨v, by rw [htake]; exact hv⟩
  · rw [htakes]
    exact h.not_viable hm hplain hd herrors decides hv

end Parse

/-- Behind an expression an invalid token is an error, whatever is reduced before it is found. -/
theorem errors_detected_earliest_invalid :
    let m := recognizer 8
    let x := Lexer.ofString "x = 1 $;"
    let d := (m.parse 60 (m.init x ())).config
    x.lexemes.length + 3 ≤ 8 ∧ (∃ i past, FirstReport m x.lexemes (m.init x ()) d past i) ∧
      d.scanner.diagnostics.map Diagnostic.message =
        ["syntax error, unexpected invalid token, expecting '*', '/', ';', '+', '-' or ')'"] := by
  intro m x d
  have hdepth : x.lexemes.length + 3 ≤ 8 := by decide +kernel
  have hinvalid : Token.invalid.terminal ∈ x.lexemes.map Lexeme.terminal := by decide +kernel
  obtain ⟨i, past, -, h, -⟩ := errors_detected_earliest (m := m) Lexer.supply (x := x) (a := ())
    (n := 60) rfl (fun _ v a => ⟨_, rfl, rfl⟩) (by
      intro l hl
      obtain ⟨y, hend, rfl⟩ := Lexer.mem_lexemes hl
      exact ⟨y.next.1, hend, (Lexer.value_next y).2.2, rfl⟩) hdepth (by decide +kernel)
    fun hw => hw.notMem (a := Token.invalid.terminal) (by decide) hinvalid
  exact ⟨hdepth, ⟨i, past, h⟩, by decide +kernel⟩

end ShiftReduce.Calculator
