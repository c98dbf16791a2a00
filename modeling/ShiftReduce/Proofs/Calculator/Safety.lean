import ShiftReduce.Calculator.Evaluate
import ShiftReduce.Proofs.Calculator.Answers
import ShiftReduce.Proofs.Calculator.Lexemes
import ShiftReduce.Proofs.Calculator.Termination

namespace ShiftReduce.Calculator

theorem Lexer.carries_lexemes {x : Lexer} {l : Lexeme Value Span} (hl : l ∈ x.lexemes) :
    Carries (.terminal l.terminal) l.value := by
  obtain ⟨y, -, rfl⟩ := mem_lexemes hl
  obtain ⟨hnumber, hname, -⟩ := value_next y
  constructor
  · intro h
    refine hnumber (Token.terminal_injective (a := y.next.1) (b := .number) ?_)
    simpa [numeric, expressions] using h
  · intro h
    exact hname (Token.terminal_injective (Symbol.terminal.inj h))

theorem Lexer.terminal_lexemes_ne_error {x : Lexer} {l : Lexeme Value Span}
    (hl : l ∈ x.lexemes) : l.terminal ≠ Token.error.terminal := by
  obtain ⟨y, -, rfl⟩ := mem_lexemes hl
  exact fun h => (value_next y).2.2 (Token.terminal_injective h)

variable {σ : Type} {m : Machine σ Ledger Value Span ActionFault}
  {c c' : Config σ Ledger Value Span} (feed : Supply m.scanner m.tables.endTerminal)

/-- The stack follows the automaton, and each symbol on it or still to be read has a value that it
can carry. -/
structure Fitting (c : Config σ Ledger Value Span) : Prop where
  linked : Linked c.stack.items
  frames : ∀ f ∈ c.stack.items, ∀ X, entered f.state = some X → Carries X f.value
  tokens : ∀ l ∈ feed.input c, Carries (.terminal l.terminal) l.value

theorem carriesAll_of_entered {fs : List (Frame Value Span)} {Xs : List Symbol}
    (h : fs.map (fun f => entered f.state) = Xs.map some)
    (hf : ∀ f ∈ fs, ∀ X, entered f.state = some X → Carries X f.value) :
    CarriesAll Xs (fs.map Frame.value) := by
  induction fs generalizing Xs with
  | nil =>
    cases Xs with
    | nil => exact .nil
    | cons X Xs => simp at h
  | cons f fs ih =>
    cases Xs with
    | nil => simp at h
    | cons X Xs =>
      simp only [List.map_cons, List.cons.injEq] at h
      exact .cons (hf f List.mem_cons_self X h.1)
        (ih h.2 fun g hg => hf g (List.mem_cons_of_mem f hg))

variable {feed} {f : Frame Value Span} {s : State} {r : RuleId} {rule : Rule}
  {frames below : List (Frame Value Span)}

/-- The semantic action of a rule does not fail, and what it goes on with fits the phrase. -/
theorem Fitting.answer {answer : Answer} (hm : m.tables = tables) (ha : m.actions = Ledger.actions)
    (hc : Fitting feed c) (d : m.Decides c f s (.reduce r))
    (h : m.Reduces c r rule frames below answer) : ∃ reply, answer = .ok reply ∧
      (reply.control = .proceed → Carries (.nonterminal rule.lhs) reply.value) := by
  obtain ⟨p, g, below', hr, hp, rfl, -, hmap, -, -⟩ := Reduces.pops hm hc.linked d h
  have hvalues : CarriesAll p.rule.rhs (frames.map Frame.value) := by
    refine carriesAll_of_entered hmap fun f hf => hc.frames f ?_
    rw [h.items]
    exact List.mem_append_left _ (List.mem_reverse.2 hf)
  obtain ⟨reply, hreply, hcarries⟩ := Ledger.reduce_carries hp
    (r := m.reduction c r p.rule frames) hr hvalues (m.given frames)
    (by
      intro v hv
      change (frames.map Frame.value)[0]? = some v at hv
      rw [← List.head?_eq_getElem?, List.head?_map] at hv
      simp [Machine.given, hv]) c.actions
  refine ⟨reply, ?_, hcarries⟩
  rw [← h.reply, ha]
  exact hreply

/-- No step faults. -/
theorem Fitting.no_fault {h : Halt σ Ledger Value Span ActionFault} (hm : m.tables = tables)
    (ha : m.actions = Ledger.actions) (hc : Fitting feed c) (hs : m.step c = .error h)
    (e : Fault ActionFault) : h.verdict ≠ .fault e := by
  intro he
  obtain ⟨f, s, r, rule, frames, below, i, decides, reduces, -⟩ :=
    hc.linked.action_of_fault hm hs he
  obtain ⟨reply, hreply, -⟩ := hc.answer hm ha decides reduces
  simp at hreply

theorem Recovers.fitting {d : Config σ Ledger Value Span} {expected : List Terminal}
    (hm : m.tables = tables) (hc : Fitting feed c) (hstack : d.stack = c.stack)
    (hinput : feed.input d = feed.input c) (h : m.Recovers d expected (.ok c')) :
    Fitting feed c' := by
  have hl : Linked d.stack.items := hstack ▸ hc.linked
  refine ⟨Recovers.linked hm hl h, ?_, ?_⟩
  · cases h with
    | @recovered above below g s target _ items passed state catches room result =>
      have hlink := (items ▸ hl).of_append
      rw [hm, hlink.state_eq List.mem_cons_self] at state
      obtain rfl := Except.ok.inj state
      intro f hf X hX
      rw [result.items] at hf
      rcases List.mem_cons.1 hf with rfl | hf
      · have hedge := State.edges_of_shiftTarget? catches
        rw [(edges_checked _ hlink.mem_stateIds _ hedge).2.2.1, hm] at hX
        obtain rfl : .terminal Token.error.terminal = X := Option.some.inj hX
        exact .of_plain _ (by decide) (by decide)
      · refine hc.frames f ?_ X hX
        rw [← hstack, items]
        exact List.mem_append_right _ hf
  · intro l hl'
    cases h with
    | recovered items passed state catches room result =>
      exact hc.tokens l (hinput ▸ feed.recovered result ▸ hl')

theorem Fitting.shift {target : StateId} (hm : m.tables = tables) (hc : Fitting feed c)
    (hl : Linked c'.stack.items) (decides : m.Decides c f s (.shift target))
    (result : m.Shifted c target c') : Fitting feed c' := by
  obtain ⟨l, left, hinput, hedge⟩ := Decides.takes feed hm hc.linked decides
  have hmem := hc.linked.mem_stateIds_of_mem (List.mem_of_head? decides.top)
  obtain ⟨hitems, hleft⟩ := feed.shifted_cons result hinput
  refine ⟨hl, ?_, ?_⟩
  · intro g hg X hX
    rw [hitems] at hg
    rcases List.mem_cons.1 hg with rfl | hg
    · rw [(edges_checked _ hmem _ hedge).2.2.1] at hX
      obtain rfl := Option.some.inj hX
      exact hc.tokens l (hinput ▸ List.mem_cons_self)
    · exact hc.frames g hg X hX
  · intro l' hl'
    exact hc.tokens l' (by rw [hinput]; exact List.mem_cons_of_mem _ (hleft ▸ hl'))

theorem Fitting.reduce {p : Production} {target : StateId} {g : Frame Value Span}
    {reply : Reply Ledger Value} (hm : m.tables = tables) (ha : m.actions = Ledger.actions)
    (hc : Fitting feed c) (hl : Linked c'.stack.items)
    (h : Folded m c f p target frames below g reply c') : Fitting feed c' := by
  obtain ⟨reply', hreply, hcarries⟩ := hc.answer hm ha h.decides h.reduces
  obtain rfl := Except.ok.inj hreply
  refine ⟨hl, ?_, h.input ▸ hc.tokens⟩
  intro f' hf' X hX
  rw [h.items] at hf'
  rcases List.mem_cons.1 hf' with rfl | hf'
  · rw [h.entered_target] at hX
    obtain rfl := Option.some.inj hX
    exact hcarries h.proceeds
  · refine hc.frames f' ?_ X hX
    rw [h.reduces.items]
    exact List.mem_append_right _ hf'

/-- A configuration with the same stack and no more to read. -/
theorem Fitting.of_subset {d : Config σ Ledger Value Span} (hc : Fitting feed c)
    (hstack : d.stack = c.stack) (hinput : feed.input d ⊆ feed.input c) : Fitting feed d :=
  ⟨hstack ▸ hc.linked, hstack ▸ hc.frames, fun l hl => hc.tokens l (hinput hl)⟩

theorem Fitting.discard {d : Config σ Ledger Value Span} (hc : Fitting feed c)
    (more : m.ahead c ≠ m.tables.endTerminal) (hscanner : d.scanner = (m.fetched c).scanner)
    (hlook : d.lookahead = none) (hstack : d.stack = c.stack) : Fitting feed d := by
  obtain ⟨l, hinput⟩ := feed.discarded more hscanner hlook
  exact hc.of_subset hstack (hinput ▸ List.subset_cons_self l _)

/-- Every step keeps the values fit for their symbols. -/
theorem Fitting.step (hm : m.tables = tables) (ha : m.actions = Ledger.actions)
    (hc : Fitting feed c) (hs : m.step c = .ok c') : Fitting feed c' := by
  have hlinked := hc.linked.step hm hs
  cases Machine.turn_of_ok hs with
  | shifted decides room result => exact hc.shift hm hlinked decides result
  | reduced d st decides reduces acted proceeds other state room items =>
    obtain ⟨p, target, h⟩ :=
      Folded.of_turn hm hc.linked decides reduces acted proceeds other state items
    exact hc.reduce hm ha hlinked h
  | failed decides recovers => exact Recovers.fitting hm hc rfl rfl recovers
  | raised decides reduces acted raises recovers =>
    exact Recovers.fitting hm hc acted.stack (feed.acted acted) recovers
  | resumed phase top state careful fits =>
    refine hc.of_subset ?_ ?_
    all_goals split <;> simp
  | discarded phase top state unfit more => exact hc.discard more rfl rfl (by simp)

section Evaluate

variable (maxDepth : Nat) (source : String) (bindings : Variables)

abbrev beginning : Config Lexer Ledger Value Span :=
  (machine maxDepth).opening (Lexer.ofString source) { bindings }

def ending (h : Halt Lexer Ledger Value Span ActionFault) : Evaluation where
  statements := h.config.actions.statements.reverse
  diagnostics := h.config.scanner.diagnostics.reverse
  errors := h.config.actions.errors.reverse
  outcome := .ofVerdict h.config.actions.fatal h.verdict
  stats := h.config.stats
  bindings := h.config.actions.bindings
  trace := (Machine.finish h).config.trace

abbrev supply : Supply (machine maxDepth).scanner (machine maxDepth).tables.endTerminal :=
  Lexer.supply

theorem run_beginning_ends : ((machine maxDepth).run (fuel source.length)
    (beginning maxDepth source bindings)).verdict ≠ .exhausted := by
  refine run_ends (supply maxDepth) rfl _ _
    (fun l hl => Lexer.terminal_lexemes_ne_error hl) ?_
  have hlen := Lexer.length_lexemes_le (Lexer.ofString source)
  have hsource : (Lexer.ofString source).rest.length = source.length := String.length_toList
  change 8 * (Lexer.ofString source).lexemes.length + 4 < 8 * source.length + 8
  omega

/-- The steps of an evaluation come to an end, and what they end with is the result. -/
theorem evaluate_ends (hd : 0 < maxDepth) : ∃ c h,
    (machine maxDepth).Reaches (beginning maxDepth source bindings) c ∧
      (machine maxDepth).step c = .error h ∧ evaluate maxDepth source bindings = ending h := by
  obtain ⟨c, hc, hs⟩ := Machine.exists_reaches_of_run (run_beginning_ends maxDepth source bindings)
  refine ⟨c, _, hc, hs, ?_⟩
  simp only [evaluate, Machine.parse_init _ _ _ (m := machine maxDepth) hd, ending,
    Machine.verdict_finish, Machine.actions_finish, Machine.scanner_finish, Machine.stats_finish]

/-- A run from the beginning that ends gives the result. -/
theorem evaluate_of_reaches (hd : 0 < maxDepth) {c : Config Lexer Ledger Value Span}
    {h : Halt Lexer Ledger Value Span ActionFault}
    (hc : (machine maxDepth).Reaches (beginning maxDepth source bindings) c)
    (hs : (machine maxDepth).step c = .error h) :
    evaluate maxDepth source bindings = ending h := by
  obtain ⟨c', h', hc', hs', heval⟩ := evaluate_ends maxDepth source bindings hd
  have hrun := run_beginning_ends maxDepth source bindings
  have hhalt : h' = h :=
    (Machine.run_of_reaches hc' hs' hrun).symm.trans (Machine.run_of_reaches hc hs hrun)
  rw [heval, hhalt]

theorem ofVerdict_eq_finished {fatal : Option Error} {verdict : Verdict Value ActionFault} :
    Outcome.ofVerdict fatal verdict = .finished ↔ ∃ v, verdict = .accepted v := by
  cases verdict with
  | failed e => cases e <;> simp [Outcome.ofVerdict]
  | _ => simp [Outcome.ofVerdict]

/-- Without room for the start state a source is not read at all. -/
theorem evaluate_of_zero : (evaluate 0 source bindings).outcome =
    .stopped (.parse (.stackOverflow 0)) := rfl

theorem fitting_beginning : Fitting (supply maxDepth) (beginning maxDepth source bindings) := by
  refine ⟨.opening _ _, ?_, fun l hl => Lexer.carries_lexemes hl⟩
  intro f hf X hX
  rw [Machine.items_opening] at hf
  obtain rfl := List.mem_singleton.1 hf
  simp [entered_start] at hX

variable {maxDepth source bindings} in
theorem Fitting.visited {c : Config Lexer Ledger Value Span}
    (hc : (machine maxDepth).Reaches (beginning maxDepth source bindings) c) :
    Fitting (supply maxDepth) c :=
  hc.preserves (fun hc hs => hc.step rfl rfl hs) (fitting_beginning maxDepth source bindings)

/-- The evaluation of a source never faults: wherever it gets, the stack holds the right-hand side
of every rule that is reduced, with values that its symbols carry, and the state below has a goto
of its own unless the rule is the one that accepts. -/
theorem evaluate_never_faults :
    (∀ f, (evaluate maxDepth source bindings).outcome ≠ .faulted f) ∧
    (evaluate maxDepth source bindings).outcome ≠ .exhausted ∧
    ∀ c₀ c, (machine maxDepth).start
        ((machine maxDepth).init (Lexer.ofString source) { bindings }) = .ok c₀ →
      (machine maxDepth).Reaches c₀ c →
      (∀ h f, (machine maxDepth).step c = .error h → h.verdict ≠ .fault f) ∧
      ∀ f s r, (machine maxDepth).Decides c f s (.reduce r) →
        ∃ (p : Production) (frames : List (Frame Value Span)) (g : Frame Value Span)
          (below : List (Frame Value Span)), r = p.ruleId ∧ p ≠ .augmented ∧
          c.stack.items = frames.reverse ++ g :: below ∧ frames.length = p.rule.length ∧
          CarriesAll p.rule.rhs (frames.map Frame.value) ∧
          (r = tables.acceptRule ∨ ∃ s' target, tables.state g.state = .ok s' ∧
            s'.gotoFor p.rule.lhs = some target) := by
  have outcome : (∀ f, (evaluate maxDepth source bindings).outcome ≠ .faulted f) ∧
      (evaluate maxDepth source bindings).outcome ≠ .exhausted := by
    by_cases hd : maxDepth = 0
    · subst hd
      simp [evaluate_of_zero]
    · obtain ⟨c, h, hc, hs, he⟩ :=
        evaluate_ends maxDepth source bindings (Nat.pos_of_ne_zero hd)
      have hfault := (Fitting.visited hc).no_fault rfl rfl hs
      have hfuel := Machine.verdict_ne_exhausted hs
      rw [he]
      simp only [ending]
      generalize h.verdict = v at hfault hfuel
      cases v with
      | accepted => simp [Outcome.ofVerdict]
      | failed e => cases e <;> simp [Outcome.ofVerdict]
      | fault f => exact absurd rfl (hfault f)
      | exhausted => exact absurd rfl hfuel
  refine ⟨outcome.1, outcome.2, ?_⟩
  intro c₀ c hstart hc
  obtain rfl : c₀ = beginning maxDepth source bindings := by
    by_cases hd : maxDepth = 0
    · subst hd
      obtain ⟨h, hh, -⟩ := Machine.start_init_of_zero (machine 0) (Lexer.ofString source)
        ({ bindings } : Ledger) rfl
      rw [hh] at hstart
      simp at hstart
    · rw [Machine.start_init (m := machine maxDepth) _ _ (Nat.pos_of_ne_zero hd)] at hstart
      exact (Except.ok.inj hstart).symm
  have hfit := Fitting.visited hc
  refine ⟨fun h f hs => hfit.no_fault rfl rfl hs f, ?_⟩
  intro f s r decides
  obtain ⟨p, above, g, below, hr, hp, hitems, hmap, hlen, h0, hlink⟩ :=
    Decides.pops rfl hfit.linked decides
  refine ⟨p, above.reverse, g, below, hr, hp, by rw [List.reverse_reverse, hitems],
    by rw [List.length_reverse, hlen], ?_, ?_⟩
  · refine carriesAll_of_entered hmap fun f hf => hfit.frames f ?_
    rw [hitems]
    exact List.mem_append_left _ (List.mem_reverse.1 hf)
  · by_cases hprog : p = .program
    · left
      rw [hr, hprog]
      rfl
    · obtain ⟨target, htarget⟩ := h0.goto hprog
      exact Or.inr ⟨_, target, hlink.state_eq List.mem_cons_self, htarget⟩

end Evaluate

end ShiftReduce.Calculator
