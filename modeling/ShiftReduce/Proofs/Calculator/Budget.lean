import ShiftReduce.Proofs.Calculator.Safety
import ShiftReduce.Proofs.Machine.Counters
import ShiftReduce.Proofs.Machine.Growth

namespace ShiftReduce.Calculator

/-- The reductions that a symbol on the stack can pay for. -/
def grants : List (Symbol × Nat) :=
  [Token.number, .ident, .plus, .minus, .asterisk, .slash, .leftParen, .rightParen, .equals,
    .semicolon].map (fun a => (.terminal a.terminal, 3))
  ++ [(Phrase.factor, 2), (.term, 1), (.stmt, 1), (.stmts, 1)].map
    fun p => (.nonterminal p.1.nonterminal, p.2)

def grant (X : Symbol) : Nat := ((grants.find? (·.1 = X)).map Prod.snd).getD 0

/-- The start state pays for the two reductions of an empty program. -/
def endowment (s : StateId) : Nat := if s = .start then 2 else 0

theorem edges_granted : ∀ s ∈ stateIds, ∀ e ∈ (stateAt s).edges, grant e.1 ≤ 3 := by
  decide +kernel

theorem start_granted : ∀ e ∈ (stateAt .start).edges, 0 < grant e.1 := by
  decide +kernel

/-- Every reduction is paid for by the symbols that it takes off the stack. -/
theorem reductions_afforded : ∀ s ∈ stateIds, ∀ p ∈ Production.all,
    p.ruleId ∈ (stateAt s).reductions → p ≠ .program →
      grant (.nonterminal p.rule.lhs) < (p.rule.rhs.map grant).sum + endowment s := by
  decide +kernel

/-- The symbol on top pays for a reduction that fails, since it is not kept. -/
theorem failures_afforded : ∀ s ∈ stateIds, ∀ p ∈ Production.all,
    p.ruleId ∈ (stateAt s).reductions → .nonterminal p.rule.lhs ∈ expressions →
      0 < (entered s).elim 0 grant ∧
        (stateAt s).shiftTarget? Token.error.terminal = none := by
  decide +kernel

section Allotted

variable {V S : Type} {f : Frame V S} {fs : List (Frame V S)}

def allotted (fs : List (Frame V S)) : Nat :=
  weigh grant fs + (fs.head?.map fun f => endowment f.state).getD 0

theorem allotted_cons (hf : f.state ≠ .start) :
    allotted (f :: fs) = (entered f.state).elim 0 grant + weigh grant fs := by
  simp [allotted, endowment, hf]

/-- There is always a reduction left. -/
theorem Linked.allotted_pos (h : Linked fs) : 0 < allotted fs := by
  induction h with
  | start state => simp [allotted, endowment, state]
  | @push f g rest X edge below ih =>
    obtain ⟨-, hf, hentered, -⟩ := edges_checked _ below.mem_stateIds _ edge
    rw [allotted_cons hf, hentered, Option.elim_some]
    by_cases hg : g.state = .start
    · have hgrant := start_granted _ (hg ▸ edge)
      dsimp only at hgrant ⊢
      omega
    · rw [allotted_cons hg] at ih
      rw [weigh_cons]
      omega

end Allotted

variable {σ : Type} {m : Machine σ Ledger Value Span ActionFault}
  {c c' d : Config σ Ledger Value Span} {feed : Supply m.scanner m.tables.endTerminal}

/-- An error that is being answered is the only one that no token has been shifted for. -/
structure Budgeted (feed : Supply m.scanner m.tables.endTerminal)
    (c : Config σ Ledger Value Span) : Prop where
  orderly : Orderly feed c
  reductions : c.stats.reductions + allotted c.stack.items ≤ 3 * c.stats.shifts + 2
  errors : c.stats.errors ≤ c.stats.shifts + 1
  settled : (∀ f, c.stack.items.head? = some f → f.state ≠ afterError) →
    c.stats.errors ≤ c.stats.shifts

/-- The counters that a parse of so many tokens may come to. -/
structure Thrifty (tokens : Nat) (s : Stats) : Prop where
  reductions : s.reductions ≤ 3 * s.shifts + 2
  errors : s.errors ≤ s.shifts + 1
  tokens : s.tokens ≤ tokens + 1

namespace Budgeted

variable {f : Frame Value Span} {s : State} {r : RuleId}

theorem settled_of_top (h : Budgeted feed c) (htop : c.stack.items.head? = some f)
    (hf : f.state ≠ afterError) : c.stats.errors ≤ c.stats.shifts := by
  refine h.settled fun g hg => ?_
  rw [htop] at hg
  rwa [← Option.some.inj hg]

/-- An error is answered at a configuration that may have one reduction more than the one where the
step began, which the symbol on top pays for. -/
theorem recover {expected : List Terminal} {k : Nat} (hm : m.tables = tables)
    (h : Budgeted feed c) (ho : Orderly feed c') (htop : c.stack.items.head? = some f)
    (hf : f.state ≠ afterError) (hstack : d.stack = c.stack)
    (hshifts : d.stats.shifts = c.stats.shifts) (herrors : d.stats.errors = c.stats.errors)
    (hreductions : d.stats.reductions = c.stats.reductions + k)
    (hk : k = 0 ∨ k ≤ (entered f.state).elim 0 grant ∧
      (stateAt f.state).shiftTarget? Token.error.terminal = none)
    (hr : m.Recovers d expected (.ok c')) : Budgeted feed c' := by
  obtain ⟨e, kept, hitems, he, -, hkept⟩ :=
    Recovers.kept grant hm (hstack ▸ h.orderly.linked) (hstack ▸ htop) hr
  have hstart : e.state ≠ .start := by
    rw [he]
    decide
  have hallotted : allotted c'.stack.items = weigh grant kept := by
    rw [hitems, allotted_cons hstart, he]
    exact Nat.zero_add _
  have hold : weigh grant d.stack.items ≤ allotted c.stack.items := by
    rw [hstack]
    exact Nat.le_add_right _ _
  -- A reduction whose action has failed counts, though its symbols stay: the symbol on top pays for
  -- it, as its frame is dropped.
  have hpaid : weigh grant kept + k ≤ weigh grant d.stack.items := by
    rcases hk with rfl | ⟨hk, hnone⟩
    · omega
    · rw [if_pos hnone] at hkept
      omega
  have hsettled := h.settled_of_top htop hf
  have hbudget := h.reductions
  cases hr with
  | recovered items passed state catches room result =>
    refine ⟨ho, ?_, ?_, fun hne => absurd he (hne e (by rw [hitems, List.head?_cons]))⟩
    · rw [hallotted, result.stats]
      simp only [Machine.reductions_fetched, Machine.shifts_fetched, hreductions, hshifts]
      omega
    · rw [result.stats]
      simp only [Machine.shifts_fetched, herrors, hshifts]
      omega

theorem shift {target : StateId} (hm : m.tables = tables) (h : Budgeted feed c)
    (ho : Orderly feed c') (decides : m.Decides c f s (.shift target))
    (result : m.Shifted c target c') : Budgeted feed c' := by
  have hl := h.orderly.linked
  obtain ⟨l, left, hinput, hedge⟩ := Decides.takes feed hm hl decides
  have hmem := hl.mem_stateIds_of_mem (List.mem_of_head? decides.top)
  obtain ⟨-, hstart, hentered, -⟩ := edges_checked _ hmem _ hedge
  have hgrant := edges_granted _ hmem _ hedge
  have hitems := (feed.shifted_cons result hinput).1
  have hallotted : allotted c'.stack.items =
      grant (.terminal l.terminal) + weigh grant c.stack.items := by
    rw [hitems, allotted_cons hstart, hentered, Option.elim_some]
  have hold : weigh grant c.stack.items ≤ allotted c.stack.items := Nat.le_add_right _ _
  have hbudget := h.reductions
  have herrors := h.errors
  have hshifts : c'.stats.shifts = c.stats.shifts + 1 := by rw [result.stats]
  have hreductions : c'.stats.reductions = c.stats.reductions := by simp [result.stats]
  have hcount : c'.stats.errors = c.stats.errors := by simp [result.stats]
  refine ⟨ho, ?_, ?_, fun _ => ?_⟩
  · rw [hallotted, hreductions, hshifts]
    dsimp only at hgrant
    omega
  · rw [hcount, hshifts]
    omega
  · rw [hcount, hshifts]
    omega

theorem reduce {p : Production} {target : StateId} {frames below : List (Frame Value Span)}
    {g : Frame Value Span} {reply : Reply Ledger Value} (hm : m.tables = tables)
    (h : Budgeted feed c) (ho : Orderly feed c')
    (hc : Folded m c f p target frames below g reply c') : Budgeted feed c' := by
  have hmem := h.orderly.linked.mem_stateIds_of_mem (List.mem_of_head? hc.decides.top)
  have hstart := (edges_checked _ hc.linked.mem_stateIds _ hc.edge).2.1
  have hpaid := reductions_afforded _ hmem p (Production.mem_all p)
    (State.mem_reductions hc.decides.action) hc.inner.2
  have hnew : allotted c'.stack.items =
      grant (.nonterminal p.rule.lhs) + weigh grant (g :: below) := by
    rw [hc.items, allotted_cons hstart, hc.entered_target, Option.elim_some]
  have hold : allotted c.stack.items =
      (p.rule.rhs.map grant).sum + weigh grant (g :: below) + endowment f.state := by
    rw [allotted, hc.decides.top, hc.reduces.items, weigh_append, weigh_reverse,
      weigh_of_entered grant hc.spelled]
    rfl
  have hbudget := h.reductions
  have hsettled := h.settled_of_top hc.decides.top
    (h.orderly.ne_afterError hm hc.decides (by simp))
  have hshifts := hc.shifts
  have hreductions : c'.stats.reductions = c.stats.reductions + 1 := by rw [hc.stats]
  refine ⟨ho, ?_, ?_, fun _ => ?_⟩
  · rw [hnew, hreductions, hshifts]
    omega
  · rw [hc.errors, hshifts]
    omega
  · rw [hc.errors, hshifts]
    exact hsettled

theorem step (hm : m.tables = tables) (ha : m.actions = Ledger.actions) (h : Budgeted feed c)
    (hs : m.step c = .ok c') : Budgeted feed c' := by
  have ho := (h.orderly.step hm hs).1
  cases Machine.turn_of_ok hs with
  | shifted decides room result => exact h.shift hm ho decides result
  | reduced d st decides reduces acted proceeds other state room items =>
    obtain ⟨p, target, hc⟩ :=
      Folded.of_turn hm h.orderly.linked decides reduces acted proceeds other state items
    exact h.reduce hm ho hc
  | failed decides recovers =>
    exact h.recover hm ho decides.top (h.orderly.ne_afterError hm decides (by simp)) rfl rfl rfl rfl
      (Or.inl rfl) recovers
  | @raised f s r rule frames below reply d _ decides reduces acted raises recovers =>
    have hl := h.orderly.linked
    obtain ⟨p, g, below', rfl, -, rfl, -⟩ := Reduces.pops hm hl decides reduces
    obtain ⟨hmem, rfl⟩ := Decides.row hm hl decides
    have heffect : Ledger.Effect c.actions (m.reduction c p.ruleId p.rule frames) (m.given frames) p
        reply := Ledger.reduce_effect rfl (by rw [← reduces.reply, ha]; rfl)
    have hinner : .nonterminal p.rule.lhs ∈ expressions := by
      cases heffect with
      | raised v inner place => exact inner
      | _ => simp [Ledger.record] at raises
    have hpaid := failures_afforded _ hmem p (Production.mem_all p)
      (State.mem_reductions decides.action) hinner
    refine h.recover hm ho decides.top (h.orderly.ne_afterError hm decides (by simp)) acted.stack
      ?_ ?_ ?_ (Or.inr hpaid) recovers
    all_goals simp [acted.stats]
  | @resumed f s force phase top state careful fits =>
    have hresumed : (Machine.resynchronized (if s.hasLookahead then m.fetched c else c)
        f.state).stack = c.stack := by split <;> simp
    refine ⟨ho, ?_, ?_, ?_⟩
    · rw [hresumed]
      split <;> simpa using h.reductions
    · split <;> simpa using h.errors
    · rw [hresumed]
      split <;> simpa using h.settled
  | discarded phase top state unfit more =>
    refine ⟨ho, ?_, ?_, ?_⟩
    · simpa using h.reductions
    · simpa using h.errors
    · simpa using h.settled

/-- The last step may add an error if none is being answered, and a reduction in any case. -/
theorem halts (hm : m.tables = tables) (h : Budgeted feed c)
    {x : Halt σ Ledger Value Span ActionFault} (hs : m.step c = .error x) :
    x.config.stats.reductions ≤ 3 * x.config.stats.shifts + 2 ∧
      x.config.stats.errors ≤ x.config.stats.shifts + 1 := by
  have hl := h.orderly.linked
  have hpos := hl.allotted_pos
  have hbudget := h.reductions
  have herrors := h.errors
  have hadds : Machine.Adds 1 1 c x.config := by
    have hkeeps := Machine.step_adds m c
    rwa [hs] at hkeeps
  obtain ⟨hshifts, hcount, hreductions⟩ := hadds
  rw [hshifts]
  refine ⟨by omega, ?_⟩
  have hquiet (hq : Machine.Adds 0 0 c x.config) : x.config.stats.errors ≤ c.stats.shifts + 1 :=
    Nat.le_trans hq.errors herrors
  cases phase : c.phase with
  | skipping force =>
    refine hquiet ?_
    have hkeeps := (Machine.Adds.refl c).skip (m := m) force
    have hskip : m.step c = m.skip c force := by rw [Machine.step, phase]
    rwa [← hskip, hs] at hkeeps
  | deciding =>
    obtain ⟨f, rest, hitems⟩ := List.exists_cons_of_ne_nil (l := c.stack.items) (by
      rintro hnil
      rw [hnil] at hl
      cases hl)
    have decides : m.Decides c f (stateAt f.state)
        (Action.decode ((stateAt f.state).lookup (m.ahead c))) :=
      ⟨phase, by rw [hitems, List.head?_cons], by
        rw [hm, hl.state_eq (hitems ▸ List.mem_cons_self)], rfl⟩
    by_cases hf : f.state = afterError
    · have hshift : Action.decode ((stateAt f.state).lookup (m.ahead c)) = .shift ⟨13⟩ :=
        Decidable.byContradiction fun ha => h.orderly.ne_afterError hm decides ha hf
      have hkeeps := (Machine.Adds.refl c).shift (m := m) ⟨13⟩
      have hperform := Machine.step_of_decides decides
      rw [hshift, Machine.perform, hs] at hperform
      rw [← hperform] at hkeeps
      exact hquiet hkeeps
    · have hsettled := h.settled_of_top decides.top hf
      omega

theorem opening (x : σ) (l : Ledger)
    (htokens : ∀ w ∈ feed.pending x, w.terminal ≠ Token.error.terminal) :
    Budgeted feed (m.opening x l) :=
  ⟨.opening x l htokens, Nat.le_refl _, Nat.zero_le _, fun _ => Nat.le_refl _⟩

end Budgeted

/-- A parse of the calculator counts no more than its tokens pay for, however many steps it takes
and however it ends. -/
theorem progress_thrifty (hm : m.tables = tables) (ha : m.actions = Ledger.actions)
    (feed : Supply m.scanner m.tables.endTerminal) (x : σ) (l : Ledger)
    (htokens : ∀ w ∈ feed.pending x, w.terminal ≠ Token.error.terminal) (n : Nat) :
    Thrifty (feed.pending x).length (m.progress n (m.init x l)).config.stats := by
  have hbounds : (m.progress n (m.init x l)).config.stats.reductions ≤
        3 * (m.progress n (m.init x l)).config.stats.shifts + 2 ∧
      (m.progress n (m.init x l)).config.stats.errors ≤
        (m.progress n (m.init x l)).config.stats.shifts + 1 := by
    refine Machine.progress_keeps (P := Budgeted feed) (Q := fun d =>
      d.stats.reductions ≤ 3 * d.stats.shifts + 2 ∧ d.stats.errors ≤ d.stats.shifts + 1) ?_
      (fun h => ⟨Nat.le_trans (Nat.le_add_right _ _) h.reductions, h.errors⟩) ?_ n
    · by_cases hd : m.maxDepth = 0
      · have hfull : m.start (m.init x l) = .error ⟨.failed (.stackOverflow m.maxDepth), m.begun
            (m.init x l)⟩ := Machine.push_of_le _ (by simp [hd])
        rw [hfull]
        exact ⟨Nat.zero_le _, Nat.zero_le _⟩
      · rw [Machine.start_init m x l (Nat.pos_of_ne_zero hd)]
        exact .opening x l htokens
    · intro c hc
      cases hs : m.step c with
      | ok c' => exact hc.step hm ha hs
      | error h => exact hc.halts hm hs
  exact ⟨hbounds.1, hbounds.2, feed.tokens_le n⟩

section Evaluate

variable (maxDepth : Nat) (source : String) (bindings : Variables)

def parseWithin (n : Nat) : Halt Lexer Ledger Value Span ActionFault :=
  (machine maxDepth).parse n ((machine maxDepth).init (Lexer.ofString source) { bindings })

theorem parseWithin_ends {n : Nat} (hn : 8 * (Lexer.ofString source).lexemes.length + 4 < n) :
    (parseWithin maxDepth source bindings n).verdict ≠ .exhausted := by
  rw [parseWithin, Machine.parse_eq_finish, Machine.verdict_finish, Machine.progress]
  by_cases hd : maxDepth = 0
  · obtain ⟨h, hstart, hverdict, -⟩ := Machine.start_init_of_zero (machine maxDepth)
      (Lexer.ofString source) ({ bindings } : Ledger) hd
    simp [hstart, hverdict]
  · rw [Machine.start_init _ _ _ (Nat.pos_of_ne_zero hd)]
    exact run_ends (supply maxDepth) rfl _ _
      (fun l hl => Lexer.terminal_lexemes_ne_error hl) hn

variable {maxDepth source bindings} in
/-- More steps than there are do not change an evaluation. -/
theorem evaluate_eq_ending {n : Nat} (hn : fuel source.length ≤ n) :
    evaluate maxDepth source bindings = ending ((machine maxDepth).progress n
      ((machine maxDepth).init (Lexer.ofString source) { bindings })) := by
  have hlength := Lexer.length_lexemes_le (Lexer.ofString source)
  have hsource : (Lexer.ofString source).rest.length = source.length := String.length_toList
  have hends := parseWithin_ends maxDepth source bindings (n := fuel source.length) (by
    unfold fuel
    omega)
  rw [parseWithin, Machine.parse_eq_finish, Machine.verdict_finish] at hends
  rw [Machine.progress_of_le hends hn]
  simp only [evaluate, ending, Machine.parse_eq_finish, Machine.verdict_finish,
    Machine.actions_finish, Machine.scanner_finish, Machine.stats_finish]

theorem parseWithin_thrifty (n : Nat) : Thrifty (Lexer.ofString source).lexemes.length
    (parseWithin maxDepth source bindings n).config.stats := by
  rw [parseWithin, Machine.parse_eq_finish, Machine.stats_finish]
  exact progress_thrifty rfl rfl (supply maxDepth) _ _
    (fun l hl => Lexer.terminal_lexemes_ne_error hl) n

/-- An evaluation takes a number of steps that is linear in the number of tokens, and all that it
counts is paid for by the tokens that it shifts. -/
theorem evaluation_thrifty :
    (∀ k, (parseWithin maxDepth source bindings
      (8 * (Lexer.ofString source).lexemes.length + 5 + k)).verdict ≠ .exhausted) ∧
    (∀ n, Thrifty (Lexer.ofString source).lexemes.length
      (parseWithin maxDepth source bindings n).config.stats) ∧
    (evaluate maxDepth source bindings).outcome ≠ .exhausted ∧
    Thrifty (Lexer.ofString source).lexemes.length
      (evaluate maxDepth source bindings).stats := by
  have hlength := Lexer.length_lexemes_le (Lexer.ofString source)
  have hsource : (Lexer.ofString source).rest.length = source.length := String.length_toList
  have hends := parseWithin_ends maxDepth source bindings (n := fuel source.length) (by
    unfold fuel
    omega)
  refine ⟨fun k => parseWithin_ends maxDepth source bindings (by omega),
    parseWithin_thrifty maxDepth source bindings, fun hout => hends ?_,
    parseWithin_thrifty maxDepth source bindings _⟩
  change Outcome.ofVerdict _ (parseWithin maxDepth source bindings (fuel source.length)).verdict =
    _ at hout
  generalize (parseWithin maxDepth source bindings (fuel source.length)).verdict = v at hout
  cases v with
  | accepted => simp [Outcome.ofVerdict] at hout
  | failed e => cases e <;> simp [Outcome.ofVerdict] at hout
  | fault f => simp [Outcome.ofVerdict] at hout
  | exhausted => rfl

end Evaluate

end ShiftReduce.Calculator
