import ShiftReduce.Proofs.Calculator.Replay
import ShiftReduce.Proofs.Calculator.Timely

namespace ShiftReduce

namespace Calculator

def afterStmts : StateId := ⟨1⟩

theorem stmts_entered : ∀ s ∈ stateIds,
    entered s = some (.nonterminal Phrase.stmts.nonterminal) ↔ s = afterStmts := by
  decide +kernel

/-- Where the end of input is looked at, it is accepted or it is an error. -/
theorem end_checked : ∀ s ∈ stateIds, (stateAt s).hasLookahead = true → ∀ p ∈ Production.all,
    Action.decode ((stateAt s).lookup Token.endOfInput.terminal) = .reduce p.ruleId →
      p = .program := by
  decide +kernel

variable {maxDepth : Nat} {c c' d : Config Lexer Ledger Value Span} {v : Value}

section Opening

variable {x : Lexer} {l : Ledger}

/-- A parse in front of a statement, the first token of which has been read. -/
structure Opened (x : Lexer) (l : Ledger) (mode : Mode) (c : Config Lexer Ledger Value Span) :
    Prop where
  scanner : c.scanner = x.next.2
  lookahead : c.lookahead = some x.next.1.terminal
  actions : c.actions = l
  mode_eq : c.mode = mode
  phase : c.phase = .deciding
  items : ∃ f g, c.stack.items = [f, g] ∧ f.state = afterStmts ∧ g.state = .start

variable (x l) in
/-- The first step of a parse makes an empty list of statements. -/
theorem exists_opened (hd : 1 < maxDepth) : ∃ c,
    (machine maxDepth).step ((machine maxDepth).opening x l) = .ok c ∧ Opened x l .normal c := by
  have hstart : StateId.start ∈ stateIds := by decide
  have decides : (machine maxDepth).Decides ((machine maxDepth).opening x l)
      ⟨.start, .nothing, x.span⟩ (stateAt .start) (.reduce Production.noStmts.ruleId) := by
    refine ⟨rfl, rfl, state_eq hstart, ?_⟩
    rw [State.lookup_of_not_hasLookahead rfl]
    rfl
  have reduces : (machine maxDepth).Reduces ((machine maxDepth).opening x l)
      Production.noStmts.ruleId Production.noStmts.rule [] [⟨.start, .nothing, x.span⟩]
      (.ok { value := .nothing, state := l }) :=
    ⟨rfl, rfl, rfl, rfl⟩
  have hother : Production.noStmts.ruleId ≠ tables.acceptRule := by decide
  have htarget : ((stateAt .start).gotoFor Production.noStmts.rule.lhs).getD .start =
      afterStmts := rfl
  obtain ⟨e, st, he, hstep, hst⟩ := Machine.step_of_reduce decides reduces rfl hother
    (state_eq hstart) hd
  have hpoised : (machine maxDepth).poised ((machine maxDepth).opening x l) (stateAt .start) [] =
      (machine maxDepth).fetched ((machine maxDepth).opening x l) := by
    simp [Machine.poised]
  refine ⟨_, hstep, ?_, ?_, he.actions, he.mode, he.phase, ⟨_, _, hst, htarget, rfl⟩⟩
  · rw [Machine.scanner_turned]
    change e.scanner = _
    rw [he.scanner, hpoised, Machine.scanner_fetched_of_none rfl]
    rfl
  · rw [Machine.lookahead_turned]
    change e.lookahead = _
    rw [he.lookahead, hpoised, Machine.lookahead_fetched, Machine.ahead_of_none rfl]
    rfl

/-- If there is nothing to read, the parse accepts. -/
theorem Opened.accepts {mode : Mode} (h : Opened x l mode c) (hx : x.next.1 = .endOfInput) :
    ∃ h, (machine maxDepth).step c = .error h := by
  obtain ⟨f, g, hitems, hf, -⟩ := h.items
  have hahead : (machine maxDepth).ahead c = Token.endOfInput.terminal := by
    rw [Machine.ahead_of_some h.lookahead, hx]
  have hmem : afterStmts ∈ stateIds := by decide
  have decides : (machine maxDepth).Decides c f (stateAt afterStmts)
      (.reduce Production.program.ruleId) := by
    refine ⟨h.phase, by rw [hitems, List.head?_cons], by rw [hf]; exact state_eq hmem, ?_⟩
    rw [hahead]
    rfl
  have reduces : (machine maxDepth).Reduces c Production.program.ruleId Production.program.rule [f]
      [g] (.ok { value := f.value, state := c.actions }) :=
    ⟨rfl, hitems, rfl, rfl⟩
  obtain ⟨e, -, hstep⟩ := Machine.step_of_accept decides reduces rfl rfl
  exact ⟨_, hstep⟩

end Opening

/-- A parse that accepts does so at the end of input with nothing but statements on the stack. -/
theorem accepted_shape (hl : Linked c.stack.items)
    (hs : (machine maxDepth).step c = .error ⟨.accepted v, d⟩) :
    (∃ f g, c.stack.items = [f, g] ∧ f.state = afterStmts ∧ g.state = .start) ∧
      c.phase = .deciding ∧ (machine maxDepth).ahead c = Token.endOfInput.terminal ∧
      d.actions = c.actions ∧ d.scanner = ((machine maxDepth).fetched c).scanner := by
  obtain ⟨f, s, r, rule, frames, below, reply, decides, reduces, acted, accepts, -⟩ :=
    Machine.exists_accepted hs
  obtain ⟨-, hr⟩ := accepts.resolve_left (Ledger.reduce_restrained reduces.reply).1
  obtain ⟨rfl, rfl, ⟨g, rfl, hstart⟩, hentered, hend⟩ := Reduces.program rfl hl decides reduces hr
  obtain ⟨hmem, rfl⟩ := Decides.row rfl hl decides
  obtain ⟨f', rfl, hf'⟩ := List.map_eq_singleton_iff.1 hentered
  have hitems : c.stack.items = [f', g] := reduces.items
  obtain rfl : f' = f := by simpa [hitems] using decides.top
  have hstmts := (stmts_entered _ hmem).1 hf'
  refine ⟨⟨_, _, hitems, hstmts, hstart⟩, decides.phase, hend, ?_, ?_⟩
  · have hreply : Ledger.reduce ((machine maxDepth).reduction c Production.program.ruleId
        Production.program.rule [f']) ((machine maxDepth).given [f']) c.actions = .ok reply :=
      reduces.reply
    rw [acted.actions, ← Except.ok.inj hreply]
  · rw [acted.scanner, hstmts]
    rfl

section AtEnd

variable (ho : Orderly (supply maxDepth) c)
include ho

/-- The skipping of input does not stop at the end of input. -/
theorem Orderly.ahead_ne_end {f : Frame Value Span} {s : State} {force : Bool}
    (phase : c.phase = .skipping force) (top : c.stack.items.head? = some f)
    (state : (machine maxDepth).tables.state f.state = .ok s)
    (fits : s.hasLookahead = true → s.lookup ((machine maxDepth).ahead c) ≠ 0) :
    s.hasLookahead = true ∧ (machine maxDepth).ahead c ≠ Token.endOfInput.terminal := by
  have hf := ho.caught f top (by simp [phase])
  have hrow : (machine maxDepth).tables.state f.state = .ok (stateAt f.state) :=
    ho.linked.state_eq (List.mem_of_head? top)
  obtain rfl := Except.ok.inj (state.symm.trans hrow)
  rw [hf] at fits ⊢
  refine ⟨rfl, ?_⟩
  rw [lookup_afterError (fits rfl)]
  decide

/-- Where input is skipped up to its end, the parse fails. -/
theorem Orderly.fails (hphase : c.phase ≠ .deciding)
    (hend : (machine maxDepth).ahead c = Token.endOfInput.terminal) :
    ∃ h, (machine maxDepth).step c = .error h ∧ ∀ v, h.verdict ≠ .accepted v := by
  cases hs : (machine maxDepth).step c with
  | ok c' =>
    cases Machine.turn_of_ok hs with
    | shifted decides => exact absurd decides.phase hphase
    | reduced d st decides => exact absurd decides.phase hphase
    | failed decides => exact absurd decides.phase hphase
    | raised decides => exact absurd decides.phase hphase
    | resumed phase top state careful fits =>
      exact absurd hend (ho.ahead_ne_end phase top state fits).2
    | discarded phase top state unfit more => exact absurd hend more
  | error h =>
    refine ⟨h, rfl, fun v hv => ?_⟩
    obtain ⟨verdict, d⟩ := h
    obtain rfl : verdict = .accepted v := hv
    obtain ⟨f, s, r, rule, frames, below, reply, decides, -⟩ := Machine.exists_accepted hs
    exact hphase decides.phase

omit ho in
/-- A reduction that is not the last one does not read the end of input, since no phrase can be
empty above a token and a state that looks at the end reduces the whole. -/
theorem Folded.reads_no_end {p : Production} {target : StateId}
    {frames below : List (Frame Value Span)} {reply : Reply Ledger Value}
    (h : Folded (machine maxDepth) c f p target frames below g reply c')
    (hmem : f.state ∈ stateIds) (hdeep : 2 ≤ c.stack.items.length)
    (hl : c.lookahead ≠ some Token.endOfInput.terminal) :
    c'.lookahead ≠ some Token.endOfInput.terminal := by
  have hlook : c'.lookahead =
      ((machine maxDepth).poised c (stateAt f.state) frames).lookahead := h.acted.lookahead
  rw [hlook, Machine.poised]
  split
  · rename_i hreads
    rw [Machine.lookahead_fetched]
    intro hend
    rcases Bool.or_eq_true_iff.1 hreads with hlooks | hempty
    · have haction := h.decides.action
      rw [Option.some.inj hend] at haction
      exact h.inner.2 (end_checked _ hmem hlooks p (Production.mem_all p) haction)
    · obtain rfl := List.isEmpty_iff.1 hempty
      obtain rfl := h.eq_nil_of_empty
      rw [h.reduces.items] at hdeep
      simp at hdeep
  · exact hl

/-- A step that reads the end of input without accepting it has come upon an error. -/
theorem Orderly.skips (hdeep : 2 ≤ c.stack.items.length)
    (hl : c.lookahead ≠ some Token.endOfInput.terminal)
    (hs : (machine maxDepth).step c = .ok c')
    (hl' : c'.lookahead = some Token.endOfInput.terminal) : c'.phase ≠ .deciding := by
  have recovers {d : Config Lexer Ledger Value Span} {expected : List Terminal}
      (hr : (machine maxDepth).Recovers d expected (.ok c')) : c'.phase ≠ .deciding := by
    cases hr with
    | recovered items passed state catches room result =>
      rw [result.phase]
      simp
  cases Machine.turn_of_ok hs with
  | shifted decides room result =>
    obtain ⟨l, rest, hinput, -⟩ := Decides.takes (supply maxDepth) rfl ho.linked decides
    rw [result.lookahead, if_neg ((supply maxDepth).ahead_of_cons hinput).2.1] at hl'
    simp at hl'
  | reduced d st decides reduces acted proceeds other state room items =>
    obtain ⟨p, target, h⟩ :=
      Folded.of_turn rfl ho.linked decides reduces acted proceeds other state items
    have hmem := ho.linked.mem_stateIds_of_mem (List.mem_of_head? decides.top)
    exact absurd hl' (h.reads_no_end hmem hdeep hl)
  | failed decides recovered => exact recovers recovered
  | raised decides reduces acted raises recovered => exact recovers recovered
  | resumed phase top state careful fits =>
    obtain ⟨hlooks, hne⟩ := ho.ahead_ne_end phase top state fits
    rw [if_pos hlooks, Machine.lookahead_resynchronized, Machine.lookahead_fetched] at hl'
    exact absurd (Option.some.inj hl') hne
  | discarded phase top state unfit more => simp at hl'

end AtEnd

variable {w : Setting}

/-- A reduction that does not look at the next token is made as well where another one is next. -/
theorem Setting.Replays.reduce_unread {f g : Frame Value Span} {p : Production} {target : StateId}
    {frames below : List (Frame Value Span)} {reply : Reply Ledger Value} (h : w.Replays c d)
    (hc : Folded (machine maxDepth) c f p target frames below g reply c')
    (hunread : (stateAt f.state).hasLookahead = false ∧ frames ≠ [])
    (room : below.length + 1 < (machine maxDepth).maxDepth) :
    ∃ d', (machine maxDepth).step d = .ok d' ∧ w.Replays c' d' := by
  obtain ⟨frames', g', below', reply', hframes, hg, hbelow, reduces', hcontrol, hledger, hmade⟩ :=
    h.reduces hc.spelled hc.reduces
  obtain ⟨f', hf', hff'⟩ : ∃ f', d.stack.items.head? = some f' ∧ f'.state = f.state := by
    obtain ⟨above, habove⟩ := List.head?_eq_some_iff.1 hc.decides.top
    obtain ⟨f', above', hff', -, hd⟩ := List.forall₂_cons_left_iff.1 (habove ▸ h.frames)
    exact ⟨f', by rw [hd, List.head?_cons], hff'.state⟩
  have decides' : (machine maxDepth).Decides d f' (stateAt f.state) (.reduce p.ruleId) := by
    refine ⟨h.phase.trans hc.decides.phase, hf', hff' ▸ hc.decides.state, ?_⟩
    rw [State.lookup_of_not_hasLookahead hunread.1,
      ← State.lookup_of_not_hasLookahead hunread.1 ((machine maxDepth).ahead c), hc.decides.action]
  have hstate' : (machine maxDepth).tables.state g'.state = .ok (stateAt g.state) := by
    rw [hg.state]
    exact hc.linked.state_eq List.mem_cons_self
  have hother : p.ruleId ≠ Production.program.ruleId :=
    fun h => hc.inner.2 (Production.ruleId_injective h)
  obtain ⟨e', st', he', hstep', hst'⟩ := Machine.step_of_reduce decides' reduces'
    (hcontrol.trans hc.proceeds) hother hstate' (hbelow.length_eq ▸ room)
  have hacted : w.Replays { c' with stack := c.stack } e' := by
    have hempty : frames.isEmpty = false := by simpa using hunread.2
    refine Setting.Replays.acted ?_ hc.acted he' hledger
    simp only [Machine.poised, Setting.Replays.isEmpty_eq hframes, hempty, hunread.1]
    exact h
  refine ⟨_, hstep', hacted.lexer, hacted.heard, ?_, hacted.lookahead, hacted.phase,
    hacted.actions⟩
  rw [Machine.stack_turned, hc.items, hst', hc.goto, Option.getD_some]
  exact .cons (Setting.Replays.made hc.linked.mem_stateIds hc.goto hc.inner.2 hmade)
    (.cons hg hbelow)

/-- What is done at the end of the text without reading it is done as well where another text
follows. -/
theorem Setting.Replays.step_of_end (ho : Orderly (supply maxDepth) c) (h : w.Replays c d)
    (hs : (machine maxDepth).step c = .ok c')
    (hend : (machine maxDepth).ahead c = Token.endOfInput.terminal)
    (hl : c'.lookahead ≠ some Token.endOfInput.terminal) :
    ∃ d', (machine maxDepth).step d = .ok d' ∧ w.Replays c' d' := by
  have recovers {e : Config Lexer Ledger Value Span} {expected : List Terminal}
      (hr : (machine maxDepth).Recovers e expected (.ok c'))
      (he : (machine maxDepth).ahead e = (machine maxDepth).ahead c) : False := by
    cases hr with
    | recovered items passed state catches room result =>
      exact hl (by rw [result.lookahead, he, hend])
  cases Machine.turn_of_ok hs with
  | shifted decides room result =>
    obtain ⟨l, rest, hinput, -⟩ := Decides.takes (supply maxDepth) rfl ho.linked decides
    exact absurd hend ((supply maxDepth).ahead_of_cons hinput).2.1
  -- A reduction that had looked at the end would have left it as the token read ahead.
  | @reduced f _ _ _ _ _ frames _ _ _ st decides reduces acted proceeds other state room items =>
    obtain ⟨p, target, hc⟩ :=
      Folded.of_turn rfl ho.linked decides reduces acted proceeds other state items
    refine h.reduce_unread hc ?_ room
    rcases Machine.poised_cases (machine maxDepth) c (stateAt f.state) frames with
      hp | ⟨-, hunread⟩
    · have hlook := hc.acted.lookahead
      rw [hp, Machine.lookahead_fetched, hend] at hlook
      exact absurd hlook hl
    · exact hunread
  | failed decides recovered => exact absurd (recovers recovered rfl) id
  | raised decides reduces acted raises recovered =>
    exact absurd (recovers recovered acted.ahead_eq) id
  | resumed phase top state careful fits =>
    exact absurd hend (ho.ahead_ne_end phase top state fits).2
  | discarded phase top state unfit more => exact absurd hend more

/-- All that a parse keeps in order until it ends. -/
structure Underway (maxDepth : Nat) (stop : Position) (c : Config Lexer Ledger Value Span) :
    Prop where
  orderly : Orderly (supply maxDepth) c
  fitting : Fitting (supply maxDepth) c
  prompt : Prompt c
  steady : Steady stop c

namespace Underway

variable {stop : Position}

theorem step (h : Underway maxDepth stop c) (hs : (machine maxDepth).step c = .ok c') :
    Underway maxDepth stop c' :=
  ⟨(h.orderly.step rfl hs).1, h.fitting.step rfl rfl hs, h.prompt.step h.fitting.linked hs,
    h.steady.step h.orderly hs⟩

theorem beginning (maxDepth : Nat) (source : String) (bindings : Variables) :
    Underway maxDepth (({} : Position).advance source.toList)
      (beginning maxDepth source bindings) := by
  refine ⟨.opening _ _ fun l hl => Lexer.terminal_lexemes_ne_error hl,
    fitting_beginning maxDepth source bindings, ⟨?_, by simp [Machine.opening],
      by simp [Machine.opening]⟩, ⟨rfl, rfl, by simp [Machine.opening], fun _ => rfl⟩⟩
  intro _ d hd
  change d ∈ ([] : List Diagnostic) at hd
  simp at hd

/-- The token read last has no diagnostic but the lexer's while errors are reported. -/
theorem timely (h : Underway maxDepth stop c) (hm : c.mode = .normal) :
    ((machine maxDepth).fetched c).scanner.Timely :=
  h.prompt.fetched.timely _ (Machine.lookahead_fetched _ c) (by simp [hm])

theorem reaches (h : Underway maxDepth stop c) (hr : (machine maxDepth).Reaches c c') :
    Underway maxDepth stop c' :=
  hr.preserves (P := Underway maxDepth stop) (fun h hs => h.step hs) h

end Underway

theorem deep_step (hdeep : 2 ≤ c.stack.items.length)
    (hs : (machine maxDepth).step c = .ok c') : 2 ≤ c'.stack.items.length := by
  have recovers {d : Config Lexer Ledger Value Span} {expected : List Terminal}
      (hr : (machine maxDepth).Recovers d expected (.ok c')) : 2 ≤ c'.stack.items.length := by
    cases hr with
    | recovered items passed state catches room result =>
      rw [result.items, List.length_cons, List.length_cons]
      omega
  cases Machine.turn_of_ok hs with
  | shifted decides room result =>
    rw [result.items, List.length_cons]
    omega
  | reduced d st decides reduces acted proceeds other state room items =>
    change 2 ≤ st.items.length
    rw [items, List.length_cons, List.length_cons]
    omega
  | failed decides recovered => exact recovers recovered
  | raised decides reduces acted raises recovered => exact recovers recovered
  | resumed phase top state careful fits => split <;> simpa using hdeep
  | discarded phase top state unfit more => simpa using hdeep

/-- A parse that accepts is replayed where another text follows, up to the end of its own. It does
not read that end before. -/
theorem Setting.Replays.replayed {stop : Position} (hu : Underway maxDepth stop c)
    (hdeep : 2 ≤ c.stack.items.length) (hl : c.lookahead ≠ some Token.endOfInput.terminal)
    (h : w.Replays c d) (hr : (machine maxDepth).Reaches c c')
    {e : Config Lexer Ledger Value Span}
    (hs : (machine maxDepth).step c' = .error ⟨.accepted v, e⟩) :
    ∃ d', (machine maxDepth).Reaches d d' ∧ w.Replays c' d' ∧
      c'.lookahead ≠ some Token.endOfInput.terminal := by
  induction hr using Relation.ReflTransGen.head_induction_on generalizing d with
  | refl => exact ⟨d, .refl, h, hl⟩
  | @head c c₁ hstep hrest ih =>
    have hu₁ := hu.step hstep
    have hl₁ : c₁.lookahead ≠ some Token.endOfInput.terminal := by
      intro hend
      obtain ⟨h', hfail, hne⟩ := hu₁.orderly.fails (hu.orderly.skips hdeep hl hstep hend)
        (Machine.ahead_of_some hend)
      rcases hrest.cases_head with rfl | ⟨c₂, hc₂, -⟩
      · exact hne v (congrArg Halt.verdict (Except.error.inj (hfail.symm.trans hs)))
      · simp [hfail] at hc₂
    obtain ⟨d₁, hd₁, h₁⟩ : ∃ d₁, (machine maxDepth).step d = .ok d₁ ∧ w.Replays c₁ d₁ := by
      by_cases hend : (machine maxDepth).ahead c = Token.endOfInput.terminal
      · exact h.step_of_end hu.orderly hstep hend hl₁
      · exact (hstep ▸ h.step (fun _ => hend) hu.timely hu.fitting).exists_ok
    obtain ⟨d', hr', h', hlook⟩ := ih hu₁ (deep_step hdeep hstep) hl₁ h₁
    exact ⟨d', .head hd₁ hr', h', hlook⟩

end Calculator

end ShiftReduce
