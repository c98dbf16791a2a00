import ShiftReduce.Proofs.Calculator.Setting

namespace ShiftReduce.Calculator

open Setting

variable {w : Setting}

namespace Setting.Under

variable {x y : Lexer}

theorem of_eq {x' y' : Lexer} (h : w.Under x y) (hx : x'.rest = x.rest ∧ x'.place = x.place ∧
      x'.value = x.value ∧ x'.span = x.span) (hy : y'.rest = y.rest ∧ y'.place = y.place ∧
      y'.value = y.value ∧ y'.span = y.span) : w.Under x' y' :=
  ⟨by rw [hx.1, hy.1, h.rest], by rw [hx.2.1, hy.2.1, h.place], by rw [hx.2.2.1, hy.2.2.1, h.value],
    by rw [hx.2.2.2, hy.2.2.2, h.span]⟩

theorem taken (h : w.Under x y) : w.Under x.take.2 y.take.2 := ⟨h.rest, h.place, rfl, h.span⟩

theorem item_eq (h : w.Under x y) (hend : w.behind ≠ [] → x.next.1 ≠ .endOfInput) :
    Lexer.item y.place y.rest = { (Lexer.item x.place x.rest).down w.lines with
      rest := (Lexer.item x.place x.rest).rest ++ w.behind } := by
  rw [h.place, h.rest, Lexer.item_down]
  rcases w.apart with hw | ⟨q, hw⟩
  · rw [hw, List.append_nil, List.append_nil]
    rfl
  · have hlook : (Lexer.item x.place x.rest).look ≠ .endOfInput := by
      have hne := hend (by simp [hw])
      rw [Lexer.next_eq] at hne
      exact fun h => hne ((Lexer.token_eq_endOfInput_iff _).2 h)
    rw [hw]
    exact congrArg (Lexer.Item.down w.lines) (Lexer.item_seam _ _ q .single hlook)

/-- The next token is the same, further down, and so are the complaints about it. -/
theorem of_item (hitem : Lexer.item y.place y.rest =
      { (Lexer.item x.place x.rest).down w.lines with
        rest := (Lexer.item x.place x.rest).rest ++ w.behind }) :
    y.next.1 = x.next.1 ∧ w.Under x.next.2 y.next.2 ∧ ∃ new, (∀ d ∈ new, d.isLexical = true) ∧
      x.next.2.diagnostics = new ++ x.diagnostics ∧
      y.next.2.diagnostics = new.map (·.down w.lines) ++ y.diagnostics := by
  rw [Lexer.next_eq, Lexer.next_eq, hitem]
  generalize Lexer.item x.place x.rest = i
  exact ⟨rfl, ⟨rfl, i.stop_down w.lines, rfl, i.span_down w.lines⟩, i.complaint,
    fun d hd => (Lexer.Item.isLexical_of_mem_complaint hd).1, rfl,
    congrArg (· ++ y.diagnostics) (i.complaint_down w.lines)⟩

end Setting.Under

variable {maxDepth : Nat} {c d : Config Lexer Ledger Value Span}

def Setting.Reads (w : Setting) (maxDepth : Nat) (c : Config Lexer Ledger Value Span) : Prop :=
  w.behind ≠ [] → (machine maxDepth).ahead c ≠ Token.endOfInput.terminal

theorem Setting.Closes.of_replays (h : w.Replays c d) (v : Verdict Value ActionFault) :
    w.Closes ⟨v, c⟩ ⟨v, d⟩ :=
  ⟨.inl rfl, ⟨_, _, h.heard⟩, h.actions⟩

theorem describe_not_lexical (l : Ledger) (t : Terminal) (expected : List Terminal) (span : Span) :
    ¬ Diagnostic.isLexical ⟨(machine maxDepth).describe l t expected, span⟩ = true := by
  obtain ⟨rest, hrest⟩ : ∃ rest,
      (machine maxDepth).describe l t expected = "syntax error, unexpected " ++ rest := by
    unfold Machine.describe
    split
    · exact ⟨_, rfl⟩
    · exact ⟨_, by rw [String.append_assoc, String.append_assoc]⟩
  rw [Diagnostic.isLexical, List.isPrefixOf_iff_prefix, hrest, String.toList_append]
  rintro ⟨t, ht⟩
  simp at ht

namespace Setting.Replays

theorem fetched (h : w.Replays c d) (hread : w.Reads maxDepth c) :
    (machine maxDepth).ahead d = (machine maxDepth).ahead c ∧
      w.Replays ((machine maxDepth).fetched c) ((machine maxDepth).fetched d) := by
  cases hl : c.lookahead with
  | some t =>
    have hl' := h.lookahead.trans hl
    rw [Machine.ahead_of_some hl, Machine.ahead_of_some hl', Machine.fetched_of_some hl,
      Machine.fetched_of_some hl']
    exact ⟨rfl, h⟩
  | none =>
    have hl' := h.lookahead.trans hl
    have hend : w.behind ≠ [] → c.scanner.next.1 ≠ .endOfInput := by
      intro hw htoken
      refine hread hw ?_
      rw [Machine.ahead_of_none hl]
      exact congrArg Token.terminal htoken
    obtain ⟨htoken, hunder, new, hnew, hdc, hdd⟩ := Under.of_item (h.lexer.item_eq hend)
    have hsc : ((machine maxDepth).fetched c).scanner = c.scanner.next.2 :=
      Machine.scanner_fetched_of_none hl
    have hsd : ((machine maxDepth).fetched d).scanner = d.scanner.next.2 :=
      Machine.scanner_fetched_of_none hl'
    have hahead : (machine maxDepth).ahead d = (machine maxDepth).ahead c := by
      rw [Machine.ahead_of_none hl, Machine.ahead_of_none hl']
      exact congrArg Token.terminal htoken
    refine ⟨hahead, ?_, ?_, by simpa using h.frames, by simp [hahead], by simpa using h.phase,
      by simpa using h.actions⟩
    · rw [hsc, hsd]
      exact hunder
    · rw [hsc, hsd, hdc, hdd, Machine.mode_fetched, Machine.mode_fetched]
      exact h.heard.lexical hnew

section Recover

variable (expected : List Terminal)

theorem complained (h : w.Replays c d) (hread : w.Reads maxDepth c)
    (htimely : c.mode = .normal → ((machine maxDepth).fetched c).scanner.Timely) :
    w.Under ((machine maxDepth).complained c expected).scanner
        ((machine maxDepth).complained d expected).scanner ∧
      w.Heard (.recovering 0) (.recovering 0)
        ((machine maxDepth).complained c expected).scanner.diagnostics
        ((machine maxDepth).complained d expected).scanner.diagnostics := by
  obtain ⟨hahead, hf⟩ := h.fetched hread
  have hheard := hf.heard
  rw [Machine.mode_fetched, Machine.mode_fetched] at hheard
  have hkeep (c : Config Lexer Ledger Value Span) :
      ((machine maxDepth).complained c expected).scanner.rest =
          ((machine maxDepth).fetched c).scanner.rest ∧
        ((machine maxDepth).complained c expected).scanner.place =
          ((machine maxDepth).fetched c).scanner.place ∧
        ((machine maxDepth).complained c expected).scanner.value =
          ((machine maxDepth).fetched c).scanner.value ∧
        ((machine maxDepth).complained c expected).scanner.span =
          ((machine maxDepth).fetched c).scanner.span := by
    rw [Machine.scanner_complained]
    split
    · exact ⟨Lexer.rest_report _ _ _, Lexer.place_report _ _ _, Lexer.value_report _ _ _,
        Lexer.span_report _ _ _⟩
    · exact ⟨rfl, rfl, rfl, rfl⟩
  refine ⟨hf.lexer.of_eq (hkeep c) (hkeep d), ?_⟩
  rw [Machine.scanner_complained, Machine.scanner_complained, hahead]
  exact hheard.reported hf.lexer.span (describe_not_lexical _ _ expected) htimely

/-- An error is answered alike. -/
theorem recover (h : w.Replays c d) (hread : w.Reads maxDepth c)
    (htimely : c.mode = .normal → ((machine maxDepth).fetched c).scanner.Timely) :
    Agrees w.Replays w.Closes ((machine maxDepth).recover c expected)
      ((machine maxDepth).recover d expected) := by
  obtain ⟨hahead, hf⟩ := h.fetched hread
  obtain ⟨hunder, hheard⟩ := h.complained expected hread htimely
  have hstack : List.Forall₂ w.Matches ((machine maxDepth).complained c expected).stack.items
      ((machine maxDepth).complained d expected).stack.items := by
    simpa using h.frames
  rw [Machine.recover_eq, Machine.recover_eq]
  refine .bind ((Machine.unwind_agrees (fun hfg => hfg.state) hstack rfl rfl (.refl _)
    (.refl _)).imp (fun _ _ => id) ?_) ?_
  · rintro e e' ⟨hverdict, hc, hd⟩
    rw [← hc.scanner, ← hd.scanner] at hheard
    refine ⟨.inl hverdict, ⟨_, _, hheard⟩, ?_⟩
    rw [hc.actions, hd.actions]
    simpa using h.actions
  · rintro ⟨target, x⟩ ⟨_, y⟩ ⟨rfl, hframes, hx, hy⟩
    have hlength : x.stack.items.length = y.stack.items.length := hframes.length_eq
    have hactions : y.actions = w.ledgerOf x.actions := by
      rw [hx.actions, hy.actions]
      simpa using h.actions
    rw [← hx.scanner, ← hy.scanner] at hunder hheard
    simp only [bind, Except.bind]
    by_cases hroom : x.stack.items.length < (machine maxDepth).maxDepth
    · rw [Machine.push_of_lt _ (by rw [Config.stack_emit]; exact hroom),
        Machine.push_of_lt _ (by rw [Config.stack_emit]; omega)]
      refine .ok ⟨hunder, hheard, .cons ⟨rfl, fun X _ _ => ⟨rfl, hf.lexer.span⟩⟩ hframes, ?_, ?_,
        hactions⟩
      · change y.lookahead = x.lookahead
        rw [hx.lookahead, hy.lookahead, Machine.lookahead_complained,
          Machine.lookahead_complained, hahead]
      · exact congrArg Phase.skipping (by simp only [hf.heard.stalled_iff])
    · rw [Machine.push_of_le _ (by rw [Config.stack_emit]; omega),
        Machine.push_of_le _ (by rw [Config.stack_emit]; omega)]
      exact .error ⟨.inl rfl, ⟨_, _, hheard⟩, hactions⟩

end Recover

theorem shift (h : w.Replays c d) (hread : w.Reads maxDepth c) (target : StateId) :
    Agrees w.Replays w.Closes ((machine maxDepth).shift c target)
      ((machine maxDepth).shift d target) := by
  obtain ⟨hahead, hf⟩ := h.fetched hread
  have hlength : c.stack.items.length = d.stack.items.length := h.frames.length_eq
  have hheard := hf.heard
  rw [Machine.mode_fetched, Machine.mode_fetched] at hheard
  by_cases hroom : c.stack.items.length < (machine maxDepth).maxDepth
  · obtain ⟨c', hc, sc⟩ := Machine.shift_of_lt (machine maxDepth) c target hroom
    obtain ⟨d', hd, sd⟩ := Machine.shift_of_lt (machine maxDepth) d target (hlength ▸ hroom)
    have hlexer : w.Under c'.scanner d'.scanner := by
      rw [sc.scanner, sd.scanner]
      exact hf.lexer.taken
    rw [hc, hd]
    refine .ok ⟨hlexer, ?_, ?_, ?_, ?_, ?_⟩
    · rw [sc.mode, sd.mode, sc.scanner, sd.scanner]
      exact hheard.counted
    · rw [sc.items, sd.items]
      exact .cons ⟨rfl, fun X _ _ => ⟨hf.lexer.value, hlexer.span⟩⟩ h.frames
    · rw [sc.lookahead, sd.lookahead, hahead]
    · rw [sc.phase, sd.phase, h.phase]
    · rw [sc.actions, sd.actions, h.actions]
  · obtain ⟨e, he, hve, hae, hse⟩ := Machine.shift_of_le (machine maxDepth) c target (by omega)
    obtain ⟨e', he', hve', hae', hse'⟩ :=
      Machine.shift_of_le (machine maxDepth) d target (by omega)
    rw [he, he']
    refine .error ⟨.inl (hve'.trans hve.symm), ⟨c.mode, d.mode, ?_⟩, by rw [hae, hae', h.actions]⟩
    rw [hse, hse']
    exact hheard

section Reduce

variable {s : State} {r : RuleId} {frames frames' : List (Frame Value Span)}
  {reply reply' : Reply Ledger Value} {e e' : Config Lexer Ledger Value Span}

theorem isEmpty_eq (hframes : List.Forall₂ w.Matches frames frames') :
    frames'.isEmpty = frames.isEmpty := by
  cases hframes <;> rfl

theorem poised (h : w.Replays c d) (hread : w.Reads maxDepth c)
    (hframes : List.Forall₂ w.Matches frames frames') :
    w.Replays ((machine maxDepth).poised c s frames) ((machine maxDepth).poised d s frames') := by
  unfold Machine.poised
  rw [isEmpty_eq hframes]
  split
  · exact (h.fetched hread).2
  · exact h

theorem acted (h : w.Replays ((machine maxDepth).poised c s frames)
      ((machine maxDepth).poised d s frames')) (hc : (machine maxDepth).Acted c s r frames reply e)
    (hd : (machine maxDepth).Acted d s r frames' reply' e')
    (hstate : reply'.state = w.ledgerOf reply.state) : w.Replays e e' := by
  have hheard := h.heard
  have hframes := h.frames
  have hphase := h.phase
  rw [Machine.mode_poised, Machine.mode_poised] at hheard
  rw [Machine.stack_poised, Machine.stack_poised] at hframes
  rw [Machine.phase_poised, Machine.phase_poised] at hphase
  refine ⟨?_, ?_, ?_, ?_, ?_, ?_⟩
  · rw [hc.scanner, hd.scanner]
    exact h.lexer
  · rw [hc.scanner, hd.scanner, hc.mode, hd.mode]
    exact hheard
  · rw [hc.stack, hd.stack]
    exact hframes
  · rw [hc.lookahead, hd.lookahead, h.lookahead]
  · rw [hc.phase, hd.phase, hphase]
  · rw [hc.actions, hd.actions, hstate]

theorem emit (h : w.Replays e e') (a b : Event Value Span) : w.Replays (e.emit a) (e'.emit b) :=
  ⟨h.lexer, h.heard, h.frames, h.lookahead, h.phase, h.actions⟩

theorem restack {st st' : FrameStack Value Span} (h : w.Replays e e')
    (hst : List.Forall₂ w.Matches st.items st'.items) :
    w.Replays { e with stack := st } { e' with stack := st' } :=
  ⟨h.lexer, h.heard, hst, h.lookahead, h.phase, h.actions⟩

end Reduce

theorem skip (h : w.Replays c d) (hread : w.Reads maxDepth c) (hl : Linked c.stack.items)
    (force : Bool) : Agrees w.Replays w.Closes ((machine maxDepth).skip c force)
      ((machine maxDepth).skip d force) := by
  obtain ⟨hahead, hf⟩ := h.fetched hread
  obtain ⟨f, below, hc⟩ := List.exists_cons_of_ne_nil hl.ne_nil
  obtain ⟨g, below', hfg, -, hd⟩ := List.forall₂_cons_left_iff.1 (hc ▸ h.frames)
  have hstate : (machine maxDepth).tables.state f.state = .ok (stateAt f.state) :=
    hl.state_eq (hc ▸ List.mem_cons_self)
  have resumed {c d : Config Lexer Ledger Value Span} (h : w.Replays c d) : w.Replays
      (Machine.resynchronized c f.state) (Machine.resynchronized d f.state) :=
    ⟨h.lexer, h.heard, h.frames, h.lookahead, rfl, h.actions⟩
  unfold Machine.skip
  simp only [FrameStack.peek_of_cons hc, FrameStack.peek_of_cons hd, Config.demand, bind,
    Except.bind, hfg.state, hstate, Machine.fetch_eq, hahead]
  cases !force && !(stateAt f.state).hasLookahead with
  | true => exact .ok (resumed h)
  | false =>
    simp only [Bool.false_eq_true, if_false]
    by_cases hfit : (!force && (stateAt f.state).lookup ((machine maxDepth).ahead c) != 0) = true
    · simp only [hfit, if_true]
      exact .ok (resumed hf)
    · simp only [hfit]
      by_cases hlast : (machine maxDepth).ahead c = (machine maxDepth).tables.endTerminal
      · simp only [hlast, if_true]
        exact .error ⟨.inl rfl, ⟨_, _, hf.heard⟩, hf.actions⟩
      · simp only [hlast, if_false]
        exact .ok ⟨hf.lexer, hf.heard, hf.frames, rfl, rfl, hf.actions⟩

end Setting.Replays

/-- The productions that string the statements together. What their phrases carry is never used. -/
def Production.spine : List Production := [.program, .noStmts, .moreStmts]

theorem spine_checked : ∀ p ∈ Production.all,
    p ∈ Production.spine ∧ (p = .program ∨ p.rule.lhs = Phrase.stmts.nonterminal) ∨
      p ∉ Production.spine ∧ p.rule.rhs ≠ [] ∧
        .nonterminal Phrase.stmts.nonterminal ∉ p.rule.rhs := by
  decide

theorem stretch_down (k : Nat) (e e' : Span) {ss : List Span} (h : ss ≠ []) :
    stretch e' (ss.map (·.down k)) = (stretch e ss).down k := by
  match ss with
  | [] => exact absurd rfl h
  | [s] => rfl
  | s :: t :: rest =>
    simp only [stretch, List.map_cons]
    rw [← Span.merge_down]
    congr 1
    exact List.getLast_map (l := t :: rest) (by simp)

namespace Setting.Replays

section Answers

variable {p : Production} {frames frames' : List (Frame Value Span)}

theorem counts {Xs : List Symbol} (hframes : List.Forall₂ w.Matches frames frames')
    (hentered : frames.map (fun f => entered f.state) = Xs.map some)
    (hXs : .nonterminal Phrase.stmts.nonterminal ∉ Xs) :
    frames'.map Frame.value = frames.map Frame.value ∧
      frames'.map Frame.span = (frames.map Frame.span).map (·.down w.lines) := by
  induction hframes generalizing Xs with
  | nil => exact ⟨rfl, rfl⟩
  | @cons f g fs gs hfg _ ih =>
    cases Xs with
    | nil => simp at hentered
    | cons X Xs =>
      simp only [List.map_cons, List.cons.injEq] at hentered
      obtain ⟨hvalue, hspan⟩ := hfg.counts X hentered.1 fun h => hXs (h ▸ List.mem_cons_self)
      obtain ⟨hvalues, hspans⟩ := ih hentered.2 fun h => hXs (List.mem_cons_of_mem _ h)
      exact ⟨by rw [List.map_cons, List.map_cons, hvalue, hvalues],
        by rw [List.map_cons, List.map_cons, List.map_cons, hspan, hspans]⟩

/-- The semantic action of a production answers in the setting as it does without. -/
theorem answers (h : w.Replays c d) (hframes : List.Forall₂ w.Matches frames frames')
    (hentered : frames.map (fun f => entered f.state) = p.rule.rhs.map some)
    {reply : Reply Ledger Value}
    (hreply : Ledger.reduce ((machine maxDepth).reduction c p.ruleId p.rule frames)
      ((machine maxDepth).given frames) c.actions = .ok reply) :
    ∃ reply', Ledger.reduce ((machine maxDepth).reduction d p.ruleId p.rule frames')
        ((machine maxDepth).given frames') d.actions = .ok reply' ∧
      reply'.control = reply.control ∧ reply'.state = w.ledgerOf reply.state ∧
      (p ∉ Production.spine → reply'.value = reply.value ∧
        Machine.spread ((machine maxDepth).gap d) frames' =
          (Machine.spread ((machine maxDepth).gap c) frames).down w.lines) := by
  have hrule {r : Reduction Value Span} {given : Value} {l : Ledger} (hr : r.ruleId = p.ruleId) :
      Ledger.reduce r given l = l.apply r given p := by
    rw [Ledger.reduce, hr, Production.ofRule?_ruleId]
  rw [hrule rfl] at hreply ⊢
  rw [h.actions]
  -- On the spine the values and spans may differ, but the actions there only pass on. Elsewhere
  -- what the action is given is the same up to the lines.
  rcases spine_checked p (Production.mem_all p) with ⟨hspine, -⟩ | ⟨hspine, hrhs, hplain⟩
  · have hpass (r : Reduction Value Span) (given : Value) (l : Ledger) :
        l.apply r given p = l.pass given := by
      simp only [Production.spine, List.mem_cons, List.not_mem_nil, or_false] at hspine
      rcases hspine with rfl | rfl | rfl <;> rfl
    rw [hpass] at hreply ⊢
    obtain rfl := Except.ok.inj hreply
    exact ⟨_, rfl, rfl, rfl, fun hne => absurd hspine hne⟩
  · obtain ⟨hvalues, hspans⟩ := counts hframes hentered hplain
    have hne : frames.map Frame.span ≠ [] := by
      rw [Ne, List.map_eq_nil_iff]
      rintro rfl
      exact hrhs (by simpa using hentered.symm)
    have hspread : Machine.spread ((machine maxDepth).gap d) frames' =
        (Machine.spread ((machine maxDepth).gap c) frames).down w.lines := by
      rw [Machine.spread_eq, Machine.spread_eq, hspans, stretch_down _ _ _ hne]
    have hgiven : (machine maxDepth).given frames' = (machine maxDepth).given frames := by
      rw [Machine.given, Machine.given, ← List.head?_map, ← List.head?_map, hvalues]
    have hreduction : (machine maxDepth).reduction d p.ruleId p.rule frames' =
        ((machine maxDepth).reduction c p.ruleId p.rule frames).down w.lines := by
      rw [Machine.reduction, hvalues, hspans, hspread]
      rfl
    rw [hgiven, hreduction]
    have hechoes := echoes_apply (w := w) c.actions
      ((machine maxDepth).reduction c p.ruleId p.rule frames) ((machine maxDepth).given frames) p
    rw [hreply] at hechoes
    generalize Ledger.apply _ _ _ p = answer at hechoes
    cases hechoes with
    | reply control value state => exact ⟨_, rfl, control, state, fun _ => ⟨value, hspread⟩⟩

/-- What comes of a production other than those of the spine counts. -/
theorem made {s target : StateId} {v v' : Value} {span span' : Span} (hs : s ∈ stateIds)
    (htarget : (stateAt s).gotoFor p.rule.lhs = some target) (hp : p ≠ .program)
    (hmade : p ∉ Production.spine → v' = v ∧ span' = span.down w.lines) :
    w.Matches ⟨target, v, span⟩ ⟨target, v', span'⟩ := by
  refine ⟨rfl, fun X hX hplain => hmade fun hspine => ?_⟩
  rw [(edges_checked _ hs _ (State.edges_of_gotoFor htarget)).2.2.1] at hX
  obtain rfl := Option.some.inj hX
  rcases spine_checked p (Production.mem_all p) with ⟨-, hp' | hp'⟩ | ⟨hne, -⟩
  · exact hp hp'
  · exact hplain (congrArg Symbol.nonterminal hp')
  · exact hne hspine

end Answers

theorem exists_append {A B : Type} {R : A → B → Prop} {l₁ l₂ : List A} {l : List B}
    (h : List.Forall₂ R (l₁ ++ l₂) l) :
    ∃ l₁' l₂', l = l₁' ++ l₂' ∧ List.Forall₂ R l₁ l₁' ∧ List.Forall₂ R l₂ l₂' :=
  ⟨l.take l₁.length, l.drop l₁.length, (List.take_append_drop _ l).symm,
    by simpa using List.forall₂_take l₁.length h, by simpa using List.forall₂_drop l₁.length h⟩

section Reduce

variable {p : Production} {frames frames' below below' : List (Frame Value Span)}
  {g g' : Frame Value Span} {e e' : Config Lexer Ledger Value Span}

/-- The frames that are reduced have their like in the setting, and the semantic action answers
there as it does without. -/
theorem reduces {reply : Reply Ledger Value} (h : w.Replays c d)
    (hentered : frames.map (fun f => entered f.state) = p.rule.rhs.map some)
    (hc : (machine maxDepth).Reduces c p.ruleId p.rule frames (g :: below) (.ok reply)) :
    ∃ frames' g' below' reply', List.Forall₂ w.Matches frames frames' ∧ w.Matches g g' ∧
      List.Forall₂ w.Matches below below' ∧
      (machine maxDepth).Reduces d p.ruleId p.rule frames' (g' :: below') (.ok reply') ∧
      reply'.control = reply.control ∧ reply'.state = w.ledgerOf reply.state ∧
      (p ∉ Production.spine → reply'.value = reply.value ∧
        Machine.spread ((machine maxDepth).gap d) frames' =
          (Machine.spread ((machine maxDepth).gap c) frames).down w.lines) := by
  obtain ⟨above, rest, hitems, habove, hrest⟩ := exists_append (hc.items ▸ h.frames)
  obtain ⟨g', below', hg, hbelow, rfl⟩ := List.forall₂_cons_left_iff.1 hrest
  have hframes : List.Forall₂ w.Matches frames above.reverse := by
    simpa using List.rel_reverse habove
  obtain ⟨reply', hreply, hcontrol, hstate, hmade⟩ := h.answers hframes hentered hc.reply
  exact ⟨above.reverse, g', below', reply', hframes, hg, hbelow,
    ⟨rule_ruleId p, by rw [List.reverse_reverse, hitems],
      by rw [← hframes.length_eq, hc.length], hreply⟩, hcontrol, hstate, hmade⟩

/-- A goto is taken alike. -/
theorem goto {v v' : Value} {span span' : Span} {n : Nat} (h : w.Replays e e')
    (hl : Linked (g :: below)) (h0 : Begun g.state p 0) (hp : p ≠ .program)
    (hframes : List.Forall₂ w.Matches frames frames') (hg : w.Matches g g')
    (hbelow : List.Forall₂ w.Matches below below') (hn : frames.length = n)
    (hpopped : e.stack.items = frames.reverse ++ g :: below)
    (hpopped' : e'.stack.items = frames'.reverse ++ g' :: below')
    (hmade : p ∉ Production.spine → v' = v ∧ span' = span.down w.lines) :
    Agrees w.Replays w.Closes ((machine maxDepth).goto e n p.rule.lhs v span)
      ((machine maxDepth).goto e' n p.rule.lhs v' span') := by
  subst hn
  obtain ⟨target, htarget⟩ := h0.goto hp
  have hstate : (machine maxDepth).tables.state g.state = .ok (stateAt g.state) :=
    hl.state_eq List.mem_cons_self
  have hstate' : (machine maxDepth).tables.state g'.state = .ok (stateAt g.state) :=
    hg.state ▸ hstate
  have hdepth : below.length = below'.length := hbelow.length_eq
  have hcount : frames.length = frames'.length := hframes.length_eq
  have hdrop := hcount ▸ (Machine.discard_frames hpopped).1
  by_cases hroom : below.length + 1 < (machine maxDepth).maxDepth
  · rw [Machine.goto_of_lt hpopped hstate hroom, hcount,
      Machine.goto_of_lt hpopped' hstate' (hdepth ▸ hroom)]
    refine .ok (((h.emit _ _).restack ?_).emit _ _)
    simp only [FrameStack.items_push, hdrop, (Machine.discard_frames hpopped').1, htarget,
      Option.getD_some]
    exact .cons (made hl.mem_stateIds htarget hp hmade) (.cons hg hbelow)
  · rw [Machine.goto_of_le hpopped hstate (by omega), hcount,
      Machine.goto_of_le hpopped' hstate' (by omega)]
    exact .error ⟨.inl rfl, ⟨_, _, h.heard⟩, h.actions⟩

/-- A reduction is done alike. -/
theorem reduce {f f' : Frame Value Span} {s : State} {r : RuleId} (h : w.Replays c d)
    (hread : w.Reads maxDepth c)
    (htimely : c.mode = .normal → ((machine maxDepth).fetched c).scanner.Timely)
    (hfit : Fitting (supply maxDepth) c) (hc : (machine maxDepth).Decides c f s (.reduce r))
    (hd : (machine maxDepth).Decides d f' s (.reduce r)) :
    Agrees w.Replays w.Closes ((machine maxDepth).step c) ((machine maxDepth).step d) := by
  obtain ⟨p, above, g, below, rfl, -, hitems, hentered, hlength, h0, hlink⟩ :=
    Decides.pops rfl hfit.linked hc
  have hreduces : (machine maxDepth).Reduces c p.ruleId p.rule above.reverse (g :: below) _ :=
    ⟨rule_ruleId p, by rw [List.reverse_reverse, hitems], by rw [List.length_reverse, hlength], rfl⟩
  obtain ⟨reply, hreply, -⟩ := hfit.answer rfl rfl hc hreduces
  rw [hreply] at hreduces
  obtain ⟨frames', g', below', reply', hframes, hg, hbelow, hreduces', hcontrol, hstate, hmade⟩ :=
    h.reduces hentered hreduces
  obtain ⟨e, he, hstep⟩ := Machine.step_of_answer hc hreduces
  obtain ⟨e', he', hstep'⟩ := Machine.step_of_answer hd hreduces'
  have hacted : w.Replays e e' := acted (h.poised hread hframes) he he' hstate
  rw [hstep, hstep']
  unfold Machine.follow
  rw [hcontrol]
  cases hcase : reply.control with
  | accept => exact .error ⟨.inr ⟨_, _, rfl, rfl⟩, ⟨_, _, hacted.heard⟩, hacted.actions⟩
  | abort => exact .error (.of_replays hacted _)
  | raise =>
    refine hacted.recover [] (fun hw => ?_) fun hmode => ?_
    · rw [he.ahead_eq]
      exact hread hw
    · rw [he.scanner_fetched]
      exact htimely (he.mode ▸ hmode)
  | proceed =>
    dsimp only
    split
    · exact .error ⟨.inr ⟨_, _, rfl, rfl⟩, ⟨_, _, hacted.heard⟩, hacted.actions⟩
    · rename_i hother
      exact hacted.goto hlink h0 (fun h => hother (by rw [h]; rfl)) hframes hg hbelow
        hreduces.length (by rw [he.stack, hreduces.items]) (by rw [he'.stack, hreduces'.items])
        hmade

end Reduce

/-- A step is taken alike. -/
theorem step (h : w.Replays c d) (hread : w.Reads maxDepth c)
    (htimely : c.mode = .normal → ((machine maxDepth).fetched c).scanner.Timely)
    (hfit : Fitting (supply maxDepth) c) :
    Agrees w.Replays w.Closes ((machine maxDepth).step c) ((machine maxDepth).step d) := by
  cases hphase : c.phase with
  | skipping force =>
    rw [Machine.step, Machine.step, h.phase, hphase]
    exact h.skip hread hfit.linked force
  | deciding =>
    obtain ⟨f, below, hc⟩ := List.exists_cons_of_ne_nil hfit.linked.ne_nil
    obtain ⟨g, below', hfg, -, hd⟩ := List.forall₂_cons_left_iff.1 (hc ▸ h.frames)
    have hstate : (machine maxDepth).tables.state f.state = .ok (stateAt f.state) :=
      hfit.linked.state_eq (hc ▸ List.mem_cons_self)
    have decides : (machine maxDepth).Decides c f (stateAt f.state)
        (Action.decode ((stateAt f.state).lookup ((machine maxDepth).ahead c))) :=
      ⟨hphase, by rw [hc, List.head?_cons], hstate, rfl⟩
    have decides' : (machine maxDepth).Decides d g (stateAt f.state)
        (Action.decode ((stateAt f.state).lookup ((machine maxDepth).ahead c))) :=
      ⟨h.phase.trans hphase, by rw [hd, List.head?_cons], hfg.state ▸ hstate,
        by rw [(h.fetched hread).1]⟩
    generalize Action.decode ((stateAt f.state).lookup ((machine maxDepth).ahead c)) = action
      at decides decides'
    cases action with
    | shift target =>
      rw [Machine.step_of_decides decides, Machine.step_of_decides decides']
      exact h.shift hread target
    | reduce r => exact h.reduce hread htimely hfit decides decides'
    | error =>
      rw [Machine.step_of_decides decides, Machine.step_of_decides decides']
      exact h.recover _ hread htimely

end Setting.Replays

end ShiftReduce.Calculator
