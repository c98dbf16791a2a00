import ShiftReduce.Proofs.Calculator.Segments

namespace ShiftReduce.Calculator

def afterStmt : StateId := ⟨2⟩

def afterSkip : StateId := ⟨13⟩

theorem entered_afterStmt : entered afterStmt = some (.nonterminal Phrase.stmt.nonterminal) := rfl

theorem entered_afterSkip : entered afterSkip = some (.terminal Token.semicolon.terminal) := rfl

theorem expression_checked : ∀ p ∈ Production.all, .nonterminal p.rule.lhs ∈ expressions →
    p.rule.rhs ≠ [] ∧ ∀ X ∈ p.rule.rhs, X ∉ outside := by
  decide +kernel

/-- The start state goes on with statements only. -/
theorem start_checked : (∀ e ∈ (stateAt .start).edges,
    e.1 = .nonterminal Phrase.stmts.nonterminal) ∧ (stateAt .start).hasLookahead = false ∧
      Action.decode (stateAt .start).fallback = .reduce Production.noStmts.ruleId :=
  ⟨by decide, rfl, rfl⟩

/-- Behind a statement it is added to those before. -/
theorem afterStmt_checked : (stateAt afterStmt).edges = [] ∧
    (stateAt afterStmt).hasLookahead = false ∧
      Action.decode (stateAt afterStmt).fallback = .reduce Production.moreStmts.ruleId :=
  ⟨rfl, rfl, rfl⟩

/-- Behind a semicolon its statement is at its end. -/
theorem semicolon_checked : ∀ s ∈ stateIds,
    entered s = some (.terminal Token.semicolon.terminal) → (stateAt s).edges = [] ∧
      (stateAt s).hasLookahead = false ∧ ∃ p ∈ closing,
        Action.decode (stateAt s).fallback = .reduce p.ruleId := by
  decide +kernel

theorem afterError_edges :
    (stateAt afterError).edges = [(.terminal Token.semicolon.terminal, afterSkip)] := rfl

/-- Only where a statement begins is the error terminal shifted. -/
theorem error_caught : ∀ s ∈ stateIds, ∀ e ∈ (stateAt s).edges,
    e.1 = .terminal Token.error.terminal → s = afterStmts := by
  decide +kernel

/-- Between two statements the end of the input ends the program. -/
theorem end_accepted : Action.decode ((stateAt afterStmts).lookup Token.endOfInput.terminal) =
    .reduce Production.program.ruleId := rfl

theorem error_shifted :
    (stateAt afterStmts).shiftTarget? Token.error.terminal = some afterError := rfl

theorem stmt_goto : (stateAt afterStmts).gotoFor Phrase.stmt.nonterminal = some afterStmt := rfl

/-- A statement begins behind other statements. -/
theorem stmt_begun : ∀ s ∈ stateIds, ((stateAt s).gotoFor Phrase.stmt.nonterminal).isSome →
    s = afterStmts := by
  decide +kernel

/-- Nothing is read behind a semicolon before its statement is ended. -/
theorem Linked.entered_ne_semicolon {e : Frame Value Span} {rest : List (Frame Value Span)}
    (h : Linked (e :: rest)) :
    ∀ f ∈ rest, entered f.state ≠ some (.terminal Token.semicolon.terminal) := by
  generalize hitems : e :: rest = items at h
  induction h generalizing e rest with
  | start state =>
    obtain ⟨-, rfl⟩ := List.cons.inj hitems
    simp
  | push edge below ih =>
    obtain ⟨-, rfl⟩ := List.cons.inj hitems
    intro f hf hsemi
    rcases List.mem_cons.1 hf with rfl | hf
    · rw [(semicolon_checked _ below.mem_stateIds hsemi).1] at edge
      simp at edge
    · exact ih rfl f hf hsemi

/-- A stack in the middle of a statement: above the statements before there are frames that were
read from the tokens of the present one. -/
structure Reading (items : List (Frame Value Span)) (cur : Lexemes) (parts : List Piece)
    (f g : Frame Value Span) : Prop where
  items_eq : items = (parts.map Piece.frame).reverse ++ [f, g]
  tokens : cur = parts.flatMap Piece.tokens
  sound : ∀ q ∈ parts, q.Sound
  stmts : f.state = afterStmts

namespace Reading

variable {items below : List (Frame Value Span)} {cur : Lexemes} {parts : List Piece}
  {f g h : Frame Value Span}

theorem push (hr : Reading items cur parts f g) {q : Piece} (hq : q.Sound) :
    Reading (q.frame :: items) (cur ++ q.tokens) (parts ++ [q]) f g := by
  refine ⟨?_, ?_, ?_, hr.stmts⟩
  · simp [hr.items_eq]
  · simp [hr.tokens]
  · intro q' hq'
    rcases List.mem_append.1 hq' with hq' | hq'
    · exact hr.sound q' hq'
    · rwa [List.mem_singleton.1 hq']

/-- Nothing has been read of the statement where its frames end. -/
theorem eq_nil (hr : Reading (h :: below) cur parts f g) (hh : h.state = afterStmts) :
    parts = [] ∧ h = f ∧ below = [g] := by
  have hitems := hr.items_eq
  rcases List.eq_nil_or_concat parts with rfl | ⟨init, q, rfl⟩
  · simpa using hitems
  · simp only [List.concat_eq_append, List.map_append, List.map_singleton, List.reverse_append,
      List.reverse_singleton, List.cons_append, List.cons.injEq] at hitems
    exact absurd (hitems.1 ▸ hh) (hr.sound q (by simp)).state_ne.2

/-- The frames on top, none of which ends the statement, with what they were read from. -/
theorem split (hr : Reading items cur parts f g) {frames : List (Frame Value Span)}
    (hitems : items = frames.reverse ++ h :: below)
    (hframes : ∀ e ∈ frames, e.state ≠ afterStmts) :
    ∃ qs rs, parts = qs ++ rs ∧ rs.map Piece.frame = frames ∧
      Reading (h :: below) (qs.flatMap Piece.tokens) qs f g := by
  have hsplit := hitems.symm.trans hr.items_eq
  rcases List.append_eq_append_iff.1 hsplit with ⟨rest, hparts, hbelow⟩ | ⟨rest, hframes', hfg⟩
  · have hmap := congrArg List.reverse hparts
    rw [List.reverse_reverse, List.reverse_append, List.reverse_reverse] at hmap
    obtain ⟨qs, rs, rfl, hqs, hrs⟩ := List.map_eq_append_iff.1 hmap
    refine ⟨qs, rs, rfl, hrs, ?_, rfl, fun q hq => hr.sound q (List.mem_append_left _ hq),
      hr.stmts⟩
    rw [hbelow, hqs, List.reverse_reverse]
  · -- The frame behind the statements before is not one of those on top.
    cases rest with
    | nil =>
      have hmap := congrArg List.reverse hframes'
      rw [List.append_nil, List.reverse_reverse, List.reverse_reverse] at hmap
      exact ⟨[], parts, rfl, hmap.symm, by simpa using hfg.symm, rfl, by simp, hr.stmts⟩
    | cons e rest =>
      obtain ⟨rfl, -⟩ := List.cons.inj hfg
      refine absurd hr.stmts (hframes f ?_)
      rw [← List.mem_reverse, hframes']
      simp

theorem head (hr : Reading items cur parts f g) (hh : items.head? = some h) :
    parts = [] ∧ h = f ∨ ∃ init q, parts = init ++ [q] ∧ h = q.frame := by
  rw [hr.items_eq] at hh
  rcases List.eq_nil_or_concat parts with rfl | ⟨init, q, rfl⟩
  · exact Or.inl ⟨rfl, by simpa using hh.symm⟩
  · exact Or.inr ⟨init, q, List.concat_eq_append, by simpa using hh.symm⟩

theorem head_ne (hr : Reading items cur parts f g) (hh : items.head? = some h) :
    h.state ≠ afterError := by
  rcases hr.head hh with ⟨-, rfl⟩ | ⟨init, q, rfl, rfl⟩
  · rw [hr.stmts]
    decide
  · exact (hr.sound q (by simp)).state_ne.1

/-- Without a semicolon on top of the stack none has been read. -/
theorem plain (hr : Reading items cur parts f g) (hl : Linked items)
    (hh : items.head? = some h)
    (hne : entered h.state ≠ some (.terminal Token.semicolon.terminal)) :
    ∀ l ∈ cur, isSemicolon l = false := by
  obtain ⟨rest, rfl⟩ := List.head?_eq_some_iff.1 hh
  intro l hmem
  rw [hr.tokens] at hmem
  obtain ⟨q, hq, hlq⟩ := List.mem_flatMap.1 hmem
  have hitem : q.frame ∈ h :: rest := by
    rw [hr.items_eq]
    exact List.mem_append_left _ (List.mem_reverse.2 (List.mem_map_of_mem hq))
  refine (hr.sound q hq).plain ?_ l hlq
  rcases List.mem_cons.1 hitem with heq | hrest
  · rwa [heq]
  · exact hl.entered_ne_semicolon _ hrest

theorem eq_nil_of_tokens (hr : Reading items [] parts f g) : parts = [] := by
  refine List.eq_nil_iff_forall_not_mem.2 fun q hq => (hr.sound q hq).covers.ne_nil ?_
  exact List.flatMap_eq_nil_iff.1 hr.tokens.symm q hq

theorem length_le (hr : Reading items cur parts f g) : items.length ≤ cur.length + 2 := by
  have pieces (qs : List Piece) (hqs : ∀ q ∈ qs, q.Sound) :
      qs.length ≤ (qs.flatMap Piece.tokens).length := by
    induction qs with
    | nil => simp
    | cons q qs ih =>
      have hq := List.length_pos_iff.2 (hqs q List.mem_cons_self).covers.ne_nil
      have hrest := ih fun q' hq' => hqs q' (List.mem_cons_of_mem q hq')
      rw [List.length_cons, List.flatMap_cons, List.length_append]
      omega
  have hparts := pieces parts hr.sound
  rw [hr.items_eq, hr.tokens]
  simpa using hparts

section Errors

variable {maxDepth : Nat} {d : Config Lexer Ledger Value Span} {expected : List Terminal}
  {x : Except (Halt Lexer Ledger Value Span ActionFault) (Config Lexer Ledger Value Span)}

/-- An error takes away what has been read of a statement, and nothing else. -/
theorem recovers (hr : Reading d.stack.items cur parts f g) (hl : Linked d.stack.items)
    (h : (machine maxDepth).Recovers d expected x) :
    (∃ c', x = .ok c' ∧ (machine maxDepth).Recovered d expected [f, g] afterError c') ∨
      ∃ h, x = .error h ∧ maxDepth ≤ d.stack.items.length ∧
        h.verdict = .failed (.stackOverflow maxDepth) ∧ h.config.actions = d.actions := by
  have notPasses {e : Frame Value Span} (hpass : (machine maxDepth).Passes e) :
      e.state ≠ afterStmts := by
    obtain ⟨s, hs, hnone⟩ := hpass
    intro he
    have hmem : afterStmts ∈ stateIds := by decide
    have hrow : (machine maxDepth).tables.state e.state = .ok (stateAt afterStmts) := by
      rw [he]
      exact state_eq hmem
    obtain rfl := Except.ok.inj (hs.symm.trans hrow)
    exact absurd (hnone.symm.trans error_shifted) (by simp)
  have hstmts : f ∈ d.stack.items := by simp [hr.items_eq]
  cases h with
  | @recovered above below e s target c' items passed state catches room result =>
    have hlink := (items ▸ hl).of_append
    obtain rfl := Except.ok.inj (state.symm.trans (hlink.state_eq List.mem_cons_self))
    have he := error_caught _ hlink.mem_stateIds _ (State.edges_of_shiftTarget? catches) rfl
    have habove : d.stack.items = above.reverse.reverse ++ e :: below := by
      rwa [List.reverse_reverse]
    obtain ⟨qs, rs, -, -, hrest⟩ :=
      hr.split habove fun e he => notPasses (passed e (List.mem_reverse.1 he))
    obtain ⟨-, rfl, rfl⟩ := hrest.eq_nil he
    rw [he] at catches
    obtain rfl := Option.some.inj (catches.symm.trans error_shifted)
    exact Or.inl ⟨c', rfl, result⟩
  | cornered passed => exact absurd hr.stmts (notPasses (passed f hstmts))
  | overflow items full verdict actions =>
    refine Or.inr ⟨_, rfl, Nat.le_trans full ?_, verdict, actions⟩
    rw [items, List.length_append, List.length_cons]
    omega
  | lost mem state =>
    exact absurd (state.symm.trans (hl.state_eq mem)) (by simp)

end Errors

end Reading

/-- A statement that is skipped for an error: the token at which it was met, the tokens read since
the statement began and what a semantic action has said of it. -/
structure Spoiled (cur : Lexemes) (error : Option Error) (e f : Frame Value Span) : Prop where
  caught : e.state = afterError
  stmts : f.state = afterStmts
  plain : ∀ l ∈ cur, isSemicolon l = false
  located : ∀ err ∈ error, Located cur err

/-- How far a parse is with the present statement, by the stack and by the tokens that were read
since the last semicolon. A statement that has failed holds the error of its semantic action, if
that is what it has failed for. -/
inductive Stage (input : Lexemes) : List (Frame Value Span) → Lexemes → Option (Option Error) → Prop
  | opening {g : Frame Value Span} (bottom : g.state = .start) : Stage input [g] [] none
  | reading {items : List (Frame Value Span)} {cur : Lexemes} {parts : List Piece}
      {f g : Frame Value Span} (reading : Reading items cur parts f g) : Stage input items cur none
  | closed {s f g : Frame Value Span} (stmt : s.state = afterStmt) (stmts : f.state = afterStmts) :
      Stage input [s, f, g] [] none
  | caught {e f g : Frame Value Span} {cur : Lexemes} {error : Option Error}
      (spoiled : Spoiled cur error e f)
      (place : input = [] ∧ cur ≠ [] ∨ ∃ l ∈ cur ++ input.take 1, e.span = l.span) :
      Stage input [e, f, g] cur (some error)
  | resolved {s e f g : Frame Value Span} {cur : Lexemes} {l : Lexeme Value Span}
      {error : Option Error} (spoiled : Spoiled cur error e f) (skip : s.state = afterSkip)
      (semicolon : isSemicolon l = true) (span : s.span = l.span)
      (place : ∃ l' ∈ cur ++ [l], e.span = l'.span) :
      Stage input [s, e, f, g] (cur ++ [l]) (some error)

namespace Stage

variable {input rest cur : Lexemes} {items : List (Frame Value Span)}
  {failure : Option (Option Error)} {l : Lexeme Value Span} {top : Frame Value Span}

/-- The next token comes on top of the stack. -/
theorem shift {target : StateId} (h : Stage (l :: rest) items cur failure) (hl : Linked items)
    (htop : items.head? = some top)
    (hedge : (.terminal l.terminal, target) ∈ (stateAt top.state).edges)
    (hproper : l.terminal ≠ Token.error.terminal) :
    Stage rest (⟨target, l.value, l.span⟩ :: items) (cur ++ [l]) failure := by
  have hmem := hl.mem_stateIds_of_mem (List.mem_of_head? htop)
  cases h with
  | opening bottom =>
    obtain rfl := Option.some.inj htop
    rw [bottom] at hedge
    exact absurd (start_checked.1 _ hedge) (by simp)
  | reading reading =>
    have hq : Piece.Sound ⟨⟨target, l.value, l.span⟩, [l]⟩ :=
      ⟨⟨_, (edges_checked _ hmem _ hedge).2.2.1, .token l hproper⟩, ⟨l, rfl, rfl⟩, ⟨l, rfl, rfl⟩⟩
    exact .reading (reading.push hq)
  | closed stmt stmts =>
    obtain rfl := Option.some.inj htop
    rw [stmt, afterStmt_checked.1] at hedge
    simp at hedge
  | caught spoiled place =>
    obtain rfl := Option.some.inj htop
    rw [spoiled.caught, afterError_edges, List.mem_singleton, Prod.mk.injEq] at hedge
    obtain ⟨hsemi, rfl⟩ := hedge
    refine .resolved spoiled rfl (by simpa [isSemicolon] using hsemi) rfl ?_
    rcases place with ⟨hnil, -⟩ | hplace
    · simp at hnil
    · simpa using hplace
  | resolved spoiled skip =>
    obtain rfl := Option.some.inj htop
    rw [(semicolon_checked _ hmem (skip ▸ entered_afterSkip)).1] at hedge
    simp at hedge

/-- Where the error terminal was shifted a statement is skipped. -/
theorem exists_spoiled (h : Stage input items cur failure) (htop : items.head? = some top)
    (hcaught : top.state = afterError) : ∃ error f g, failure = some error ∧
      items = [top, f, g] ∧ Spoiled cur error top f ∧
        (input = [] ∧ cur ≠ [] ∨ ∃ l ∈ cur ++ input.take 1, top.span = l.span) := by
  cases h with
  | opening bottom =>
    obtain rfl := Option.some.inj htop
    exact absurd (bottom.symm.trans hcaught) (by decide)
  | reading reading => exact absurd hcaught (reading.head_ne htop)
  | closed stmt stmts =>
    obtain rfl := Option.some.inj htop
    exact absurd (stmt.symm.trans hcaught) (by decide)
  | caught spoiled place =>
    obtain rfl := Option.some.inj htop
    exact ⟨_, _, _, rfl, rfl, spoiled, place⟩
  | resolved spoiled skip =>
    obtain rfl := Option.some.inj htop
    exact absurd (skip.symm.trans hcaught) (by decide)

/-- The next token is left out. -/
theorem discard (h : Stage (l :: rest) items cur failure) (htop : items.head? = some top)
    (hcaught : top.state = afterError) (hplain : isSemicolon l = false) :
    Stage rest items (cur ++ [l]) failure := by
  obtain ⟨error, f, g, rfl, rfl, spoiled, place⟩ := h.exists_spoiled htop hcaught
  refine .caught ⟨hcaught, spoiled.stmts, ?_, fun err herr =>
    (spoiled.located err herr).append [l]⟩ ?_
  · intro l' hl'
    rcases List.mem_append.1 hl' with hl' | hl'
    · exact spoiled.plain l' hl'
    · rwa [List.mem_singleton.1 hl']
  · rcases place with ⟨hnil, -⟩ | ⟨l', hl', hspan⟩
    · simp at hnil
    · exact Or.inr ⟨l', List.mem_append_left _ (by simpa using hl'), hspan⟩

/-- An expression is read in the middle of a statement only. -/
theorem exists_reading {X : Symbol} (h : Stage input items cur failure)
    (htop : items.head? = some top) (hX : entered top.state = some X) (hinner : X ∉ outside) :
    failure = none ∧ ∃ parts f g, Reading items cur parts f g := by
  cases h with
  | opening bottom =>
    obtain rfl := Option.some.inj htop
    rw [bottom, entered_start] at hX
    simp at hX
  | reading reading => exact ⟨rfl, _, _, _, reading⟩
  | closed stmt stmts =>
    obtain rfl := Option.some.inj htop
    rw [stmt, entered_afterStmt] at hX
    exact absurd (Option.some.inj hX ▸ hinner) (by decide)
  | caught spoiled place =>
    obtain rfl := Option.some.inj htop
    rw [spoiled.caught, entered_afterError] at hX
    exact absurd (Option.some.inj hX ▸ hinner) (by decide)
  | resolved spoiled skip =>
    obtain rfl := Option.some.inj htop
    rw [skip, entered_afterSkip] at hX
    exact absurd (Option.some.inj hX ▸ hinner) (by decide)

/-- Wherever else a state is without an action, a statement is being read. -/
theorem of_stuck {t : Terminal} (h : Stage input items cur failure) (hl : Linked items)
    (htop : items.head? = some top) (hne : top.state ≠ afterError)
    (hstuck : Action.decode ((stateAt top.state).lookup t) = .error) : failure = none ∧
      (∀ l ∈ cur, isSemicolon l = false) ∧ (t = Token.endOfInput.terminal → cur ≠ []) ∧
        ∃ parts f g, Reading items cur parts f g := by
  have falls {r : RuleId} (hlooks : (stateAt top.state).hasLookahead = false)
      (hfallback : Action.decode (stateAt top.state).fallback = .reduce r) : False := by
    rw [State.lookup_of_not_hasLookahead hlooks, hfallback] at hstuck
    simp at hstuck
  have hopen : entered top.state ≠ some (.terminal Token.semicolon.terminal) := by
    intro hsemi
    obtain ⟨-, hlooks, p, -, hfallback⟩ :=
      semicolon_checked _ (hl.mem_stateIds_of_mem (List.mem_of_head? htop)) hsemi
    exact falls hlooks hfallback
  -- The states of the other stages reduce without looking, so they are never stuck, but for the one
  -- behind an error, which is excluded.
  cases h with
  | opening bottom =>
    obtain rfl := Option.some.inj htop
    rw [bottom] at falls
    exact absurd (falls start_checked.2.1 start_checked.2.2) id
  | @reading _ _ parts f g reading =>
    refine ⟨rfl, reading.plain hl htop hopen, ?_, parts, f, g, reading⟩
    rintro rfl rfl
    obtain rfl := reading.eq_nil_of_tokens
    rcases reading.head htop with ⟨-, rfl⟩ | ⟨init, q, hparts, -⟩
    · rw [reading.stmts, end_accepted] at hstuck
      simp at hstuck
    · simp at hparts
  | closed stmt stmts =>
    obtain rfl := Option.some.inj htop
    rw [stmt] at falls
    exact absurd (falls afterStmt_checked.2.1 afterStmt_checked.2.2) id
  | caught spoiled =>
    obtain rfl := Option.some.inj htop
    exact absurd spoiled.caught hne
  | resolved spoiled skip =>
    obtain rfl := Option.some.inj htop
    exact absurd (skip ▸ entered_afterSkip) hopen

/-- Where only statements are on the stack nothing has been read of another one. -/
theorem of_statements {f g : Frame Value Span} (h : Stage input items cur failure)
    (hitems : items = [f, g]) (hf : f.state = afterStmts) : cur = [] ∧ failure = none := by
  cases h with
  | opening bottom => simp at hitems
  | reading reading =>
    rw [hitems] at reading
    have htokens := reading.tokens
    rw [(reading.eq_nil hf).1] at htokens
    exact ⟨htokens, rfl⟩
  | _ => simp at hitems

/-- While a statement is skipped no semicolon has been read of it. -/
theorem of_caught (h : Stage input items cur failure) (htop : items.head? = some top)
    (hcaught : top.state = afterError) :
    (∀ l ∈ cur, isSemicolon l = false) ∧ (input = [] → cur ≠ []) := by
  obtain ⟨error, f, g, rfl, rfl, spoiled, place⟩ := h.exists_spoiled htop hcaught
  refine ⟨spoiled.plain, ?_⟩
  rintro rfl rfl
  simp at place

section Reduce

variable {p : Production} {frames below : List (Frame Value Span)} {g : Frame Value Span}

structure Phrasing (items : List (Frame Value Span)) (cur : Lexemes)
    (frames : List (Frame Value Span)) (g : Frame Value Span) (below : List (Frame Value Span))
    (qs rs : List Piece) (f₀ g₀ : Frame Value Span) : Prop where
  reading : Reading items cur (qs ++ rs) f₀ g₀
  frames_eq : rs.map Piece.frame = frames
  ne_nil : rs ≠ []
  rest : Reading (g :: below) (qs.flatMap Piece.tokens) qs f₀ g₀
  plain : ∀ l ∈ cur, isSemicolon l = false
  inner : ∀ l ∈ rs.flatMap Piece.tokens,
    l.terminal ≠ Token.semicolon.terminal ∧ l.terminal ≠ Token.equals.terminal

theorem exists_phrasing (h : Stage input items cur failure) (hl : Linked items)
    (hp : .nonterminal p.rule.lhs ∈ expressions) (hitems : items = frames.reverse ++ g :: below)
    (hentered : frames.map (fun e => entered e.state) = p.rule.rhs.map some) :
    failure = none ∧ ∃ qs rs f₀ g₀, Phrasing items cur frames g below qs rs f₀ g₀ := by
  obtain ⟨hne, hinner⟩ := expression_checked p (Production.mem_all p) hp
  have symbols : ∀ e ∈ frames, ∃ X, entered e.state = some X ∧ X ∉ outside := by
    intro e he
    have hmem : entered e.state ∈ p.rule.rhs.map some := by
      rw [← hentered]
      exact List.mem_map_of_mem he
    obtain ⟨X, hX, heq⟩ := List.mem_map.1 hmem
    exact ⟨X, heq.symm, hinner X hX⟩
  have hframes : frames ≠ [] := by
    rintro rfl
    exact hne (List.map_eq_nil_iff.1 hentered.symm)
  obtain ⟨init, top, rfl⟩ : ∃ init top, frames = init ++ [top] := by
    simpa using (List.eq_nil_or_concat frames).resolve_left hframes
  obtain ⟨X, hX, hout⟩ := symbols top (by simp)
  have htop : items.head? = some top := by simp [hitems]
  -- The symbol on top belongs to an expression, so a statement is being read, and the frames of the
  -- production are the last parts of it.
  obtain ⟨rfl, parts, f₀, g₀, hreading⟩ := h.exists_reading htop hX hout
  have hplain := hreading.plain hl htop fun hs => by
    rw [hX] at hs
    exact absurd (Option.some.inj hs ▸ hout) (by decide)
  obtain ⟨qs, rs, rfl, hrs, hrest⟩ := hreading.split hitems fun e he hs => by
    obtain ⟨Y, hY, hout⟩ := symbols e he
    rw [hs, entered_afterStmts] at hY
    exact absurd (Option.some.inj hY ▸ hout) (by decide)
  refine ⟨rfl, qs, rs, f₀, g₀, hreading, hrs, ?_, hrest, hplain, ?_⟩
  · rintro rfl
    simp at hrs
  · intro l hl
    obtain ⟨q, hq, hlq⟩ := List.mem_flatMap.1 hl
    obtain ⟨Y, hY, hout⟩ := symbols q.frame (hrs ▸ List.mem_map_of_mem hq)
    exact ((hreading.sound q (List.mem_append_right _ hq)).reads_of hY).inner hout l hlq

namespace Phrasing

variable {qs rs : List Piece} {f₀ g₀ : Frame Value Span}

/-- The frames of the right-hand side give way to one for the expression. -/
theorem reduce (h : Phrasing items cur frames g below qs rs f₀ g₀)
    (hp : .nonterminal p.rule.lhs ∈ expressions) {target : StateId}
    (htarget : entered target = some (.nonterminal p.rule.lhs)) (v : Value) (gap : Span) :
    Stage input (⟨target, v, Machine.spread gap frames⟩ :: g :: below) cur none := by
  have hsound : ∀ q ∈ rs, q.Sound := fun q hq => h.reading.sound q (List.mem_append_right _ hq)
  have hpiece : Piece.Sound ⟨⟨target, v, Machine.spread gap frames⟩, rs.flatMap Piece.tokens⟩ :=
    ⟨⟨_, htarget, .phrase v hp h.inner⟩, h.frames_eq ▸ Covers.spread h.ne_nil hsound gap⟩
  rw [h.reading.tokens, List.flatMap_append]
  exact .reading (h.rest.push hpiece)

/-- An error in the expression is among the tokens of the statement. -/
theorem located (h : Phrasing items cur frames g below qs rs f₀ g₀) {gap : Span} {e : Error}
    (he : e.span? = some (Machine.spread gap frames)) : Located cur e := by
  have hsound : ∀ q ∈ rs, q.Sound := fun q hq => h.reading.sound q (List.mem_append_right _ hq)
  refine ⟨rs.flatMap Piece.tokens, _, he, ?_, h.frames_eq ▸ Covers.spread h.ne_nil hsound gap⟩
  rw [h.reading.tokens, List.flatMap_append]
  exact (List.suffix_append _ _).isInfix

theorem cur_ne_nil (h : Phrasing items cur frames g below qs rs f₀ g₀) : cur ≠ [] := by
  obtain ⟨q, rest, rfl⟩ := List.exists_cons_of_ne_nil h.ne_nil
  have hq := (h.reading.sound q (by simp)).covers.ne_nil
  rw [h.reading.tokens]
  simp [hq]

end Phrasing

/-- Before the first statement nothing has been read. -/
theorem of_singleton (h : Stage input [g] cur failure) : cur = [] ∧ failure = none := by
  generalize hitems : [g] = items at h
  cases h with
  | opening bottom => exact ⟨rfl, rfl⟩
  | reading reading =>
    have hlength := congrArg List.length (hitems.trans reading.items_eq)
    simp at hlength
  | _ => simp at hitems

/-- Behind a statement nothing has been read. -/
theorem of_stmt (h : Stage input items cur failure) (htop : items.head? = some top)
    (hX : entered top.state = some (.nonterminal Phrase.stmt.nonterminal)) :
    cur = [] ∧ failure = none ∧ ∃ f g, items = [top, f, g] := by
  cases h with
  | opening bottom =>
    obtain rfl := Option.some.inj htop
    rw [bottom, entered_start] at hX
    simp at hX
  | reading reading =>
    rcases reading.head htop with ⟨-, rfl⟩ | ⟨init, q, rfl, rfl⟩
    · rw [reading.stmts, entered_afterStmts] at hX
      exact absurd hX (by decide)
    · exact absurd rfl ((reading.sound q (by simp)).reads_of hX).proper.2.1
  | closed stmt stmts =>
    obtain rfl := Option.some.inj htop
    exact ⟨rfl, rfl, _, _, rfl⟩
  | caught spoiled place =>
    obtain rfl := Option.some.inj htop
    rw [spoiled.caught, entered_afterError] at hX
    exact absurd hX (by decide)
  | resolved spoiled skip =>
    obtain rfl := Option.some.inj htop
    rw [skip, entered_afterSkip] at hX
    exact absurd hX (by decide)

/-- No phrase but a statement ends what is read of one. -/
theorem fold {target : StateId} (h : Stage input items cur failure) (hl : Linked items)
    (hf : Folds p target frames below g) (hitems : items = frames.reverse ++ g :: below)
    (hinner : p ∉ closing) (v : Value) (gap : Span) :
    failure = none ∧
      Stage input (⟨target, v, Machine.spread gap frames⟩ :: g :: below) cur none := by
  have hmem := (edges_checked _ hf.linked.mem_stateIds _ hf.edge).1
  have hmade := hf.entered_target
  have hentered := hf.spelled
  have opened {e f₀ : Frame Value Span}
      (he : entered e.state = some (.nonterminal Phrase.stmts.nonterminal))
      (hmem : e.state ∈ stateIds) : Stage input [e, f₀] [] none := by
    have hreading : Reading [e, f₀] [] [] e f₀ :=
      ⟨rfl, rfl, by simp, (stmts_entered _ hmem).1 he⟩
    exact .reading hreading
  by_cases hp : .nonterminal p.rule.lhs ∈ expressions
  · obtain ⟨rfl, qs, rs, f₀, g₀, hphrase⟩ := h.exists_phrasing hl hp hitems hentered
    exact ⟨rfl, hphrase.reduce hp hmade v gap⟩
  · obtain rfl | rfl : p = .noStmts ∨ p = .moreStmts := by
      have hother := hf.inner
      cases p <;> first | exact absurd (by decide) hinner | exact absurd (by decide) hp |
        simp_all
    · obtain rfl : frames = [] := List.map_eq_nil_iff.1 hentered
      obtain rfl := hf.eq_nil_of_empty
      obtain ⟨rfl, rfl⟩ := of_singleton (hitems ▸ h)
      exact ⟨rfl, opened hmade hmem⟩
    · obtain ⟨e, rest, rfl, -, hrest⟩ := List.map_eq_cons_iff.1 hentered
      obtain ⟨s, rest, rfl, hs, hrest⟩ := List.map_eq_cons_iff.1 hrest
      obtain rfl := List.map_eq_nil_iff.1 hrest
      have htop : items.head? = some s := by rw [hitems]; rfl
      obtain ⟨rfl, rfl, f₀, g₀, hitems'⟩ := h.of_stmt htop hs
      have hbelow := hitems.symm.trans hitems'
      simp only [List.reverse_cons, List.reverse_nil, List.nil_append, List.cons_append,
        List.cons.injEq, true_and] at hbelow
      obtain ⟨-, rfl, rfl⟩ := hbelow
      exact ⟨rfl, opened hmade hmem⟩

/-- At the end of a statement that has not failed the stack holds its tokens. -/
theorem of_closing (h : Stage input items cur failure)
    (hp : p = .exprStmt ∨ p = .assignment) (hitems : items = frames.reverse ++ g :: below)
    (hentered : frames.map (fun e => entered e.state) = p.rule.rhs.map some)
    (hg : g.state = afterStmts) : failure = none ∧ ∃ (parts : List Piece) (g₀ : Frame Value Span),
      parts.map Piece.frame = frames ∧ Reading items cur parts g g₀ ∧ below = [g₀] := by
  have notMem {e : Frame Value Span} {X : Symbol} (hX : entered e.state = some X)
      (hout : X ∉ p.rule.rhs) : e ∉ frames := by
    intro he
    have hmem : entered e.state ∈ p.rule.rhs.map some := by
      rw [← hentered]
      exact List.mem_map_of_mem he
    rw [hX] at hmem
    exact hout (by simpa using hmem)
  obtain ⟨hstmt, hstmts, herror, hlength⟩ : .nonterminal Phrase.stmt.nonterminal ∉ p.rule.rhs ∧
      .nonterminal Phrase.stmts.nonterminal ∉ p.rule.rhs ∧
      .terminal Token.error.terminal ∉ p.rule.rhs ∧ 2 ≤ p.rule.rhs.length := by
    rcases hp with rfl | rfl <;> decide
  have hcount : 2 ≤ frames.reverse.length := by
    have hlen := congrArg List.length hentered
    rw [List.length_map, List.length_map] at hlen
    rwa [List.length_reverse, hlen]
  obtain ⟨t, u, more, hreverse⟩ : ∃ t u more, frames.reverse = t :: u :: more := by
    match frames.reverse, hcount with
    | t :: u :: more, _ => exact ⟨t, u, more, rfl⟩
  have ht : t ∈ frames := List.mem_reverse.1 (by simp [hreverse])
  have hu : u ∈ frames := List.mem_reverse.1 (by simp [hreverse])
  cases h with
  | opening bottom => simp [hreverse] at hitems
  | reading reading =>
    obtain ⟨qs, rs, rfl, hrs, hrest⟩ := reading.split hitems fun e he hs =>
      notMem (hs ▸ entered_afterStmts) hstmts he
    obtain ⟨rfl, rfl, rfl⟩ := hrest.eq_nil hg
    exact ⟨rfl, rs, _, hrs, reading, rfl⟩
  | closed stmt stmts =>
    simp only [hreverse, List.cons_append, List.cons.injEq] at hitems
    exact absurd ht (notMem (hitems.1 ▸ stmt ▸ entered_afterStmt) hstmt)
  | caught spoiled place =>
    simp only [hreverse, List.cons_append, List.cons.injEq] at hitems
    exact absurd ht (notMem (hitems.1 ▸ spoiled.caught ▸ entered_afterError) herror)
  | resolved spoiled skip =>
    simp only [hreverse, List.cons_append, List.cons.injEq] at hitems
    exact absurd hu (notMem (hitems.2.1 ▸ spoiled.caught ▸ entered_afterError) herror)

/-- At the end of a statement that has failed the stack holds the error and the semicolon. -/
theorem of_skip {e s : Frame Value Span} (h : Stage input (s :: e :: g :: below) cur failure)
    (he : entered e.state = some (.terminal Token.error.terminal))
    (hs : entered s.state = some (.terminal Token.semicolon.terminal)) :
    ∃ (error : Option Error) (words : Lexemes) (l : Lexeme Value Span) (g₀ : Frame Value Span),
      failure = some error ∧ cur = words ++ [l] ∧ below = [g₀] ∧ Spoiled words error e g ∧
        isSemicolon l = true ∧ s.span = l.span ∧ ∃ l' ∈ cur, e.span = l'.span := by
  generalize hitems : s :: e :: g :: below = items at h
  cases h with
  | opening bottom => simp at hitems
  | reading reading =>
    have hne {q : Frame Value Span} {X : Symbol} (hX : entered q.state = some X)
        (hout : X ≠ .nonterminal Phrase.stmts.nonterminal) : q.state ≠ afterStmts := by
      intro hq
      rw [hq, entered_afterStmts] at hX
      exact hout (Option.some.inj hX).symm
    have htop : items = [e, s].reverse ++ g :: below := hitems.symm
    obtain ⟨qs, rs, rfl, hrs, -⟩ := reading.split htop fun q hq => by
      rcases List.mem_pair.1 hq with rfl | rfl
      · exact hne he (by simp)
      · exact hne hs (by simp)
    obtain ⟨q, rest, rfl, rfl, -⟩ := List.map_eq_cons_iff.1 hrs
    exact absurd rfl ((reading.sound q (by simp)).reads_of he).proper.1
  | closed stmt stmts =>
    obtain ⟨rfl, -⟩ := List.cons.inj hitems
    rw [stmt, entered_afterStmt] at hs
    exact absurd hs (by decide)
  | caught spoiled place =>
    obtain ⟨rfl, -⟩ := List.cons.inj hitems
    rw [spoiled.caught, entered_afterError] at hs
    exact absurd hs (by decide)
  | resolved spoiled skip semicolon span place =>
    simp only [List.cons.injEq] at hitems
    obtain ⟨rfl, rfl, rfl, rfl⟩ := hitems
    exact ⟨_, _, _, _, rfl, rfl, rfl, spoiled, semicolon, span, place⟩

end Reduce

/-- The stack is hardly deeper than there are tokens of the present statement. -/
theorem length_le (h : Stage input items cur failure) : items.length ≤ cur.length + 3 := by
  cases h with
  | reading reading => exact Nat.le_trans reading.length_le (by omega)
  | _ => simp

end Stage

end ShiftReduce.Calculator
