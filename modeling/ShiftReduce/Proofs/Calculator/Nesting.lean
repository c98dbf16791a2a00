import ShiftReduce.Proofs.Calculator.Budget
import ShiftReduce.Proofs.Calculator.Outcomes
import ShiftReduce.Proofs.Machine.DepthLimit

namespace ShiftReduce.Calculator

/-- The symbols behind which an expression is nested. A minus between two terms is written like a
sign. -/
def nesting : List Symbol :=
  [.terminal Token.leftParen.terminal, .terminal Token.minus.terminal]

def opens (l : Lexeme Value Span) : Bool := .terminal l.terminal ∈ nesting

/-- No statement has more than `n` opening parentheses and minus signs. What comes behind the last
semicolon counts as a statement. -/
def Nested (n : Nat) (w : Lexemes) : Prop :=
  ∀ statement ∈ w.splitOnP isSemicolon, statement.countP opens ≤ n

instance (n : Nat) (w : Lexemes) : Decidable (Nested n w) :=
  inferInstanceAs (Decidable (∀ statement ∈ w.splitOnP isSemicolon, statement.countP opens ≤ n))

theorem opens_of_isSemicolon {l : Lexeme Value Span} (h : isSemicolon l = true) :
    opens l = false := by
  have hl : l.terminal = Token.semicolon.terminal := by simpa [isSemicolon] using h
  rw [opens, hl]
  decide

/-- Tokens without a semicolon are the first ones of a statement. -/
theorem exists_statement {words : Lexemes} (h : ∀ l ∈ words, isSemicolon l = false)
    (rest : Lexemes) : ∃ statement ∈ (words ++ rest).splitOnP isSemicolon, words <+: statement := by
  induction rest generalizing words with
  | nil => exact ⟨words, by simp [List.splitOnP_eq_singleton h], List.prefix_rfl⟩
  | cons l rest ih =>
    cases hl : isSemicolon l with
    | true =>
      refine ⟨words, ?_, List.prefix_rfl⟩
      rw [List.splitOnP_append_cons words rest hl, List.splitOnP_eq_singleton h]
      exact List.mem_append_left _ (List.mem_singleton_self words)
    | false =>
      have hmore : ∀ l' ∈ words ++ [l], isSemicolon l' = false := by
        intro l' hl'
        rcases List.mem_append.1 hl' with hl' | hl'
        · exact h l' hl'
        · rwa [List.mem_singleton.1 hl']
      obtain ⟨statement, hmem, hprefix⟩ := ih hmore
      rw [List.append_assoc, List.singleton_append] at hmem
      exact ⟨statement, hmem, (List.prefix_append words [l]).trans hprefix⟩

/-- What has been read of a statement behind others. -/
theorem Nested.countP_le {n : Nat} {before words rest : Lexemes}
    (h : Nested n (before ++ (words ++ rest))) (hbefore : before = [] ∨ EndsStatement before)
    (hwords : ∀ l ∈ words, isSemicolon l = false) : words.countP opens ≤ n := by
  obtain ⟨statement, hmem, hprefix⟩ := exists_statement hwords rest
  refine Nat.le_trans hprefix.sublist.countP_le (h statement ?_)
  rcases hbefore with rfl | ⟨l, hl, hsemi⟩
  · exact hmem
  · obtain ⟨init, rfl⟩ := List.getLast?_eq_some_iff.1 hl
    rw [List.append_assoc, List.singleton_append, List.splitOnP_append_cons init _ hsemi]
    exact List.mem_append_right _ hmem

/-- A bound on how many frames there are up to one in this state, but for five at each frame that
nests an expression. -/
def level (s : StateId) : Nat :=
  ([1, 2, 3, 3, 5, 9, 9, 3, 4, 4, 9, 5, 3, 4, 4, 6, 6, 7, 7, 8, 8, 9, 9, 4, 5, 6, 5, 6] :
    List Nat)[s.id.toNat]?.getD 0

/-- Along an edge the level goes up, but a symbol that nests an expression may take it back by
four. -/
theorem level_checked : ∀ s ∈ stateIds, ∀ e ∈ (stateAt s).edges,
    level s + 1 ≤ level e.2 + if e.1 ∈ nesting then 5 else 0 := by
  decide +kernel

theorem level_le : ∀ s ∈ stateIds, level s ≤ 9 := by decide +kernel

section Frames

variable {V S : Type} {f : Frame V S} {rest : List (Frame V S)}

def nests (f : Frame V S) : Bool := (entered f.state).any (· ∈ nesting)

theorem nests_of_entered {X : Symbol} (h : entered f.state = some X) :
    nests f = decide (X ∈ nesting) := by
  simp [nests, h]

theorem Linked.length_le (h : Linked (f :: rest)) :
    (f :: rest).length ≤ level f.state + 5 * (f :: rest).countP nests := by
  generalize hs : f :: rest = fs at h
  induction h generalizing f rest with
  | start state =>
    obtain ⟨rfl, -⟩ := List.cons.inj hs
    rw [state]
    exact Nat.le_add_right 1 _
  | @push _ g rest X edge below ih =>
    obtain ⟨rfl, -⟩ := List.cons.inj hs
    have hlevel : level g.state + 1 ≤ level f.state + if X ∈ nesting then 5 else 0 :=
      level_checked _ below.mem_stateIds _ edge
    have hbelow := ih rfl
    have hentered := (edges_checked _ below.mem_stateIds _ edge).2.2.1
    rw [List.length_cons, List.countP_cons, nests_of_entered hentered]
    by_cases hX : X ∈ nesting
    · rw [if_pos hX] at hlevel
      simp only [hX, decide_true, if_true]
      omega
    · rw [if_neg hX] at hlevel
      simp only [hX, decide_false]
      omega

end Frames

section Stack

variable {input cur : Lexemes} {items : List (Frame Value Span)} {parts : List Piece}
  {f g top : Frame Value Span} {failure : Option (Option Error)}

/-- A frame that nests an expression has been read from a token that does. -/
theorem Piece.Sound.nests_le {q : Piece} (h : q.Sound) :
    (if nests q.frame then 1 else 0) ≤ q.tokens.countP opens := by
  obtain ⟨X, hX, hreads⟩ := h.reads
  rw [nests_of_entered hX]
  by_cases hnests : X ∈ nesting
  · have terminals : ∀ X ∈ nesting, ∃ t, X = .terminal t := by simp [nesting]
    obtain ⟨t, rfl⟩ := terminals X hnests
    obtain ⟨l, htokens, hterminal, -⟩ := hreads.of_terminal
    simp [htokens, opens, hterminal, hnests]
  · simp [hnests]

namespace Reading

theorem countP_le (hr : Reading items cur parts f g) (hl : Linked items) :
    items.countP nests ≤ cur.countP opens := by
  have pieces (qs : List Piece) (hqs : ∀ q ∈ qs, q.Sound) :
      (qs.map Piece.frame).countP nests ≤ (qs.flatMap Piece.tokens).countP opens := by
    induction qs with
    | nil => simp
    | cons q qs ih =>
      have hq := (hqs q List.mem_cons_self).nests_le
      have hrest := ih fun q' hq' => hqs q' (List.mem_cons_of_mem q hq')
      rw [List.map_cons, List.countP_cons, List.flatMap_cons, List.countP_append]
      omega
  have hlink : Linked [f, g] := (hr.items_eq ▸ hl).of_append
  have hg : g.state = .start := by
    cases hlink with
    | push _ below =>
      cases below with
      | start state => exact state
  have hbottom : [f, g].countP nests = 0 := by
    simp [nests, hr.stmts, hg, entered_afterStmts, entered_start, nesting]
  rw [hr.items_eq, List.countP_append, List.countP_reverse, hbottom, hr.tokens]
  exact pieces parts hr.sound

/-- Only the last token read of a statement may be its semicolon. -/
theorem exists_plain (hr : Reading items cur parts f g) (hl : Linked items) : ∃ words tail,
    cur = words ++ tail ∧ (∀ l ∈ words, isSemicolon l = false) ∧ tail.countP opens = 0 := by
  obtain ⟨top, rest, hitems⟩ := List.exists_cons_of_ne_nil hl.ne_nil
  have htop : items.head? = some top := by rw [hitems]; rfl
  by_cases hsemi : entered top.state = some (.terminal Token.semicolon.terminal)
  · rcases hr.head htop with ⟨-, rfl⟩ | ⟨init, q, rfl, rfl⟩
    · rw [hr.stmts, entered_afterStmts] at hsemi
      exact absurd hsemi (by decide)
    · obtain ⟨l, hl', hterminal, -⟩ := ((hr.sound q (by simp)).reads_of hsemi).of_terminal
      refine ⟨init.flatMap Piece.tokens, [l], ?_, ?_, ?_⟩
      · rw [hr.tokens, List.flatMap_append, List.flatMap_singleton, hl']
      · intro l' hmem
        obtain ⟨q', hq', hmem⟩ := List.mem_flatMap.1 hmem
        refine (hr.sound q' (List.mem_append_left _ hq')).plain ?_ l' hmem
        have hrest : rest = (init.map Piece.frame).reverse ++ [f, g] := by
          simpa [hr.items_eq] using hitems.symm
        refine (hitems ▸ hl).entered_ne_semicolon _ ?_
        rw [hrest]
        exact List.mem_append_left _ (List.mem_reverse.2 (List.mem_map_of_mem hq'))
      · simp [opens_of_isSemicolon (l := l) (by simpa [isSemicolon] using hterminal)]
  · exact ⟨cur, [], by simp, hr.plain hl htop hsemi, rfl⟩

end Reading

namespace Stage

theorem exists_plain (h : Stage input items cur failure) (hl : Linked items) : ∃ words tail,
    cur = words ++ tail ∧ (∀ l ∈ words, isSemicolon l = false) ∧ tail.countP opens = 0 := by
  cases h with
  | reading reading => exact reading.exists_plain hl
  | caught spoiled => exact ⟨cur, [], by simp, spoiled.plain, rfl⟩
  | resolved spoiled _ semicolon =>
    exact ⟨_, _, rfl, spoiled.plain, by simp [opens_of_isSemicolon semicolon]⟩
  | _ => exact ⟨[], [], rfl, by simp, rfl⟩

/-- What has been read of a statement bounds the stack by its nesting alone. -/
theorem length_le_nesting (h : Stage input items cur failure) (hl : Linked items) :
    items.length ≤ 9 + 5 * cur.countP opens := by
  cases h with
  | reading reading =>
    obtain ⟨top, rest, rfl⟩ := List.exists_cons_of_ne_nil hl.ne_nil
    have hlength := hl.length_le
    have hlevel := level_le _ hl.mem_stateIds
    have hcount := reading.countP_le hl
    omega
  | _ => simp only [List.length_cons, List.length_nil]; omega

end Stage

end Stack

section Evaluate

variable {maxDepth n : Nat} {source : String} {bindings : Variables}

/-- Wherever an evaluation gets, the stack is bounded by the nesting of a single statement. -/
theorem Nested.length_le {c : Config Lexer Ledger Value Span}
    (h : Nested n (Lexer.ofString source).lexemes) (hd : 0 < maxDepth)
    (hc : (machine maxDepth).Reaches (beginning maxDepth source bindings) c) :
    c.stack.items.length ≤ 9 + 5 * n := by
  obtain ⟨-, entries, cur, failure, htally⟩ := Tally.visited hd hc
  have hlinked := (Fitting.visited hc).linked
  have hlength := htally.stage.length_le_nesting hlinked
  obtain ⟨words, tail, rfl, hplain, htail⟩ := htally.stage.exists_plain hlinked
  have hcount : words.countP opens ≤ n := by
    rw [← htally.tokens, List.append_assoc] at h
    exact h.countP_le (endsStatement_entries htally.booked.sound) hplain
  rw [List.countP_append, htail] at hlength
  omega

theorem Nested.depth_le (h : Nested n (Lexer.ofString source).lexemes) (k : Nat) :
    ((machine maxDepth).progress k
      ((machine maxDepth).init (Lexer.ofString source) { bindings })).config.stack.depth ≤
        9 + 5 * n := by
  rw [FrameStack.depth_eq]
  rcases Nat.eq_zero_or_pos maxDepth with rfl | hd
  · exact Nat.zero_le _
  · have hlength {c : Config Lexer Ledger Value Span}
        (hc : (machine maxDepth).Reaches (beginning maxDepth source bindings) c) :
        c.stack.items.length ≤ 9 + 5 * n := h.length_le hd hc
    refine Machine.progress_keeps (m := machine maxDepth)
      (P := (machine maxDepth).Reaches (beginning maxDepth source bindings))
      (Q := fun c => c.stack.items.length ≤ 9 + 5 * n) ?_ hlength ?_ k
    · rw [Machine.start_init (m := machine maxDepth) _ _ hd]
      exact .refl
    · intro c hc
      have hbelow := Machine.step_below (m := machine maxDepth) c
      cases hs : (machine maxDepth).step c with
      | ok c' => exact hc.tail hs
      | error e =>
        rw [hs] at hbelow
        exact Nat.le_trans (List.IsSuffix.length_le hbelow) (hlength hc)

/-- The stack of an evaluation depends on nesting only. However many statements a source has,
however long its chains of operators are and whatever errors are in it, the stack never holds more
than nine frames and five for each parenthesis or minus sign of a single statement, so that with
this room it does not overflow. -/
theorem stack_bounded_by_nesting (h : Nested n (Lexer.ofString source).lexemes) :
    (∀ k, ((machine maxDepth).progress k
      ((machine maxDepth).init (Lexer.ofString source) { bindings })).config.stack.depth ≤
        9 + 5 * n) ∧
    (9 + 5 * n ≤ maxDepth → ∀ limit, (evaluate maxDepth source bindings).outcome ≠
      .stopped (.parse (.stackOverflow limit))) := by
  refine ⟨h.depth_le, fun hroom limit hfull => ?_⟩
  let ample := max maxDepth ((Lexer.ofString source).lexemes.length + 3)
  have hample (l : Nat) : (evaluate ample source bindings).outcome ≠
      .stopped (.parse (.stackOverflow l)) := by
    intro houtcome
    have hpos : 0 < ample := by omega
    rcases outcome_cases ample source bindings hpos with h | h | ⟨⟨span, h⟩, -⟩ | ⟨-, hshort⟩
    · simp [houtcome] at h
    · simp [houtcome] at h
    · simp [houtcome] at h
    · omega
  have hle : maxDepth ≤ ample := Nat.le_max_left _ _
  let first := (machine ample).init (Lexer.ofString source) { bindings }
  rcases Machine.progress_cutShort (m := machine ample) hle first (fuel source.length) with
    heq | ⟨-, -, ⟨k, -, hdeep⟩ | hverdict⟩
  · have hsame : evaluate maxDepth source bindings = evaluate ample source bindings := calc
      _ = ending _ := evaluate_eq_ending (Nat.le_refl _)
      _ = ending _ := congrArg ending heq
      _ = _ := (evaluate_eq_ending (Nat.le_refl _)).symm
    exact hample limit (hsame ▸ hfull)
  · have hdepth : ((machine ample).progress k first).config.stack.depth ≤ 9 + 5 * n := h.depth_le k
    rw [FrameStack.depth_eq] at hdepth
    exact absurd (Nat.lt_of_le_of_lt hroom hdeep) (Nat.not_lt.2 hdepth)
  · apply hample ample
    rw [evaluate_eq_ending (Nat.le_refl _)]
    exact congrArg (Outcome.ofVerdict _) hverdict

/-- The bound is met between the two parentheses of this program: with one frame less there is no
room for the number after the asterisk. -/
theorem stack_bounded_by_nesting_tight :
    Nested 1 (Lexer.ofString "x = 1 + 2 * (3 + 4 * 5); x + 1;").lexemes ∧
      (∀ limit, (evaluate 14 "x = 1 + 2 * (3 + 4 * 5); x + 1;" .empty).outcome ≠
        .stopped (.parse (.stackOverflow limit))) ∧
      (evaluate 13 "x = 1 + 2 * (3 + 4 * 5); x + 1;" .empty).outcome =
        .stopped (.parse (.stackOverflow 13)) := by
  have hnested : Nested 1 (Lexer.ofString "x = 1 + 2 * (3 + 4 * 5); x + 1;").lexemes := by
    decide +kernel
  exact ⟨hnested, (stack_bounded_by_nesting hnested).2 (by decide), by decide +kernel⟩

end Evaluate

end ShiftReduce.Calculator
