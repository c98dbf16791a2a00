import ShiftReduce.Proofs.Calculator.Language

namespace ShiftReduce.Calculator

/-- The moves of the automaton without values. It has its states, the top one first, and the
terminals that are left. To reduce a whole program is no move any more. -/
inductive Moves : List StateId × List Terminal → List StateId × List Terminal → Prop
  | shift {s target : StateId} {ss : List StateId} {t : Terminal} {left : List Terminal}
      (shifts : Action.decode ((stateAt s).lookup t) = .shift target) :
      Moves (s :: ss, t :: left) (target :: s :: ss, left)
  | reduce {s g target : StateId} {ss below : List StateId} {t : Terminal} {left : List Terminal}
      {p : Production} (inner : p ≠ .program)
      (reduces : Action.decode ((stateAt s).lookup t) = .reduce p.ruleId)
      (drop : (s :: ss).drop p.rule.length = g :: below)
      (goto : (stateAt g).gotoFor p.rule.lhs = some target) :
      Moves (s :: ss, t :: left) (target :: g :: below, t :: left)

namespace Moves

variable {x y z : List StateId × List Terminal} {s : StateId} {ss ss' : List StateId}
  {t : Terminal} {u left left' : List Terminal}

/-- A stack and the terminal that comes next leave one move at most. -/
theorem unique (h : Moves x y) (h' : Moves x z) : y = z := by
  cases h with
  | shift shifts =>
    cases h' with
    | shift shifts' =>
      obtain rfl := Action.shift.inj (shifts.symm.trans shifts')
      rfl
    | reduce inner reduces => simp [reduces] at shifts
  | reduce inner reduces drop goto =>
    cases h' with
    | shift shifts => simp [shifts] at reduces
    | reduce inner' reduces' drop' goto' =>
      obtain rfl := Production.ruleId_injective (Action.reduce.inj (reduces.symm.trans reduces'))
      obtain ⟨rfl, rfl⟩ := List.cons.inj (drop.symm.trans drop')
      obtain rfl := Option.some.inj (goto.symm.trans goto')
      rfl

theorem length_le (h : Relation.ReflTransGen Moves x y) : y.2.length ≤ x.2.length := by
  induction h with
  | refl => exact Nat.le_refl _
  | tail _ hstep ih =>
    refine Nat.le_trans ?_ ih
    cases hstep with
    | shift => exact Nat.le_succ _
    | reduce => exact Nat.le_refl _

/-- What comes behind the next terminal makes no difference to a move. -/
theorem replace (h : Moves (ss, u ++ t :: left) (ss', left')) : left' = left ∨
    ∃ u', left' = u' ++ t :: left ∧ ∀ y, Moves (ss, u ++ t :: y) (ss', u' ++ t :: y) := by
  generalize hinput : u ++ t :: left = input at h
  cases h with
  | shift shifts =>
    cases u with
    | nil => exact .inl (List.cons.inj hinput).2.symm
    | cons a u =>
      obtain ⟨rfl, rfl⟩ := List.cons.inj hinput
      exact .inr ⟨u, rfl, fun y => .shift shifts⟩
  | reduce inner reduces drop goto =>
    refine .inr ⟨u, hinput.symm, fun y => ?_⟩
    cases u with
    | nil =>
      obtain ⟨rfl, -⟩ := List.cons.inj hinput
      exact .reduce inner reduces drop goto
    | cons a u =>
      obtain ⟨rfl, -⟩ := List.cons.inj hinput
      exact .reduce inner reduces drop goto

/-- Up to a terminal the moves depend on it and on those before it only. -/
theorem replace_all (h : Relation.ReflTransGen Moves (ss, u ++ t :: left) (ss', t :: left))
    (y : List Terminal) : Relation.ReflTransGen Moves (ss, u ++ t :: y) (ss', t :: y) := by
  generalize hx : (ss, u ++ t :: left) = x at h
  induction h using Relation.ReflTransGen.head_induction_on generalizing ss u with
  | refl =>
    obtain ⟨rfl, hinput⟩ := Prod.mk.inj hx
    have hlength := congrArg List.length hinput
    rw [List.length_append] at hlength
    obtain rfl := List.length_eq_zero_iff.1 (by omega : u.length = 0)
    exact .refl
  | @head _ d hstep hrest ih =>
    subst hx
    obtain ⟨ss₁, left₁⟩ := d
    rcases hstep.replace with rfl | ⟨u', rfl, hmoves⟩
    · -- The terminal itself cannot have been shifted: it is still there in the end.
      exact absurd (length_le hrest) (by simp)
    · exact .head (hmoves y) (ih rfl)

/-- Where no move is left, all moves end. -/
theorem end_unique (hy : Relation.ReflTransGen Moves x y) (hz : Relation.ReflTransGen Moves x z)
    (hy' : ∀ d, ¬ Moves y d) (hz' : ∀ d, ¬ Moves z d) : y = z := by
  have still {a b : List StateId × List Terminal} (h : Relation.ReflTransGen Moves a b)
      (ha : ∀ d, ¬ Moves a d) : a = b := by
    rcases h.cases_head with rfl | ⟨d, hd, -⟩
    · rfl
    · exact absurd hd (ha d)
  have hunique : Relator.RightUnique Moves := fun _ _ _ h h' => unique h h'
  rcases Relation.ReflTransGen.total_of_right_unique hunique hy hz with h | h
  · exact still h hy'
  · exact (still h hz').symm

end Moves

section Machine

variable {σ α V S φ : Type} {m : Machine σ α V S φ}
  (feed : Supply m.scanner m.tables.endTerminal) {c c' : Config σ α V S}

def track (c : Config σ α V S) : List StateId × List Terminal :=
  (c.stack.items.map Frame.state,
    (feed.input c).map Lexeme.terminal ++ [Token.endOfInput.terminal])

/-- The next token is the first of the terminals that are left. -/
theorem exists_track (hm : m.tables = tables) (c : Config σ α V S) :
    ∃ left, (track feed c).2 = m.ahead c :: left := by
  unfold track
  cases h : feed.input c with
  | nil =>
    refine ⟨[], ?_⟩
    rw [feed.ahead_of_nil h, hm]
    rfl
  | cons l rest =>
    rw [(feed.ahead_of_cons h).1]
    exact ⟨_, rfl⟩

variable [Merge S] {feed}

/-- A step without an error is a move of the automaton. -/
theorem Moves.of_step (hm : m.tables = tables) (hl : Linked c.stack.items)
    (hphase : c.phase = .deciding) (hs : m.step c = .ok c') (herrors : c'.stats.errors = 0) :
    Moves (track feed c) (track feed c') := by
  cases Machine.turn_of_ok hs with
  | @shifted f s target _ decides room result =>
    obtain ⟨rest, hrest⟩ := List.head?_eq_some_iff.1 decides.top
    obtain ⟨l, left, hinput, -⟩ := Decides.takes feed hm hl decides
    obtain ⟨hitems, hleft⟩ := feed.shifted_cons result hinput
    have hshifts := decides.action
    rw [(Decides.row hm hl decides).2] at hshifts
    rw [(feed.ahead_of_cons hinput).1] at hshifts
    rw [track, track, hinput, hleft, hitems, hrest]
    exact .shift hshifts
  | @reduced f g s s' r rule frames below reply d st decides reduces acted proceeds other state room
      items =>
    obtain ⟨p, target, h⟩ :=
      Folded.of_turn hm hl decides reduces acted proceeds other state items
    obtain ⟨rest, hrest⟩ := List.head?_eq_some_iff.1 decides.top
    have hdrop : (c.stack.items.map Frame.state).drop p.rule.length =
        g.state :: below.map Frame.state := by
      rw [h.reduces.items, ← h.reduces.length, ← List.length_reverse, ← List.map_drop,
        List.drop_left, List.map_cons]
    obtain ⟨left, hleft⟩ := exists_track feed hm c
    dsimp only [track] at hleft
    rw [track, track, h.input, hleft, h.items, hrest]
    rw [hrest] at hdrop
    exact .reduce h.inner.2 h.decides.action hdrop h.goto
  | failed decides recovers => exact absurd herrors recovers.errors_ne_zero
  | raised decides reduces acted raises recovers =>
    exact absurd herrors recovers.errors_ne_zero
  | resumed phase => simp [hphase] at phase
  | discarded phase => simp [hphase] at phase

/-- As long as no error occurs, a parse moves as the automaton does. -/
theorem Moves.of_reaches (hm : m.tables = tables) {x : σ} {a : α}
    (htokens : ∀ l ∈ feed.pending x, l.terminal ≠ Token.error.terminal)
    (hr : m.Reaches (m.opening x a) c) (herrors : c.stats.errors = 0) :
    Relation.ReflTransGen Moves
      ([.start], (feed.pending x).map Lexeme.terminal ++ [Token.endOfInput.terminal])
      (track feed c) := by
  induction hr with
  | refl => exact .refl
  | @tail d c hd hs ih =>
    have hbefore : d.stats.errors = 0 :=
      Nat.le_zero.1 (herrors ▸ Machine.errors_le_of_step hs)
    obtain ⟨ps, h⟩ := Assembled.reaches hm htokens hd hbefore
    exact (ih hbefore).tail (.of_step hm h.linked h.phase hs herrors)

end Machine

def unvalued (v : List Terminal) : List (Lexeme Unit ByteRange) := v.map fun a => ⟨a, (), {}⟩

@[simp] theorem terminals_unvalued (v : List Terminal) :
    (unvalued v).map Lexeme.terminal = v := by
  simp [unvalued, Function.comp_def]

theorem Derivable.notMem {v : List Terminal} (hv : Derivable v) {a : Terminal}
    (ha : a ∈ absent) : a ∉ v := by
  intro hmem
  rw [← terminals_unvalued v] at hv
  obtain ⟨t, ht⟩ := Tree.derivable_iff.1 hv
  have hne := ht.valid.terminal_ne (absent_checked a ha) (by rw [ht.symbol]; simp)
  rw [ht.yield] at hne
  exact hne ⟨a, (), {}⟩ (List.mem_map.2 ⟨_, hmem, rfl⟩) rfl

structure Tape where
  left : List Terminal
  plain : ∀ a ∈ left, a ∉ absent

namespace Tape

theorem ne_of_mem (x : Tape) {a b : Terminal} (ha : a ∈ x.left) (hb : b ∈ absent) : a ≠ b :=
  fun h => x.plain a ha (h ▸ hb)

def scanner : Scanner Tape Unit ByteRange where
  next
    | ⟨[], h⟩ => (Token.endOfInput.terminal, ⟨[], h⟩, [])
    | ⟨t :: left, h⟩ => (t, ⟨left, fun a ha => h a (List.mem_cons_of_mem t ha)⟩, [])
  value x := ((), x)
  span _ := {}
  report _ _ x := (x, [])
  proper
    | ⟨[], _⟩ => Token.endOfInput.terminal_ne_reserved
    | ⟨t :: left, h⟩ => ne_of_mem ⟨t :: left, h⟩ List.mem_cons_self (by decide)

def supply : Supply scanner Token.endOfInput.terminal where
  pending x := unvalued x.left
  terminal_ne := by
    intro x l hl ht
    obtain ⟨a, ha, rfl⟩ := List.mem_map.1 hl
    exact x.ne_of_mem ha (by decide) ht
  next_nil := by
    rintro ⟨left, h⟩ hnil
    obtain rfl : left = [] := by simpa [unvalued] using hnil
    exact ⟨rfl, rfl⟩
  next_cons := by
    rintro ⟨left, h⟩ l rest hcons
    obtain ⟨a, left, rfl, rfl, rfl⟩ := List.map_eq_cons_iff.1 hcons
    exact ⟨rfl, rfl, rfl, rfl⟩
  after_value _ := ⟨rfl, rfl⟩
  after_report _ _ _ := ⟨rfl, rfl, rfl⟩

end Tape

def reciter (maxDepth : Nat) : Machine Tape Unit Unit ByteRange Empty where
  tables
  scanner := Tape.scanner
  actions := { blank := (), reduce := fun _ given a => .ok { value := given, state := a } }
  maxDepth

/-- The automaton moves through a program up to the reduction of the whole. -/
theorem Derivable.moves {v : List Terminal} (hv : Derivable v) : ∃ s ss t left,
    Relation.ReflTransGen Moves ([.start], v ++ [Token.endOfInput.terminal]) (s :: ss, t :: left) ∧
      Action.decode ((stateAt s).lookup t) = .reduce Production.program.ruleId := by
  -- The parse of the terminals alone, with actions that always proceed, is a run to take the moves
  -- from.
  let x : Tape := ⟨v, fun a ha habsent => hv.notMem habsent ha⟩
  let m := reciter (v.length + 3)
  let feed : Supply m.scanner m.tables.endTerminal := Tape.supply
  have hterminals : (feed.pending x).map Lexeme.terminal = v := terminals_unvalued v
  have htokens : ∀ l ∈ feed.pending x, l.terminal ≠ Token.error.terminal := by
    intro l hl herror
    exact hv.notMem (a := Token.error.terminal) (by decide) (hterminals ▸ List.mem_map.2 ⟨l, hl, herror⟩)
  rw [← hterminals] at hv
  obtain ⟨t, ht⟩ := Tree.derivable_iff.1 hv
  have hproceed : m.actions.Proceeding := fun _ given a => ⟨_, rfl, rfl⟩
  obtain ⟨⟨u, s⟩, b, hmeaning⟩ :=
    Tree.exists_meaning (e := m.gap (m.opening x ())) hproceed t ()
  obtain ⟨c, d, hr, hs, herrors, -⟩ := accepts_of_parses feed rfl ht hmeaning
    (by simp [m, reciter, ← hterminals])
  have hclean : c.stats.errors = 0 := (Machine.errors_of_accepted hs).symm.trans herrors
  obtain ⟨ps, h⟩ := Assembled.reaches rfl htokens hr hclean
  obtain ⟨f, row, r, rule, frames, below, reply, decides, reduces, -, accepts, -⟩ :=
    Machine.exists_accepted hs
  have hrule : r = Production.program.ruleId := by
    obtain ⟨reply', hreply, hcontrol⟩ := hproceed (m.reduction c r rule frames) (m.given frames)
      c.actions
    obtain rfl := Except.ok.inj (hreply.symm.trans reduces.reply)
    exact (accepts.resolve_left (by simp [hcontrol])).2
  have hpath := Moves.of_reaches rfl htokens hr hclean
  obtain ⟨rest, hrest⟩ := List.head?_eq_some_iff.1 decides.top
  obtain ⟨left, hleft⟩ := exists_track feed rfl c
  have hact := decides.action
  rw [(Decides.row rfl h.linked decides).2, hrule] at hact
  refine ⟨f.state, rest.map Frame.state, m.ahead c, left, ?_, hact⟩
  rw [hterminals] at hpath
  rwa [← List.map_cons, ← hrest, ← hleft]

/-- The automaton finds an error as soon as no program begins with what it has come to. -/
theorem Derivable.not_prefix {s : StateId} {ss : List StateId} {u left : List Terminal}
    {t : Terminal}
    (hmoves : Relation.ReflTransGen Moves ([.start], u ++ t :: left) (s :: ss, t :: left))
    (herror : Action.decode ((stateAt s).lookup t) = .error) {v : List Terminal}
    (hv : Derivable v) : ¬ u ++ [t] <+: v ++ [Token.endOfInput.terminal] := by
  rintro ⟨y, hy⟩
  obtain ⟨s', ss', t', left', hmoves', hprogram⟩ := hv.moves
  have hreplaced := Moves.replace_all hmoves y
  rw [List.append_cons, hy] at hreplaced
  have hend := Moves.end_unique hreplaced hmoves' (by
    intro d hd
    cases hd with
    | shift shifts => simp [herror] at shifts
    | reduce inner reduces => simp [herror] at reduces) (by
    intro d hd
    cases hd with
    | shift shifts => simp [hprogram] at shifts
    | reduce inner reduces =>
      exact inner (Production.ruleId_injective (Action.reduce.inj (reduces.symm.trans hprogram))))
  obtain ⟨hstack, hinput⟩ := Prod.mk.inj hend
  obtain ⟨rfl, -⟩ := List.cons.inj hstack
  obtain ⟨rfl, -⟩ := List.cons.inj hinput
  simp [herror] at hprogram

end ShiftReduce.Calculator
