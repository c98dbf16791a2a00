import ShiftReduce.Proofs.Calculator.Paths

namespace ShiftReduce

structure Machine.Advances {σ α V S φ : Type} [Merge S] (m : Machine σ α V S φ)
    (rules : List RuleId) (c c' : Config σ α V S) : Prop where
  reaches : m.Reaches c c'
  errors : c'.stats.errors = c.stats.errors
  rules : rulesIn c'.trace = rulesIn c.trace ++ rules
  reports : reportsIn c'.trace = reportsIn c.trace

namespace Machine.Advances

variable {σ α V S φ : Type} [Merge S] {m : Machine σ α V S φ} {c c' c'' : Config σ α V S}
  {rs rs' : List RuleId}

theorem refl (c : Config σ α V S) : m.Advances [] c c := ⟨.refl, rfl, by simp, rfl⟩

theorem trans (h : m.Advances rs c c') (h' : m.Advances rs' c' c'') :
    m.Advances (rs ++ rs') c c'' :=
  ⟨h.reaches.trans h'.reaches, h'.errors.trans h.errors,
    by rw [h'.rules, h.rules, List.append_assoc], h'.reports.trans h.reports⟩

end Machine.Advances

namespace Calculator

theorem lead_terminal {s target : StateId} {a : Terminal}
    (h : lead s (.terminal a) = some target) :
    Action.decode ((stateAt s).lookup a) = .shift target := by
  rw [lead] at h
  split at h
  · rename_i t ht
    rw [ht, Option.some.inj h]
  · simp at h

theorem lead_edge {s target : StateId} {X : Symbol} (hs : s ∈ stateIds)
    (h : lead s X = some target) : (X, target) ∈ (stateAt s).edges := by
  cases X with
  | terminal a =>
    exact State.edges_of_lookup
      (fun hf => fallbacks_checked s hs (Action.toNat_of_decode_shift hf).1) (lead_terminal h)
  | nonterminal n => exact State.edges_of_gotoFor h

/-- Only at the start can a phrase be empty. -/
theorem Completes.action {s : StateId} {p : Production} {next : Option (List Terminal)}
    (h : Completes s p next) {t : Terminal} (ht : ∀ l ∈ next, t ∈ l) :
    Action.decode ((stateAt s).lookup t) = .reduce p.ruleId := by
  cases next with
  | none => rw [State.lookup_of_not_hasLookahead h.1, h.2]
  | some l => exact h t (ht l rfl)

def front {V S : Type} (w : List (Lexeme V S)) : Terminal :=
  (w.head?.map Lexeme.terminal).getD Token.endOfInput.terminal

theorem stretch_congr {S : Type} [Merge S] {e e' : S} {spans : List S} (h : spans = [] → e = e') :
    stretch e spans = stretch e' spans := by
  match spans with
  | [] => exact h rfl
  | [s] => rfl
  | s :: t :: rest => rfl

namespace Tree

variable {V S : Type} {t : Tree V S} {ts : List (Tree V S)} {p : Production}

def breadth (t : Tree V S) : Nat :=
  t.yield.length + if t.symbol = .nonterminal Phrase.stmts.nonterminal then 1 else 0

theorem widths_checked : ∀ p ∈ Production.all, p.Plain →
    p.rule.lhs ≠ Phrase.stmts.nonterminal → p.rule.lhs ≠ Phrase.program.nonterminal →
      ∃ X ∈ p.rule.rhs, X ≠ .nonterminal Phrase.stmts.nonterminal ∧
        X ≠ .nonterminal Phrase.program.nonterminal := by
  decide

theorem stmts_checked : ∀ p ∈ Production.all, p.Plain → p ≠ .program →
    p.rule.rhs.count (.nonterminal Phrase.stmts.nonterminal) ≤
      if p.rule.lhs = Phrase.stmts.nonterminal then 1 else 0 := by
  decide

theorem Valid.yield_ne_nil (h : t.Valid) (hs : t.symbol ≠ .nonterminal Phrase.stmts.nonterminal)
    (hp : t.symbol ≠ .nonterminal Phrase.program.nonterminal) : t.yield ≠ [] := by
  induction h with
  | leaf l => simp
  | @node p ts plain spelled children ih =>
    obtain ⟨X, hX, hXs, hXp⟩ := widths_checked p (Production.mem_all p) plain
      (fun h => hs (congrArg Symbol.nonterminal h)) (fun h => hp (congrArg Symbol.nonterminal h))
    rw [← spelled] at hX
    obtain ⟨t, ht, rfl⟩ := List.mem_map.1 hX
    intro hnil
    rw [yield_node, List.flatMap_eq_nil_iff] at hnil
    exact ih t ht hXs hXp (hnil t ht)

theorem Valid.breadth_pos (h : t.Valid) (hp : t.symbol ≠ .nonterminal Phrase.program.nonterminal) :
    0 < t.breadth := by
  unfold breadth
  split
  · omega
  · rename_i hs
    exact List.length_pos_iff.2 (h.yield_ne_nil hs hp)

theorem sum_breadth (ts : List (Tree V S)) : (ts.map breadth).sum = (ts.flatMap yield).length +
    (ts.map symbol).count (.nonterminal Phrase.stmts.nonterminal) := by
  induction ts with
  | nil => rfl
  | cons t ts ih =>
    simp only [List.map_cons, List.sum_cons, List.flatMap_cons, List.length_append,
      List.count_cons, ih, breadth, beq_iff_eq]
    omega

theorem sum_breadth_le (plain : p.Plain) (hp : p ≠ .program)
    (spelled : ts.map symbol = p.rule.rhs) : (ts.map breadth).sum ≤ (node p ts).breadth := by
  have h := stmts_checked p (Production.mem_all p) plain hp
  rw [sum_breadth, spelled, breadth, yield_node]
  simp only [symbol, Symbol.nonterminal.injEq]
  omega

end Tree

theorem front_mem_heads {V S : Type} {ts : List (Tree V S)} {left : List (Lexeme V S)}
    {next : Option (List Terminal)}
    (h : ∀ l ∈ next, front left ∈ l) :
    ∀ l ∈ heads next (ts.map Tree.symbol), front (ts.flatMap Tree.yield ++ left) ∈ l := by
  cases ts with
  | nil => simpa [heads] using h
  | cons t ts =>
    intro l hl
    cases t with
    | leaf x =>
      obtain rfl : [x.terminal] = l := by simpa [heads, Tree.symbol] using hl
      simp [front]
    | node p us => simp [heads, Tree.symbol] at hl

variable {σ α V S φ : Type} [Merge S] {m : Machine σ α V S φ}
  (feed : Supply m.scanner m.tables.endTerminal) (e : S)

/-- An undisturbed configuration with its stack and its input. An empty phrase in front of all
others lies at `e`. -/
structure Standing (c : Config σ α V S) (g : Frame V S) (below : List (Frame V S))
    (w : List (Lexeme V S)) : Prop where
  phase : c.phase = .deciding
  mode : c.mode = .normal
  items : c.stack.items = g :: below
  linked : Linked (g :: below)
  input : feed.input c = w
  gap : g.state = .start → m.gap c = e

/-- Whether the automaton reads the tokens of a tree wherever its symbol can begin, and ends with
its symbol and its meaning on top of the stack. -/
def Drives (t : Tree V S) : Prop := ∀ {c : Config σ α V S} {g : Frame V S}
  {below : List (Frame V S)} {left : List (Lexeme V S)} {target : StateId} {v : V × S} {a : α},
  Standing feed e c g below (t.yield ++ left) → lead g.state t.symbol = some target →
    (∀ l ∈ following g.state t.symbol, front left ∈ l) →
    t.meaning m.actions e c.actions = some (v, a) → below.length + 1 + t.breadth < m.maxDepth →
    ∃ c', m.Advances t.postorder c c' ∧
      Standing feed e c' ⟨target, v.1, v.2⟩ (g :: below) left ∧ c'.actions = a

variable {feed e} {c : Config σ α V S} {g : Frame V S} {below : List (Frame V S)}
  {w left : List (Lexeme V S)}

theorem Standing.ahead (hm : m.tables = tables) (h : Standing feed e c g below w) :
    m.ahead c = front w := by
  rw [feed.ahead_eq, h.input, hm]
  rfl

theorem Standing.decides (hm : m.tables = tables) (h : Standing feed e c g below w) :
    m.Decides c g (stateAt g.state) (Action.decode ((stateAt g.state).lookup (front w))) := by
  refine ⟨h.phase, by simp [h.items], ?_, by rw [h.ahead hm]⟩
  rw [hm]
  exact h.linked.state_eq List.mem_cons_self

theorem drives_leaf (hm : m.tables = tables) (l : Lexeme V S) : Drives feed e (.leaf l) := by
  intro c g below left target v a hc hlead _ hmeaning hroom
  rw [Tree.yield_leaf, List.singleton_append] at hc
  obtain ⟨rfl, rfl⟩ : v = (l.value, l.span) ∧ a = c.actions := by
    simpa [eq_comm] using hmeaning
  have hmem := hc.linked.mem_stateIds
  have hedge := lead_edge hmem hlead
  have hdecides := hc.decides hm
  rw [show front (l :: left) = l.terminal from rfl, lead_terminal hlead] at hdecides
  obtain ⟨c', hstep, hshift⟩ := Machine.step_of_shift hdecides
    (by rw [hc.items, List.length_cons]; omega)
  obtain ⟨hitems, hinput⟩ := feed.shifted_cons hshift hc.input
  refine ⟨c', ⟨.single hstep, ?_, ?_, hshift.reports⟩, ⟨hshift.phase.trans hc.phase, ?_, ?_,
    .push hedge hc.linked, hinput, ?_⟩, hshift.actions⟩
  · rw [hshift.stats]
    exact Machine.errors_fetched m c
  · simpa using hshift.rules
  · rw [hshift.mode, hc.mode]
    rfl
  · rw [hitems, hc.items]
  · exact fun h => absurd h (edges_checked _ hmem _ hedge).2.1

variable {ts : List (Tree V S)} {p : Production} {next : Option (List Terminal)}

/-- Trees are read one after the other. -/
theorem drives_all (hd : ∀ t ∈ ts, Drives feed e t) (hv : ∀ t ∈ ts, t.Valid)
    (hc : Standing feed e c g below (ts.flatMap Tree.yield ++ left))
    (paved : Paves p next g.state (ts.map Tree.symbol)) (hnext : ∀ l ∈ next, front left ∈ l)
    {vs : List (V × S)} {a : α} (hmeaning : Tree.meanings m.actions e ts c.actions = some (vs, a))
    (hroom : below.length + 1 + (ts.map Tree.breadth).sum < m.maxDepth) :
    ∃ (c' : Config σ α V S) (g' : Frame V S) (below' frames : List (Frame V S)),
      m.Advances (ts.flatMap Tree.postorder) c c' ∧
      Standing feed e c' g' below' left ∧ g' :: below' = frames.reverse ++ g :: below ∧
      frames.map (fun f => (f.value, f.span)) = vs ∧ frames.length = ts.length ∧
      c'.actions = a ∧ Completes g'.state p next := by
  induction ts generalizing c g below vs with
  | nil =>
    obtain ⟨rfl, rfl⟩ : vs = [] ∧ a = c.actions := by simpa [eq_comm] using hmeaning
    exact ⟨c, g, below, [], .refl c, hc, rfl, rfl, rfl, rfl, paved⟩
  | cons t ts ih =>
    obtain ⟨v, a₁, vs, ht, hts, rfl⟩ := Tree.meanings_cons.1 hmeaning
    obtain ⟨target, htarget, hallow, hpaved⟩ := paved
    have hfollow : ∀ l ∈ following g.state t.symbol, front (ts.flatMap Tree.yield ++ left) ∈ l := by
      intro l hl
      obtain ⟨l', hl', hsub⟩ := hallow l hl
      exact hsub (front_mem_heads hnext l' hl')
    have hprog : t.symbol ≠ .nonterminal Phrase.program.nonterminal := by
      intro h
      rw [h] at htarget
      simp [lead, no_program_gotos _ hc.linked.mem_stateIds] at htarget
    have hpos := (hv t List.mem_cons_self).breadth_pos hprog
    simp only [List.map_cons, List.sum_cons] at hroom
    rw [List.flatMap_cons, List.append_assoc] at hc
    obtain ⟨c₁, hadv, hc₁, rfl⟩ := hd t List.mem_cons_self hc htarget hfollow ht (by omega)
    obtain ⟨c', g', below', frames, hadv', hc', hitems, hframes, hlen, hact, hcomplete⟩ :=
      ih (fun u hu => hd u (List.mem_cons_of_mem t hu))
        (fun u hu => hv u (List.mem_cons_of_mem t hu)) hc₁ hpaved hts
        (by rw [List.length_cons]; omega)
    refine ⟨c', g', below', ⟨target, v.1, v.2⟩ :: frames, ?_, hc', ?_, ?_, ?_, hact, hcomplete⟩
    · exact hadv.trans hadv'
    · simp [hitems]
    · simp [hframes]
    · simp [hlen]

/-- A right-hand side that has been read is reduced. -/
theorem Standing.fold {f : Frame V S} {rest frames : List (Frame V S)} {reply : Reply α V}
    {target : StateId} (hm : m.tables = tables) (hc : Standing feed e c f rest left)
    (hl : Linked (g :: below))
    (hdecides : m.Decides c f (stateAt f.state) (.reduce p.ruleId))
    (hreduces : m.Reduces c p.ruleId p.rule frames (g :: below) (.ok reply))
    (hproceed : reply.control = .proceed) (hprog : p ≠ .program)
    (hgoto : (stateAt g.state).gotoFor p.rule.lhs = some target)
    (hempty : frames.map Frame.span = [] → m.gap c = e) (hroom : below.length + 1 < m.maxDepth) :
    ∃ c', m.Advances [p.ruleId] c c' ∧
      Standing feed e c' ⟨target, reply.value, stretch e (frames.map Frame.span)⟩ (g :: below)
        left ∧ c'.actions = reply.state := by
  have hother : p.ruleId ≠ m.tables.acceptRule := by
    rw [hm]
    exact fun h => hprog (Production.ruleId_injective h)
  have hstate : m.tables.state g.state = .ok (stateAt g.state) := by
    rw [hm]
    exact hl.state_eq List.mem_cons_self
  obtain ⟨d, st, hacted, hstep, hst⟩ :=
    Machine.step_of_reduce hdecides hreduces hproceed hother hstate hroom
  rw [hgoto, Option.getD_some, Machine.spread_eq, stretch_congr hempty] at hst
  have hedge := State.edges_of_gotoFor hgoto
  refine ⟨Machine.turned { d with stack := st }, ⟨.single hstep, ?_, ?_, ?_⟩,
    ⟨hacted.phase.trans hc.phase, hacted.mode.trans hc.mode, hst, .push hedge hl, ?_, ?_⟩,
    hacted.actions⟩
  · rw [Machine.stats_turned, hacted.stats]
    exact Machine.errors_poised m c _ frames
  · rw [Machine.rulesIn_turned]
    exact hacted.rules
  · rw [Machine.reportsIn_turned]
    exact hacted.reports
  · rw [feed.input_turned, feed.input_stack, feed.acted hacted, hc.input]
  · exact fun h => absurd h (edges_checked _ hl.mem_stateIds _ hedge).2.1

theorem drives_node (hm : m.tables = tables) (plain : p.Plain)
    (spelled : ts.map Tree.symbol = p.rule.rhs) (hv : ∀ t ∈ ts, t.Valid)
    (hd : ∀ t ∈ ts, Drives feed e t) : Drives feed e (.node p ts) := by
  intro c g below left target v a hc hlead hfollow hmeaning hroom
  have hmem := hc.linked.mem_stateIds
  have hgoto : (stateAt g.state).gotoFor p.rule.lhs = some target := hlead
  have hprog : p ≠ .program := by
    rintro rfl
    rw [show Production.program.rule.lhs = Phrase.program.nonterminal from rfl,
      no_program_gotos _ hmem] at hgoto
    simp at hgoto
  have hwide := Tree.sum_breadth_le plain hprog spelled
  have paved := paths_checked _ hmem p (Production.mem_all p) plain hprog (by simp [hgoto])
  rw [← spelled] at paved
  rw [Tree.yield_node] at hc
  obtain ⟨vs, a₁, hts, hconclude⟩ := Tree.meaning_node.1 hmeaning
  obtain ⟨reply, hreply, hproceed, rfl, rfl⟩ := Tree.conclude_eq_some.1 hconclude
  obtain ⟨c₁, g₁, below₁, frames, hadv, hc₁, hitems, rfl, hlen, rfl, hcomplete⟩ :=
    drives_all hd hv hc paved hfollow hts (by omega)
  have hdecides := hc₁.decides hm
  rw [hcomplete.action hfollow] at hdecides
  have hempty : frames.map Frame.span = [] → m.gap c₁ = e := by
    intro hnil
    have hframes : frames = [] := List.map_eq_nil_iff.1 hnil
    subst hframes
    obtain ⟨rfl, rfl⟩ := List.cons.inj hitems
    have hts : ts = [] := List.length_eq_zero_iff.1 hlen.symm
    rw [hts] at spelled
    exact hc₁.gap (empty_checked p (Production.mem_all p) spelled.symm _ hmem (by simp [hgoto]))
  have hreduces : m.Reduces c₁ p.ruleId p.rule frames (g :: below) (.ok reply) := by
    refine ⟨by rw [hm, rule_ruleId], hc₁.items.trans hitems, ?_, ?_⟩
    · rw [hlen, Rule.length, ← spelled, List.length_map]
    · rw [← hreply, Machine.reduction, Machine.spread_eq, stretch_congr hempty]
      simp [Machine.given, Function.comp_def]
  obtain ⟨c', hadv', hc', hactions⟩ := hc₁.fold hm hc.linked hdecides hreduces hproceed hprog hgoto
    hempty (by omega)
  refine ⟨c', by rw [Tree.postorder_node]; exact hadv.trans hadv', ?_, hactions⟩
  simpa [Function.comp_def] using hc'

/-- The automaton reads every tree of the grammar. -/
theorem drives (hm : m.tables = tables) {t : Tree V S} (h : t.Valid) : Drives feed e t := by
  induction h with
  | leaf l => exact drives_leaf hm l
  | node plain spelled children ih => exact drives_node hm plain spelled children ih

end Calculator

end ShiftReduce
