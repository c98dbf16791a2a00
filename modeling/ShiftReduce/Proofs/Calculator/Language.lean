import ShiftReduce.Calculator.Evaluate
import ShiftReduce.Proofs.Calculator.Lexemes
import ShiftReduce.Proofs.Calculator.Soundness

namespace ShiftReduce.Calculator

variable {σ α V S φ : Type} [Merge S] {m : Machine σ α V S φ}
  {feed : Supply m.scanner m.tables.endTerminal} {x : σ} {a b : α} {v : V} {s : S} {t : Tree V S}

theorem program_node {p : Production} (h : p.rule.lhs = Phrase.program.nonterminal) :
    p = .program := by
  have key : ∀ p ∈ Production.all, p.rule.lhs = Phrase.program.nonterminal → p = .program := by
    decide
  exact key p (Production.mem_all p) h

theorem lead_stmts :
    lead .start (.nonterminal Phrase.stmts.nonterminal) = some ⟨1⟩ := rfl

theorem following_stmts :
    following .start (.nonterminal Phrase.stmts.nonterminal) = none := by decide

variable (feed)

/-- A program is read to its end and accepted. -/
theorem accepts_of_parses (hm : m.tables = tables) (ht : t.Parses (feed.pending x))
    (hmeaning : t.meaning m.actions (m.gap (m.opening x a)) a = some ((v, s), b))
    (hdepth : (feed.pending x).length + 3 ≤ m.maxDepth) : ∃ c d,
      m.Reaches (m.opening x a) c ∧ m.step c = .error ⟨.accepted v, d⟩ ∧ d.stats.errors = 0 ∧
        rulesIn d.trace = t.postorder ∧ reportsIn d.trace = [] ∧ d.actions = b := by
  obtain ⟨hvalid, hsymbol, hyield⟩ := ht
  cases hvalid with
  | leaf l => simp [Tree.symbol] at hsymbol
  | @node p ts plain spelled children =>
    obtain rfl := program_node (Symbol.nonterminal.inj hsymbol)
    obtain ⟨u, rfl, hu⟩ := List.map_eq_singleton_iff.1 spelled
    obtain ⟨vs, a₁, hts, hconclude⟩ := Tree.meaning_node.1 hmeaning
    obtain ⟨v₁, a₂, vs', hmu, hnil, rfl⟩ := Tree.meanings_cons.1 hts
    obtain ⟨rfl, rfl⟩ : vs' = [] ∧ a₁ = a₂ := by simpa [eq_comm] using hnil
    obtain ⟨reply, hreply, hproceed, hv, rfl⟩ := Tree.conclude_eq_some.1 hconclude
    obtain ⟨rfl, rfl⟩ := Prod.mk.inj hv
    have hinput : u.yield = feed.pending x := by simpa using hyield
    have hopen : Standing feed (m.gap (m.opening x a)) (m.opening x a)
        ⟨.start, m.actions.blank, m.scanner.span x⟩ [] (u.yield ++ []) :=
      ⟨rfl, rfl, rfl, .start rfl, by rw [List.append_nil, hinput]; rfl, fun _ => rfl⟩
    have hbreadth : u.breadth ≤ (feed.pending x).length + 1 := by
      unfold Tree.breadth
      rw [hinput]
      split <;> omega
    have hfollow : ∀ l ∈ following .start u.symbol, front ([] : List (Lexeme V S)) ∈ l := by
      rw [hu]
      exact fun l hl => absurd (following_stmts.symm.trans hl) (by simp)
    obtain ⟨c, hadv, hc, rfl⟩ := drives hm (children u (by simp)) hopen
      (by rw [hu]; exact lead_stmts) hfollow hmu (by
        simp only [List.length_nil]
        omega)
    have hdecides := hc.decides hm
    have haccept : Action.decode ((stateAt ⟨1⟩).lookup (front ([] : List (Lexeme V S)))) =
        .reduce Production.program.ruleId := by
      rfl
    rw [haccept] at hdecides
    have hreduces : m.Reduces c Production.program.ruleId Production.program.rule
        [⟨⟨1⟩, v₁.1, v₁.2⟩] [⟨.start, m.actions.blank, m.scanner.span x⟩] (.ok reply) :=
      ⟨by rw [hm, rule_ruleId], hc.items, rfl, hreply⟩
    obtain ⟨d, hd, hstep⟩ := Machine.step_of_accept hdecides hreduces hproceed
      (by rw [hm]; rfl)
    refine ⟨c, d, hadv.reaches, hstep, ?_, ?_, hd.reports.trans hadv.reports, hd.actions⟩
    · rw [hd.stats]
      exact (Machine.errors_poised m c _ _).trans hadv.errors
    · rw [hd.rules, hadv.rules]
      simp [Machine.opening, rulesIn]

/-- What a parse that accepts without an error has read is a program. -/
theorem parses_of_accepted {c d : Config σ α V S} (hm : m.tables = tables)
    (haccept : ∀ r v a reply, m.actions.reduce r v a = .ok reply → reply.control ≠ .accept)
    (htokens : ∀ l ∈ feed.pending x, l.terminal ≠ Token.error.terminal)
    (hr : m.Reaches (m.opening x a) c) (hs : m.step c = .error ⟨.accepted v, d⟩)
    (herrors : d.stats.errors = 0) : ∃ t : Tree V S, t.Parses (feed.pending x) ∧
      rulesIn d.trace = t.postorder ∧ reportsIn d.trace = [] ∧
      ∃ s, t.meaning m.actions (m.gap (m.opening x a)) a = some ((v, s), d.actions) := by
  obtain ⟨ps, h⟩ := Assembled.reaches hm htokens hr
    ((Machine.errors_of_accepted hs).symm.trans herrors)
  exact h.accepted hm haccept htokens hs

/-- The automaton accepts the programs of the grammar and nothing else. The rules that it reduces
by are those of the one tree of the program, each node after its children, which is a derivation of
the program from right to left read backward. The actions were called for these nodes: they come to
the value and to the state that the tree has by them. -/
theorem accepts_exactly_programs (hm : m.tables = tables) (hproceed : m.actions.Proceeding)
    (htokens : ∀ l ∈ feed.pending x, ∃ t : Token, t ≠ .endOfInput ∧ t ≠ .error ∧
      l.terminal = t.terminal)
    (hdepth : (feed.pending x).length + 3 ≤ m.maxDepth) {n : Nat}
    (hfuel : fuel (feed.pending x).length ≤ n) :
    let w := (feed.pending x).map Lexeme.terminal
    let h := m.parse n (m.init x a)
    ((∃ v, h.verdict = .accepted v) ∧ h.config.stats.errors = 0 ↔ Derivable w) ∧
    (Derivable w → reportsIn h.config.trace = [] ∧
      Rightmost (rulesIn h.config.trace).reverse [.nonterminal Phrase.program.nonterminal]
        (w.map .terminal) ∧
      (∃! t : Tree V S, t.Parses (feed.pending x)) ∧
      ∀ t : Tree V S, t.Parses (feed.pending x) → rulesIn h.config.trace = t.postorder ∧
        ∃ v s, h.verdict = .accepted v ∧
          t.meaning m.actions (m.gap (m.opening x a)) a = some ((v, s), h.config.actions)) := by
  intro w h
  have hplain : ∀ l ∈ feed.pending x, l.terminal ≠ Token.error.terminal := by
    intro l hl herr
    obtain ⟨t, -, hne, ht⟩ := htokens l hl
    exact hne (Token.terminal_injective (ht.symm.trans herr))
  have hrun := run_ends feed hm x a hplain
    (show 8 * (feed.pending x).length + 4 < n by unfold fuel at hfuel; omega)
  have hparse : h = Machine.finish (m.run n (m.opening x a)) := m.parse_init x a n (by omega)
  have accepted {t : Tree V S} (ht : t.Parses (feed.pending x)) :
      h.config.stats.errors = 0 ∧ rulesIn h.config.trace = t.postorder ∧
        reportsIn h.config.trace = [] ∧ ∃ v s, h.verdict = .accepted v ∧
          t.meaning m.actions (m.gap (m.opening x a)) a = some ((v, s), h.config.actions) := by
    obtain ⟨⟨v, s⟩, b, hmeaning⟩ := Tree.exists_meaning (e := m.gap (m.opening x a)) hproceed t a
    obtain ⟨c, d, hr, hs, herrors, hrules, hreports, rfl⟩ :=
      accepts_of_parses feed hm ht hmeaning hdepth
    rw [hparse, Machine.run_of_reaches hr hs hrun, Machine.verdict_finish, Machine.stats_finish,
      Machine.rulesIn_finish, Machine.reportsIn_finish, Machine.actions_finish]
    exact ⟨herrors, hrules, hreports, v, s, rfl, hmeaning⟩
  refine ⟨⟨?_, ?_⟩, ?_⟩
  · rintro ⟨⟨v, hv⟩, herrors⟩
    obtain ⟨c, hr, hs⟩ := Machine.exists_reaches_of_run hrun
    rw [hparse, Machine.verdict_finish] at hv
    rw [hparse, Machine.stats_finish] at herrors
    have haccept : ∀ r v a reply, m.actions.reduce r v a = .ok reply →
        reply.control ≠ .accept := by
      intro r v a reply hreply
      obtain ⟨reply', hreply', hc⟩ := hproceed r v a
      obtain rfl := Except.ok.inj (hreply.symm.trans hreply')
      simp [hc]
    obtain ⟨t, ht, -⟩ := parses_of_accepted feed hm haccept hplain hr
      (d := (m.run n (m.opening x a)).config) (v := v) (by rw [hs, ← hv]) herrors
    exact Tree.derivable_iff.2 ⟨t, ht⟩
  · intro hw
    obtain ⟨t, ht⟩ := Tree.derivable_iff.1 hw
    obtain ⟨herrors, -, -, v, -, hv, -⟩ := accepted ht
    exact ⟨⟨v, hv⟩, herrors⟩
  · intro hw
    obtain ⟨t, ht⟩ := Tree.derivable_iff.1 hw
    obtain ⟨-, hrules, hreports, -⟩ := accepted ht
    refine ⟨hreports, ?_, ⟨t, ht, ?_⟩, fun u hu => ?_⟩
    · rw [hrules]
      exact ht.rightmost
    · intro u hu
      refine hu.valid.eq_of_postorder ht.valid (hu.symbol.trans ht.symbol.symm)
        (hu.yield.trans ht.yield.symm) ?_
      rw [← hrules, (accepted hu).2.1]
    · obtain ⟨-, hpostorder, -, hmeaning⟩ := accepted hu
      exact ⟨hpostorder, hmeaning⟩

/-- The calculator without its semantic actions. -/
def recognizer (maxDepth : Nat) : Machine Lexer Unit Value Span Empty where
  tables
  scanner := Lexer.scanner
  actions := { blank := .nothing, reduce := fun _ given a => .ok { value := given, state := a } }
  maxDepth

theorem accepts_exactly_programs_assignment :
    (Lexer.ofString "x = -1;").lexemes.length + 3 ≤ 8 ∧
      Derivable ((Lexer.ofString "x = -1;").lexemes.map Lexeme.terminal) := by
  have hdepth : (Lexer.ofString "x = -1;").lexemes.length + 3 ≤ 8 := by decide +kernel
  refine ⟨hdepth, (accepts_exactly_programs (m := recognizer 8) Lexer.supply
    (x := Lexer.ofString "x = -1;") (a := ()) rfl (fun _ v a => ⟨_, rfl, rfl⟩) ?_ hdepth
    (Nat.le_refl _)).1.1 ⟨⟨.nothing, ?_⟩, ?_⟩⟩
  · intro l hl
    obtain ⟨y, hend, rfl⟩ := Lexer.mem_lexemes hl
    exact ⟨y.next.1, hend, (Lexer.value_next y).2.2, rfl⟩
  · decide +kernel
  · decide +kernel

end ShiftReduce.Calculator
