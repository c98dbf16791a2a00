import ShiftReduce.Proofs.Calculator.BigStep
import ShiftReduce.Proofs.Calculator.Language
import ShiftReduce.Proofs.Calculator.Safety

namespace ShiftReduce.Calculator

namespace Lexer

theorem diagnostics_report_ne_nil (message : String) (span : Span) (x : Lexer) :
    (x.report message span).diagnostics ≠ [] := by
  unfold report
  split
  · rename_i h
    intro hnil
    simp [isReported, hnil] at h
  · simp

end Lexer

variable {maxDepth : Nat} {c c' d : Config Lexer Ledger Value Span} {v : Value}

theorem diagnostics_fetched_ne_nil (h : c.scanner.diagnostics ≠ []) :
    ((machine maxDepth).fetched c).scanner.diagnostics ≠ [] := by
  cases hl : c.lookahead with
  | some t => rwa [Machine.fetched_of_some hl]
  | none =>
    rw [Machine.scanner_fetched_of_none hl]
    change c.scanner.next.2.diagnostics ≠ []
    rw [Lexer.diagnostics_next]
    simp [h]

theorem diagnostics_poised_ne_nil {s : State} {frames : List (Frame Value Span)}
    (h : c.scanner.diagnostics ≠ []) :
    ((machine maxDepth).poised c s frames).scanner.diagnostics ≠ [] := by
  rcases Machine.poised_cases (machine maxDepth) c s frames with hp | ⟨hp, -, -⟩
  · rw [hp]
    exact diagnostics_fetched_ne_nil h
  · rwa [hp]

def Noted (c : Config Lexer Ledger Value Span) : Prop :=
  c.stats.errors ≠ 0 ∨ c.mode ≠ .normal → c.scanner.diagnostics ≠ []

/-- The first error in a row is reported, and the others come when it has been. -/
theorem Recovers.noted {expected : List Terminal} (h : Noted c)
    (hr : (machine maxDepth).Recovers c expected (.ok c')) : Noted c' := by
  cases hr with
  | recovered items passed state catches room result =>
    intro _
    rw [result.scanner]
    split
    · exact Lexer.diagnostics_report_ne_nil _ _ _
    · rename_i hmode
      exact diagnostics_fetched_ne_nil (h (.inr hmode))

theorem Noted.acted {s : State} {r : RuleId} {frames : List (Frame Value Span)}
    {reply : Reply Ledger Value} (h : Noted c)
    (acted : (machine maxDepth).Acted c s r frames reply d) : Noted d := by
  intro herr
  rw [acted.scanner]
  refine diagnostics_poised_ne_nil (h (herr.imp ?_ ?_))
  · rw [acted.stats]
    simp
  · exact fun hmode => acted.mode ▸ hmode

theorem Noted.step (h : Noted c) (hs : (machine maxDepth).step c = .ok c') : Noted c' := by
  cases Machine.turn_of_ok hs with
  | shifted decides room result =>
    intro herr
    rw [result.scanner]
    change ((machine maxDepth).fetched c).scanner.diagnostics ≠ []
    refine diagnostics_fetched_ne_nil (h (herr.imp ?_ ?_))
    · rw [result.stats]
      simp
    · rw [result.mode]
      cases c.mode <;> simp [Mode.counted]
  | reduced d st decides reduces acted =>
    have hacted : Noted d := h.acted acted
    exact hacted
  | failed decides recovers => exact Recovers.noted h recovers
  | raised decides reduces acted raises recovers => exact Recovers.noted (h.acted acted) recovers
  | @resumed f s force phase top state careful fits =>
    intro herr
    rw [Machine.scanner_resynchronized]
    rw [Machine.stats_resynchronized, Machine.mode_resynchronized] at herr
    split at herr <;> rename_i hlooks
    · rw [if_pos hlooks]
      exact diagnostics_fetched_ne_nil (h (by simpa using herr))
    · rw [if_neg hlooks]
      exact h herr
  | discarded phase top state unfit more =>
    intro herr
    exact diagnostics_fetched_ne_nil (h (by simpa using herr))

/-- Whether a source has no diagnostics, and no token that would make one. -/
def Lexer.Spotless (x : Lexer) : Prop :=
  x.diagnostics = [] ∧ ∀ l ∈ x.lexemes, l.terminal ≠ Token.invalid.terminal

theorem Lexer.Spotless.next {x : Lexer} (h : x.Spotless) : x.next.2.Spotless := by
  obtain ⟨hnil, htokens⟩ := h
  rw [Spotless, diagnostics_next, hnil, List.append_nil]
  by_cases hend : x.next.1 = .endOfInput
  · rw [lexemes_of_end (next_next_of_end hend)]
    exact ⟨complaint_of_ne_invalid (by simp [hend]), by simp⟩
  · rw [lexemes_of_ne hend] at htokens
    have hhead := htokens _ List.mem_cons_self
    exact ⟨complaint_of_ne_invalid fun hinv => hhead (by rw [hinv]),
      fun l hl => htokens l (List.mem_cons_of_mem _ hl)⟩

theorem spotless_fetched (h : c.scanner.Spotless) :
    ((machine maxDepth).fetched c).scanner.Spotless := by
  cases hl : c.lookahead with
  | some t => rwa [Machine.fetched_of_some hl]
  | none =>
    rw [Machine.scanner_fetched_of_none hl]
    exact h.next

theorem spotless_poised {s : State} {frames : List (Frame Value Span)} (h : c.scanner.Spotless) :
    ((machine maxDepth).poised c s frames).scanner.Spotless := by
  rcases Machine.poised_cases (machine maxDepth) c s frames with hp | ⟨hp, -, -⟩
  · rw [hp]
    exact spotless_fetched h
  · rwa [hp]

theorem Spotless.step (h : c.stats.errors = 0 → c.scanner.Spotless)
    (hs : (machine maxDepth).step c = .ok c') (herrors : c'.stats.errors = 0) :
    c'.scanner.Spotless := by
  have hclean := h (Nat.le_zero.1 (herrors ▸ Machine.errors_le_of_step hs))
  have hfetched : ((machine maxDepth).fetched c).scanner.Spotless := spotless_fetched hclean
  cases Machine.turn_of_ok hs with
  | shifted decides room result =>
    rw [result.scanner]
    exact ⟨hfetched.1, (Lexer.lexemes_congr rfl rfl).symm ▸ hfetched.2⟩
  | reduced d st decides reduces acted =>
    rw [Machine.scanner_turned]
    change d.scanner.Spotless
    rw [acted.scanner]
    exact spotless_poised hclean
  | failed decides recovers => exact absurd herrors recovers.errors_ne_zero
  | raised decides reduces acted raises recovers => exact absurd herrors recovers.errors_ne_zero
  | resumed phase top state careful fits =>
    rw [Machine.scanner_resynchronized]
    split
    · exact hfetched
    · exact hclean
  | discarded phase top state unfit more => exact hfetched

theorem scanner_of_accepted (hs : (machine maxDepth).step c = .error ⟨.accepted v, d⟩) :
    ∃ s frames, d.scanner = ((machine maxDepth).poised c s frames).scanner := by
  obtain ⟨f, s, r, rule, frames, below, reply, -, -, acted, -, -⟩ := Machine.exists_accepted hs
  exact ⟨s, frames, acted.scanner⟩

section Accepted

variable {source : String} {bindings : Variables}
  (hr : (machine maxDepth).Reaches (beginning maxDepth source bindings) c)
  (hs : (machine maxDepth).step c = .error ⟨.accepted v, d⟩)
include hr hs

theorem errors_eq_zero_of_accepted (hd : d.scanner.diagnostics = []) : d.stats.errors = 0 := by
  have hnoted : Noted c := hr.preserves (fun h hs => h.step hs) (by simp [Noted, Machine.opening])
  obtain ⟨s, frames, hscanner⟩ := scanner_of_accepted hs
  rw [Machine.errors_of_accepted hs]
  by_contra hne
  exact diagnostics_poised_ne_nil (hnoted (.inl hne)) (hscanner ▸ hd)

theorem diagnostics_eq_nil_of_accepted (herrors : d.stats.errors = 0)
    (htokens : ∀ l ∈ (Lexer.ofString source).lexemes, l.terminal ≠ Token.invalid.terminal) :
    d.scanner.diagnostics = [] := by
  have hclean : c.stats.errors = 0 → c.scanner.Spotless :=
    hr.preserves (P := fun c => c.stats.errors = 0 → c.scanner.Spotless)
      (fun h hs => Spotless.step h hs) fun _ => ⟨rfl, htokens⟩
  obtain ⟨s, frames, hscanner⟩ := scanner_of_accepted hs
  rw [hscanner]
  exact (spotless_poised (hclean ((Machine.errors_of_accepted hs).symm.trans herrors))).1

end Accepted

section Evaluate

variable (maxDepth : Nat) (source : String) (bindings : Variables)

theorem isClean_ending {h : Halt Lexer Ledger Value Span ActionFault} :
    (ending h).isClean = true ↔ (∃ v, h.verdict = .accepted v) ∧
      h.config.scanner.diagnostics = [] ∧ h.config.actions.errors = [] := by
  simp only [Evaluation.isClean, ending, Bool.and_eq_true, List.isEmpty_reverse,
    List.isEmpty_iff, and_assoc]
  exact and_congr_left fun _ => decide_eq_true_iff.trans ofVerdict_eq_finished

variable {maxDepth source bindings} in
/-- The evaluation of a program that can be executed accepts it without a diagnostic and does what
its execution does. -/
theorem evaluate_of_executes {t : Tree Value Span} {out : List Statement} {vars : Variables}
    (hdepth : (Lexer.ofString source).lexemes.length + 3 ≤ maxDepth)
    (ht : t.Parses (Lexer.ofString source).lexemes) (hexec : Executes bindings t out vars) :
    ∃ v d, evaluate maxDepth source bindings = ending ⟨.accepted v, d⟩ ∧
      d.scanner.diagnostics = [] ∧ d.actions = ({ bindings } : Ledger).performed out vars := by
  obtain ⟨v, s, hmeaning⟩ := Executes.meaning (l := { bindings })
    (e := (machine maxDepth).gap (beginning maxDepth source bindings)) hexec
  obtain ⟨c, d, hc, hs, herrors, -, -, hact⟩ := accepts_of_parses (supply maxDepth)
    (x := Lexer.ofString source) rfl ht hmeaning hdepth
  have hvalid := ht.valid.terminal_ne (absent_checked Token.invalid.terminal (by decide))
    (by rw [ht.symbol]; simp)
  rw [ht.yield] at hvalid
  exact ⟨v, d, evaluate_of_reaches maxDepth source bindings (by omega) hc hs,
    diagnostics_eq_nil_of_accepted hc hs herrors hvalid, hact⟩

/-- A source is evaluated cleanly if and only if it is a program of the grammar and every statement
of it can be executed, and then the evaluation has the statements and leaves the variables that the
execution has. -/
theorem clean_iff_executes (hdepth : (Lexer.ofString source).lexemes.length + 3 ≤ maxDepth) :
    let w := (Lexer.ofString source).lexemes
    ((evaluate maxDepth source bindings).isClean = true ↔ Derivable (w.map Lexeme.terminal) ∧
      ∃ t out vars, t.Parses w ∧ Executes bindings t out vars) ∧
    ∀ t out vars, t.Parses w → Executes bindings t out vars →
      (evaluate maxDepth source bindings).statements = out ∧
        (evaluate maxDepth source bindings).bindings = vars := by
  intro w
  refine ⟨⟨?_, ?_⟩, ?_⟩
  · intro hclean
    obtain ⟨c, ⟨verdict, d⟩, hc, hs, heval⟩ := evaluate_ends maxDepth source bindings (by omega)
    rw [heval] at hclean
    obtain ⟨⟨v, hv⟩, hdiag, -⟩ := isClean_ending.1 hclean
    obtain rfl : verdict = .accepted v := hv
    obtain ⟨t, ht, -, -, s, hmeaning⟩ := parses_of_accepted (supply maxDepth) rfl
      Ledger.actions_ne_accept (fun l hl => Lexer.terminal_lexemes_ne_error hl) hc hs
      (errors_eq_zero_of_accepted hc hs hdiag)
    obtain ⟨out, vars, -, hexec⟩ := executes_of_meaning ht.valid
      (fun l hl => Lexer.carries_lexemes (ht.yield ▸ hl)) (by rw [ht.symbol]; simp) hmeaning
    exact ⟨Tree.derivable_iff.2 ⟨t, ht⟩, t, out, vars, ht, hexec⟩
  · rintro ⟨-, t, out, vars, ht, hexec⟩
    obtain ⟨v, d, heval, hdiag, hact⟩ := evaluate_of_executes hdepth ht hexec
    rw [heval]
    exact isClean_ending.2 ⟨⟨v, rfl⟩, hdiag, by rw [hact]; rfl⟩
  · intro t out vars ht hexec
    obtain ⟨v, d, heval, -, hact⟩ := evaluate_of_executes hdepth ht hexec
    simp [heval, ending, hact, Ledger.performed]

theorem clean_iff_executes_product :
    (Lexer.ofString "x = 2;\nx * 3;").lexemes.length + 3 ≤ 16 ∧
      ∃ t vars, t.Parses (Lexer.ofString "x = 2;\nx * 3;").lexemes ∧
        Executes .empty t [⟨⟨⟨0, 0⟩, ⟨0, 6⟩⟩, some 2⟩, ⟨⟨⟨1, 0⟩, ⟨1, 6⟩⟩, some 6⟩] vars := by
  have hdepth : (Lexer.ofString "x = 2;\nx * 3;").lexemes.length + 3 ≤ 16 := by decide +kernel
  obtain ⟨hclean, hresult⟩ := clean_iff_executes 16 "x = 2;\nx * 3;" .empty hdepth
  obtain ⟨-, t, out, vars, ht, hexec⟩ := hclean.1 (by decide +kernel)
  have hout : (evaluate 16 "x = 2;\nx * 3;" .empty).statements =
      [⟨⟨⟨0, 0⟩, ⟨0, 6⟩⟩, some 2⟩, ⟨⟨⟨1, 0⟩, ⟨1, 6⟩⟩, some 6⟩] := by decide +kernel
  exact ⟨hdepth, t, vars, ht, hout ▸ (hresult t out vars ht hexec).1 ▸ hexec⟩

end Evaluate

end ShiftReduce.Calculator
