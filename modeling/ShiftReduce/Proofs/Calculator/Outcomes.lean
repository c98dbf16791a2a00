import ShiftReduce.Proofs.Calculator.Tally

namespace ShiftReduce.Calculator

def EndsStatement (w : Lexemes) : Prop := ∃ l ∈ w.getLast?, isSemicolon l = true

theorem not_endsStatement_of_plain {cur : Lexemes} (w : Lexemes) (hne : cur ≠ [])
    (hplain : ∀ l ∈ cur, isSemicolon l = false) : ¬EndsStatement (w ++ cur) := by
  rintro ⟨l, hl, hsemi⟩
  rw [List.getLast?_append_of_ne_nil _ hne] at hl
  simp [hplain l (List.mem_of_getLast? hl)] at hsemi

theorem endsStatement_entries {entries : List Entry} (h : ∀ e ∈ entries, e.Sound) :
    entries.flatMap Entry.tokens = [] ∨ EndsStatement (entries.flatMap Entry.tokens) := by
  rcases List.eq_nil_or_concat entries with rfl | ⟨init, e, rfl⟩
  · exact Or.inl rfl
  · refine Or.inr ⟨e.semicolon, ?_, (h e (by simp)).closed⟩
    simp [List.flatMap_append, Entry.tokens]

section Evaluate

variable (maxDepth : Nat) (source : String) (bindings : Variables)

/-- Some quotient with the divisor zero is reduced in an evaluation. -/
def MeetsZero : Prop := ∃ c,
  (machine maxDepth).Reaches (beginning maxDepth source bindings) c ∧ DividesByZero maxDepth c

variable {maxDepth source bindings}

/-- A quotient with the divisor zero stops the evaluation. -/
theorem MeetsZero.stops (h : MeetsZero maxDepth source bindings) (hd : 0 < maxDepth) : ∃ span,
    (evaluate maxDepth source bindings).outcome = .stopped (.divisionByZero span) := by
  obtain ⟨c, hc, f, s, frames, below, answer, decides, reduces, hzero⟩ := h
  have hreply := reduces.reply
  have hdivide : (machine maxDepth).actions.reduce ((machine maxDepth).reduction c
      Production.quotient.ruleId Production.quotient.rule frames) ((machine maxDepth).given frames)
      c.actions = .ok _ := Ledger.divide_of_zero c.actions ((machine maxDepth).given frames) hzero
  obtain rfl := hreply.symm.trans hdivide
  obtain ⟨d, acted, hstep⟩ := Machine.step_of_answer decides reduces
  have hhalt : (machine maxDepth).step c = .error ⟨.failed .aborted, d⟩ := hstep
  have hcause := congrArg Ledger.fatal acted.actions
  have heval := congrArg Evaluation.outcome
    (evaluate_of_reaches maxDepth source bindings hd hc hhalt)
  simp only [ending, Outcome.ofVerdict, hcause, Option.getD_some] at heval
  exact ⟨_, heval⟩

variable (maxDepth source bindings)

/-- The ways in which an evaluation can end. Without a division by zero and with room enough it
depends on the last token. -/
theorem outcome_cases (hd : 0 < maxDepth) :
    let w := (Lexer.ofString source).lexemes
    let outcome := (evaluate maxDepth source bindings).outcome
    outcome = .finished ∧ (w = [] ∨ EndsStatement w) ∨
      outcome = .stopped (.parse .unexpectedEnd) ∧ w ≠ [] ∧ ¬EndsStatement w ∨
      (∃ span, outcome = .stopped (.divisionByZero span)) ∧ MeetsZero maxDepth source bindings ∨
      outcome = .stopped (.parse (.stackOverflow maxDepth)) ∧ maxDepth < w.length + 3 := by
  obtain ⟨c, h, entries, cur, failure, hc, -, heval, htally, hgoes⟩ :=
    evaluate_goes maxDepth source bindings hd
  have houtcome := congrArg Evaluation.outcome heval
  have hw := htally.tokens
  dsimp only
  generalize (Lexer.ofString source).lexemes = w at hw hgoes ⊢
  cases hgoes with
  | accepted read rest =>
    rw [read, rest, List.append_nil, List.append_nil] at hw
    exact Or.inl ⟨houtcome, hw ▸ endsStatement_entries htally.booked.sound⟩
  | unfinished read plain rest verdict =>
    rw [rest, List.append_nil] at hw
    simp only [ending, verdict, Outcome.ofVerdict] at houtcome
    refine Or.inr (Or.inl ⟨houtcome, ?_, hw ▸ not_endsStatement_of_plain _ read plain⟩)
    rintro rfl
    exact read (List.append_eq_nil_iff.1 hw).2
  | divided divides verdict cause =>
    simp only [ending, verdict, Outcome.ofVerdict, cause, Option.getD_some] at houtcome
    exact Or.inr (Or.inr (Or.inl ⟨⟨_, houtcome⟩, c, hc, divides⟩))
  | full short verdict =>
    simp only [ending, verdict, Outcome.ofVerdict] at houtcome
    exact Or.inr (Or.inr (Or.inr ⟨houtcome, short⟩))

/-- How an evaluation ends. It is never cornered by an error and never aborted without a cause, and
with room for three frames more than there are tokens the stack does not overflow: then it stops at
a division by zero if it comes to one, and otherwise the last token tells whether the program is
finished, whatever errors it has. -/
theorem outcome_of_last :
    (evaluate maxDepth source bindings).outcome ≠ .stopped (.parse .unrecoverable) ∧
    (evaluate maxDepth source bindings).outcome ≠ .stopped (.parse .aborted) ∧
    ((Lexer.ofString source).lexemes.length + 3 ≤ maxDepth →
      (∀ limit, (evaluate maxDepth source bindings).outcome ≠
        .stopped (.parse (.stackOverflow limit))) ∧
      ((∃ span, (evaluate maxDepth source bindings).outcome =
          .stopped (.divisionByZero span)) ↔ MeetsZero maxDepth source bindings) ∧
      ((evaluate maxDepth source bindings).outcome = .finished ↔
        ¬MeetsZero maxDepth source bindings ∧
          ((Lexer.ofString source).lexemes = [] ∨ EndsStatement (Lexer.ofString source).lexemes)) ∧
      ((evaluate maxDepth source bindings).outcome = .stopped (.parse .unexpectedEnd) ↔
        ¬MeetsZero maxDepth source bindings ∧ (Lexer.ofString source).lexemes ≠ [] ∧
          ¬EndsStatement (Lexer.ofString source).lexemes)) := by
  by_cases hd : maxDepth = 0
  · subst hd
    simp [evaluate_of_zero]
  have hpos := Nat.pos_of_ne_zero hd
  have hstops (h : MeetsZero maxDepth source bindings) := h.stops hpos
  have hcases := outcome_cases maxDepth source bindings hpos
  dsimp only at hcases
  generalize (evaluate maxDepth source bindings).outcome = outcome at hstops hcases ⊢
  rcases hcases with ⟨rfl, hlast⟩ | ⟨rfl, hne, hlast⟩ | ⟨⟨span, rfl⟩, hzero⟩ | ⟨rfl, hshort⟩
  · have hnone : ¬MeetsZero maxDepth source bindings := fun h => by simpa using hstops h
    have hended : ¬((Lexer.ofString source).lexemes ≠ [] ∧
        ¬EndsStatement (Lexer.ofString source).lexemes) := by tauto
    simp [hnone, hlast, hended]
  · have hnone : ¬MeetsZero maxDepth source bindings := fun h => by simpa using hstops h
    simp [hnone, hlast, hne]
  · simp [hzero]
  · refine ⟨by simp, by simp, fun hroom => ?_⟩
    omega

/-- An undefined variable does not matter for how this program ends. -/
theorem outcome_of_last_unfinished :
    (Lexer.ofString "x = 2; y 1; x").lexemes.length + 3 ≤ 11 ∧
      (evaluate 11 "x = 2; y 1; x" .empty).outcome = .stopped (.parse .unexpectedEnd) ∧
      ¬MeetsZero 11 "x = 2; y 1; x" .empty := by
  have hroom : (Lexer.ofString "x = 2; y 1; x").lexemes.length + 3 ≤ 11 := by decide +kernel
  have hend : (evaluate 11 "x = 2; y 1; x" .empty).outcome = .stopped (.parse .unexpectedEnd) := by
    decide +kernel
  obtain ⟨-, -, hends⟩ := outcome_of_last 11 "x = 2; y 1; x" .empty
  exact ⟨hroom, hend, ((hends hroom).2.2.2.1 hend).1⟩

end Evaluate

end ShiftReduce.Calculator
