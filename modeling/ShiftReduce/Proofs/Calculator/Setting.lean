import ShiftReduce.Proofs.Calculator.Echo
import ShiftReduce.Proofs.Calculator.Safety
import ShiftReduce.Proofs.Machine.Lockstep

namespace ShiftReduce.Calculator

def told (ds : List Diagnostic) (span : Span) : Bool := ds.head?.any (·.span = span)

namespace Lexer

section Report

variable (message : String) (span : Span) (x : Lexer)

theorem diagnostics_report : (x.report message span).diagnostics =
      if told x.diagnostics span then x.diagnostics else ⟨message, span⟩ :: x.diagnostics := by
  unfold report
  change (if told x.diagnostics span = true then x else _).diagnostics = _
  split <;> rfl

end Report

/-- All diagnostics but those of the token read last are about what comes before that token. -/
def Timely (x : Lexer) : Prop :=
  ∃ new old, x.diagnostics = new ++ old ∧ (∀ d ∈ new, d.isLexical = true) ∧
    ∀ d ∈ old, d.span.start.Precedes x.span.start

/-- A diagnostic that the lexer did not make is not about the token read last. -/
theorem Timely.told_cons {x : Lexer} (h : x.Timely) {d : Diagnostic} {older : List Diagnostic}
    (hx : x.diagnostics = d :: older) (hd : ¬ d.isLexical = true) :
    told (d :: older) x.span = false ∧ told older x.span = false := by
  obtain ⟨new, old, hsplit, hnew, hold⟩ := h
  have hall : ∀ e ∈ d :: older, e.span ≠ x.span := by
    cases new with
    | nil =>
      rw [hx, List.nil_append] at hsplit
      intro e he hspan
      exact (hold e (hsplit ▸ he)).ne (by rw [hspan])
    | cons n new =>
      obtain ⟨rfl, -⟩ := List.cons.inj (hx.symm.trans hsplit)
      exact absurd (hnew d List.mem_cons_self) hd
  refine ⟨by simpa [told] using hall d List.mem_cons_self, ?_⟩
  cases older with
  | nil => rfl
  | cons e older => simpa [told] using hall e (by simp)

end Lexer

namespace Setting

variable (w : Setting)

structure Under (x y : Lexer) : Prop where
  rest : y.rest = x.rest ++ w.behind
  place : y.place = x.place.down w.lines
  value : y.value = x.value
  span : y.span = x.span.down w.lines

def shown (ds : List Diagnostic) : List Diagnostic := ds.map (·.down w.lines) ++ w.diagnostics

/-- The diagnostics of a run and those in its setting, with the modes. As long as the run before is
being recovered from, no error is reported there, so that the first report is missed. -/
inductive Heard : Mode → Mode → List Diagnostic → List Diagnostic → Prop
  | alike (mode : Mode) (ds : List Diagnostic) : Heard mode mode ds (w.shown ds)
  | deaf (n : Nat) {ds : List Diagnostic} (recovering : w.recovering = true)
      (lexical : ∀ d ∈ ds, d.isLexical = true) :
      Heard .normal (.recovering (n + 1)) ds (w.shown ds)
  | missed (mode : Mode) (newer : List Diagnostic) {d : Diagnostic} {older : List Diagnostic}
      (recovering : w.recovering = true) (syntactic : ¬ d.isLexical = true)
      (lexical : ∀ e ∈ older, e.isLexical = true) :
      Heard mode mode (newer ++ d :: older) (w.shown (newer ++ older))

structure Matches (f g : Frame Value Span) : Prop where
  state : g.state = f.state
  counts : ∀ X, entered f.state = some X → X ≠ .nonterminal Phrase.stmts.nonterminal →
    g.value = f.value ∧ g.span = f.span.down w.lines

/-- The configuration `d` has got as far in the setting as `c` by itself. -/
structure Replays (c d : Config Lexer Ledger Value Span) : Prop where
  lexer : w.Under c.scanner d.scanner
  heard : w.Heard c.mode d.mode c.scanner.diagnostics d.scanner.diagnostics
  frames : List.Forall₂ w.Matches c.stack.items d.stack.items
  lookahead : d.lookahead = c.lookahead
  phase : d.phase = c.phase
  actions : d.actions = w.ledgerOf c.actions

structure Closes (h h' : Halt Lexer Ledger Value Span ActionFault) : Prop where
  verdict : h'.verdict = h.verdict ∨ ∃ a b, h.verdict = .accepted a ∧ h'.verdict = .accepted b
  heard : ∃ mode mode', w.Heard mode mode' h.config.scanner.diagnostics
    h'.config.scanner.diagnostics
  actions : h'.config.actions = w.ledgerOf h.config.actions

variable {w}

section Diagnostics

variable {x y : Lexer}

theorem told_shown (ds : List Diagnostic) (span : Span) :
    told (w.shown ds) (span.down w.lines) = told ds span := by
  cases ds with
  | nil =>
    have habove := w.above
    change told w.diagnostics _ = false
    cases hw : w.diagnostics with
    | nil => rfl
    | cons d ds =>
      rw [hw] at habove
      have hline := habove d List.mem_cons_self
      simp only [told, List.head?_cons, Option.any_some, decide_eq_false_iff_not]
      intro hspan
      rw [hspan] at hline
      simp only [Span.down, Position.down] at hline
      omega
  | cons d ds =>
    have hiff : d.span.down w.lines = span.down w.lines ↔ d.span = span :=
      ⟨Span.down_injective, congrArg _⟩
    simp only [told, shown, List.map_cons, List.cons_append, List.head?_cons, Option.any_some,
      Diagnostic.down, hiff]

/-- Neither run is the only one in which nothing was shifted since an error. -/
theorem Heard.stalled_iff {mode mode' : Mode} {ds ds' : List Diagnostic}
    (h : w.Heard mode mode' ds ds') : mode' = .recovering 0 ↔ mode = .recovering 0 := by
  cases h with
  | alike | missed => exact Iff.rfl
  | deaf => simp

theorem Heard.counted {mode mode' : Mode} {ds ds' : List Diagnostic}
    (h : w.Heard mode mode' ds ds') : w.Heard mode.counted mode'.counted ds ds' := by
  cases h with
  | alike => exact .alike _ _
  | missed _ _ recovering syntactic lexical => exact .missed _ _ recovering syntactic lexical
  | deaf n recovering lexical =>
    simp only [Mode.counted]
    split
    · exact .alike _ _
    · exact .deaf (n + 1) recovering lexical

/-- Behind a run that was not being recovered from everything is heard. -/
theorem Heard.of_not_recovering {mode mode' : Mode} {ds ds' : List Diagnostic}
    (h : w.Heard mode mode' ds ds') (hw : w.recovering = false) :
    mode' = mode ∧ ds' = w.shown ds := by
  cases h with
  | alike => exact ⟨rfl, rfl⟩
  | deaf n recovering => simp [hw] at recovering
  | missed mode newer recovering => simp [hw] at recovering

/-- At most the first report of all is missing, and only if the run before was being recovered
from. -/
theorem Heard.exists_shown {mode mode' : Mode} {ds ds' : List Diagnostic}
    (h : w.Heard mode mode' ds ds') : ∃ es, ds' = w.shown es ∧ (es = ds ∨
      w.recovering = true ∧ es.reverse = ds.reverse.eraseP fun d => !d.isLexical) := by
  cases h with
  | alike | deaf => exact ⟨ds, rfl, .inl rfl⟩
  | @missed _ newer d older recovering syntactic lexical =>
    have holder : ∀ e ∈ older.reverse, ¬ (!e.isLexical) = true := fun e he => by
      simp [lexical e (List.mem_reverse.1 he)]
    have herase : List.eraseP (fun d => !d.isLexical) (d :: newer.reverse) = newer.reverse :=
      List.eraseP_cons_of_pos (by simpa using syntactic)
    refine ⟨newer ++ older, rfl, .inr ⟨recovering, ?_⟩⟩
    rw [List.reverse_append, List.reverse_append, List.reverse_cons, List.append_assoc,
      List.eraseP_append_right _ holder, List.singleton_append, herase]

/-- What the lexer complains about is heard in any mode. -/
theorem Heard.lexical {mode mode' : Mode} {ds ds' new : List Diagnostic}
    (h : w.Heard mode mode' ds ds') (hnew : ∀ d ∈ new, d.isLexical = true) :
    w.Heard mode mode' (new ++ ds) (new.map (·.down w.lines) ++ ds') := by
  have hshown (ds : List Diagnostic) :
      new.map (·.down w.lines) ++ w.shown ds = w.shown (new ++ ds) := by
    simp [shown]
  cases h with
  | alike =>
    rw [hshown]
    exact .alike _ _
  | deaf n recovering lexical =>
    rw [hshown]
    refine .deaf n recovering fun d hd => ?_
    rcases List.mem_append.1 hd with hd | hd
    · exact hnew d hd
    · exact lexical d hd
  | missed _ newer recovering syntactic lexical =>
    rw [hshown, ← List.append_assoc, ← List.append_assoc]
    exact .missed _ _ recovering syntactic lexical

/-- When an error has been answered both runs are in the same mode, and at most the first report
has been missed. -/
theorem Heard.reported {mode mode' : Mode} (h : w.Heard mode mode' x.diagnostics y.diagnostics)
    (hspan : y.span = x.span.down w.lines) {message : String}
    (hmessage : ∀ span, ¬ Diagnostic.isLexical ⟨message, span⟩ = true)
    (htimely : mode = .normal → x.Timely) :
    w.Heard (.recovering 0) (.recovering 0)
      (if mode = .normal then x.report message x.span else x).diagnostics
      (if mode' = .normal then y.report message y.span else y).diagnostics := by
  generalize hx : x.diagnostics = ds at h
  generalize hy : y.diagnostics = ds' at h
  cases h with
  | alike =>
    split
    · rw [Lexer.diagnostics_report, Lexer.diagnostics_report, hx, hy, hspan, told_shown]
      split
      · exact .alike _ _
      · exact .alike _ (⟨message, x.span⟩ :: ds)
    · rw [hx, hy]
      exact .alike _ _
  | deaf n recovering lexical =>
    rw [if_pos rfl, if_neg (by simp), Lexer.diagnostics_report, hx, hy]
    split
    · exact .alike _ _
    · exact .missed _ [] recovering (hmessage _) lexical
  | @missed _ newer d older recovering syntactic lexical =>
    split
    · rename_i hmode
      -- The lexer looks at the newest diagnostic only. Where the other run has missed that one,
      -- neither it nor the one before it is about the current token.
      have htold : told (newer ++ d :: older) x.span = told (newer ++ older) x.span := by
        cases newer with
        | nil =>
          obtain ⟨hd, holder⟩ := (htimely hmode).told_cons hx syntactic
          rw [List.nil_append, List.nil_append, hd, holder]
        | cons => rfl
      rw [Lexer.diagnostics_report, Lexer.diagnostics_report, hx, hy, hspan, told_shown, htold]
      split
      · exact .missed _ _ recovering syntactic lexical
      · exact .missed _ (⟨message, x.span⟩ :: newer) recovering syntactic lexical
    · rw [hx, hy]
      exact .missed _ _ recovering syntactic lexical

end Diagnostics

end Setting

end ShiftReduce.Calculator
