import ShiftReduce.Proofs.Calculator.Annotations
import ShiftReduce.Proofs.Calculator.Budget
import ShiftReduce.Proofs.Machine.Congruence

namespace ShiftReduce.Calculator

/-- What a token is apart from where it stands. Characters that match no pattern are all one. -/
structure Gist where
  token : Option Token
  value : Value
  digits : Option (List Char)
deriving DecidableEq

def Part.gist (i : Part) : Gist where
  token := i.token
  value := i.value
  digits := if i.tooLarge then some i.text else none

def Error.unplaced : Error → Error
  | undefined name _ => undefined name {}
  | overflow _ => overflow {}
  | divisionByZero _ => divisionByZero {}
  | e => e

def Outcome.unplaced : Outcome → Outcome
  | stopped cause => stopped cause.unplaced
  | o => o

structure Resemble (e e' : Evaluation) : Prop where
  values : e'.values = e.values
  messages : e'.diagnostics.map Diagnostic.message = e.diagnostics.map Diagnostic.message
  errors : e'.errors.map Error.unplaced = e.errors.map Error.unplaced
  outcome : e'.outcome.unplaced = e.outcome.unplaced
  stats : e'.stats = e.stats
  bindings : e'.bindings = e.bindings

namespace Ledger

structure Resemble (l l' : Ledger) : Prop where
  bindings : l'.bindings = l.bindings
  values : l'.statements.map Statement.value = l.statements.map Statement.value
  errors : l'.errors.map Error.unplaced = l.errors.map Error.unplaced
  fatal : l'.fatal.map Error.unplaced = l.fatal.map Error.unplaced

def Similar : Answer → Answer → Prop :=
  Agrees (fun p q => q.control = p.control ∧ q.value = p.value ∧ p.state.Resemble q.state) Eq

variable {l l' : Ledger} {r r' : Reduction Value Span}

theorem Similar.bind {β : Type} (x : Except ActionFault β) {f g : β → Answer}
    (h : ∀ b, Similar (f b) (g b)) : Similar (x >>= f) (x >>= g) := by
  cases x with
  | error e => exact .error rfl
  | ok b => exact h b

theorem Resemble.pass (h : l.Resemble l') (given : Value) :
    Similar (l.pass given) (l'.pass given) := .ok ⟨rfl, rfl, h⟩

theorem Resemble.record (h : l.Resemble l') (span span' : Span) (n : Option Int64)
    (made : Value) : Similar (.ok (l.record span n made)) (.ok (l'.record span' n made)) :=
  .ok ⟨rfl, rfl, { h with values := congrArg (n :: ·) h.values }⟩

theorem Resemble.settle (h : l.Resemble l') (span span' : Span) (given : Value)
    (n : Option Int64) :
    Similar (.ok (l.settle span given n)) (.ok (l'.settle span' given n)) := by
  cases n with
  | some n => exact .ok ⟨rfl, rfl, h⟩
  | none => exact .ok ⟨rfl, rfl, { h with errors := congrArg (Error.overflow {} :: ·) h.errors }⟩

theorem arg_congr (h : r'.values = r.values) (i : Nat) : arg r' i = arg r i := by
  unfold arg
  rw [h]

theorem numberArg_congr (h : r'.values = r.values) (i : Nat) :
    numberArg r' i = numberArg r i := by
  unfold numberArg
  rw [arg_congr h]

theorem nameArg_congr (h : r'.values = r.values) (i : Nat) : nameArg r' i = nameArg r i := by
  unfold nameArg
  rw [arg_congr h]

section Apply

variable (h : l.Resemble l') (hr : r'.values = r.values) (given : Value)

include h hr

theorem similar_binary (op : Int64 → Int64 → Option Int64) :
    Similar (l.binary r given op) (l'.binary r' given op) := by
  unfold binary
  rw [numberArg_congr hr, numberArg_congr hr]
  exact .bind _ fun a => .bind _ fun b => h.settle _ _ given (op a b)

theorem similar_divide : Similar (l.divide r given) (l'.divide r' given) := by
  unfold divide
  rw [numberArg_congr hr, numberArg_congr hr]
  refine .bind _ fun b => ?_
  split
  · exact .ok ⟨rfl, rfl, { h with fatal := rfl }⟩
  · exact .bind _ fun a => h.settle _ _ given (Checked.div a b)

theorem similar_resolve : Similar (l.resolve r given) (l'.resolve r' given) := by
  unfold resolve
  rw [nameArg_congr hr, h.bindings]
  refine .bind _ fun name => ?_
  cases l.bindings.get? name with
  | some n => exact .ok ⟨rfl, rfl, h⟩
  | none =>
    have herrors := congrArg (Error.undefined name {} :: ·) h.errors
    exact .ok ⟨rfl, rfl, ⟨rfl, h.values, herrors, h.fatal⟩⟩

theorem similar_assign : Similar (l.assign r) (l'.assign r') := by
  unfold assign
  rw [nameArg_congr hr, numberArg_congr hr]
  refine .bind _ fun name => .bind _ fun n => ?_
  have hbound : Resemble { l with bindings := l.bindings.insert name n }
      { l' with bindings := l'.bindings.insert name n } :=
    { h with bindings := by rw [h.bindings] }
  exact hbound.record _ _ (some n) .nothing

/-- The semantic actions do not look at places. -/
theorem similar_apply (p : Production) : Similar (l.apply r given p) (l'.apply r' given p) := by
  cases p with
  | augmented => exact .error rfl
  | program | noStmts | moreStmts | exprOfTerm | termOfFactor | literal => exact h.pass given
  | exprStmt =>
    simp only [apply]
    rw [numberArg_congr hr]
    exact .bind _ fun n => h.record _ _ (some n) .nothing
  | assignment => exact similar_assign h hr
  | errorStmt => exact h.record _ _ none given
  | sum | difference | product => exact similar_binary h hr given _
  | quotient => exact similar_divide h hr given
  | reference => exact similar_resolve h hr given
  | parens =>
    simp only [apply]
    rw [arg_congr hr]
    exact .bind _ fun v => .ok ⟨rfl, rfl, h⟩
  | negation =>
    simp only [apply]
    rw [numberArg_congr hr]
    exact .bind _ fun n => h.settle _ _ given (Checked.neg n)

theorem similar_reduce (hid : r'.ruleId = r.ruleId) :
    Similar (Ledger.reduce r given l) (Ledger.reduce r' given l') := by
  unfold Ledger.reduce
  rw [hid]
  cases Production.ofRule? r.ruleId with
  | some p => exact similar_apply h hr given p
  | none => exact .error rfl

end Apply

end Ledger

section Sources

variable {source source' : List Char} {parts parts' : List Part} {k : Nat} {x y : Lexer}

theorem Part.complaint_eq_digits (i : Part) (k : Nat) :
    i.complaint.map (fun d => (k, d.message)) =
      i.gist.digits.toList.map fun text => (k, Lexer.oversized text) := by
  unfold complaint gist
  split <;> rfl

/-- What the lexer notes of a token does not depend on where it stands. -/
theorem remarks_eq_gist (parts : List Part) (k : Nat) : remarks parts k =
    (((parts.filter Part.isToken).map Part.gist)[k]?.elim [] fun g => g.digits.toList).map
      fun text => (k, Lexer.oversized text) := by
  rw [remarks, List.getElem?_map]
  cases (parts.filter Part.isToken)[k]? with
  | none => rfl
  | some i => exact i.complaint_eq_digits k

theorem remarks_congr (same : (parts.filter Part.isToken).map Part.gist =
    (parts'.filter Part.isToken).map Part.gist) (k : Nat) :
    remarks parts' k = remarks parts k := by
  rw [remarks_eq_gist, remarks_eq_gist, same]

/-- Neither does what it reads. -/
theorem next_congr (same : (parts.filter Part.isToken).map Part.gist =
    (parts'.filter Part.isToken).map Part.gist) (hx : StandsBehind source parts k x)
    (hy : StandsBehind source' parts' k y) :
    y.next.1.terminal = x.next.1.terminal ∧ y.next.2.value = x.next.2.value := by
  have hsame := congrArg (·[k]?) same
  have hreads := hx.reads
  have hreads' := hy.reads
  simp only [List.getElem?_map] at hsame
  cases htoken : (parts.filter Part.isToken)[k]? with
  | none =>
    have htoken' : (parts'.filter Part.isToken)[k]? = none := by
      rwa [htoken, Option.map_none, eq_comm, Option.map_eq_none_iff] at hsame
    rw [htoken] at hreads
    rw [htoken'] at hreads'
    exact ⟨hreads'.terminal.trans hreads.terminal.symm, hreads'.value.trans hreads.value.symm⟩
  | some i =>
    rw [htoken, Option.map_some, eq_comm, Option.map_eq_some_iff] at hsame
    obtain ⟨i', htoken', hgist⟩ := hsame
    have htokens : i'.token = i.token := congrArg Gist.token hgist
    have hvalues : i'.value = i.value := congrArg Gist.value hgist
    rw [htoken] at hreads
    rw [htoken'] at hreads'
    refine ⟨?_, hreads'.value.trans (hvalues.trans hreads.value.symm)⟩
    have hterminal := hreads'.terminal
    rw [htokens, hreads.terminal] at hterminal
    exact (Option.some.inj hterminal).symm

/-- Runs on two sources with the same tokens: the lexers have read as many of them and noted the
same on the same ones, and the ledgers have come to the same. -/
def layout (maxDepth : Nat) (h : Cut [] source parts) (h' : Cut [] source' parts')
    (same : (parts.filter Part.isToken).map Part.gist =
      (parts'.filter Part.isToken).map Part.gist) : (machine maxDepth).Congruence where
  scanners held x y := ∃ k notes, Annotated source parts held k notes x ∧
    Annotated source' parts' held k notes y ∧ y.value = x.value
  actors := Ledger.Resemble
  places _ _ := True
  next := by
    rintro x y ⟨k, notes, hx, hy, -⟩
    obtain ⟨hterminal, hvalue⟩ := next_congr same hx.stands hy.stands
    have hnext := hy.next
    rw [remarks_congr same, hterminal] at hnext
    exact ⟨hterminal, k + 1, _, hx.next, hnext, hvalue⟩
  value := by
    rintro t x y ⟨k, notes, hx, hy, hvalue⟩
    exact ⟨hvalue, k, notes, hx.take, hy.take, rfl⟩
  report := by
    rintro t x y message ⟨k, notes, hx, hy, hvalue⟩
    refine ⟨k, _, hx.report h message, hy.report h' message, ?_⟩
    exact (Lexer.value_report _ _ y).trans (hvalue.trans (Lexer.value_report _ _ x).symm)
  drop := by
    rintro t x y ⟨k, notes, hx, hy, hvalue⟩ ht
    exact ⟨k, notes, hx.drop ht, hy.drop ht, hvalue⟩
  span _ := trivial
  merge _ _ := trivial
  rename _ := rfl
  reduce := by
    intro r rule values spans spans' s s' l l' given _ _ hl
    change Ledger.Similar (Ledger.reduce ⟨r, rule, values, spans, s⟩ given l)
      (Ledger.reduce ⟨r, rule, values, spans', s'⟩ given l')
    apply Ledger.similar_reduce hl
    · rfl
    · rfl

theorem Ledger.Resemble.outcome {l l' : Ledger} (h : l.Resemble l')
    (v : Verdict Value ActionFault) :
    (Outcome.ofVerdict l'.fatal v).unplaced = (Outcome.ofVerdict l.fatal v).unplaced := by
  have hfatal := h.fatal
  cases v with
  | failed e =>
    cases e with
    | aborted =>
      simp only [Outcome.ofVerdict, Outcome.unplaced]
      cases hl : l.fatal <;> cases hl' : l'.fatal <;> simp_all
    | _ => rfl
  | _ => rfl

end Sources

section Evaluate

variable {source source' : String} {parts parts' : List Part}

theorem resemble_ending {h h' : Halt Lexer Ledger Value Span ActionFault}
    (hverdict : h'.verdict = h.verdict) (hledger : h.config.actions.Resemble h'.config.actions)
    (hmessages : h'.config.scanner.diagnostics.map Diagnostic.message =
      h.config.scanner.diagnostics.map Diagnostic.message)
    (hstats : h'.config.stats = h.config.stats) : Resemble (ending h) (ending h') where
  values := by
    simp only [Evaluation.values, ending, List.map_reverse]
    rw [hledger.values]
  messages := by
    simp only [ending, List.map_reverse]
    rw [hmessages]
  errors := by
    simp only [ending, List.map_reverse]
    rw [hledger.errors]
  outcome := by
    simp only [ending]
    rw [hverdict]
    exact hledger.outcome h.verdict
  stats := hstats
  bindings := hledger.bindings

/-- Layout does not matter: two sources whose tokens agree in what they are and in what they carry
are evaluated to the same, apart from places, whatever stands between their tokens. -/
theorem layout_independent (maxDepth : Nat) (bindings : Variables)
    (h : Cut [] source.toList parts) (h' : Cut [] source'.toList parts')
    (same : (parts.filter Part.isToken).map Part.gist =
      (parts'.filter Part.isToken).map Part.gist) :
    Resemble (evaluate maxDepth source bindings) (evaluate maxDepth source' bindings) := by
  rw [evaluate_eq_ending (Nat.le_max_left (fuel source.length) (fuel source'.length)),
    evaluate_eq_ending (Nat.le_max_right (fuel source.length) (fuel source'.length))]
  obtain ⟨hverdict, hrelates⟩ := (layout maxDepth h h' same).progress_ends
    (c := (machine maxDepth).init (Lexer.ofString source) { bindings })
    (d := (machine maxDepth).init (Lexer.ofString source') { bindings })
    ⟨0, [], .ofString h, .ofString h', rfl⟩ ⟨rfl, rfl, rfl, rfl⟩ rfl rfl
    (max (fuel source.length) (fuel source'.length))
  obtain ⟨k, notes, hx, hy, -⟩ := hrelates.scanner
  exact resemble_ending hverdict hrelates.actions (hy.messages.trans hx.messages.symm)
    hrelates.stats

/-- A variable without a value and a character that is no token, at the head of the source and
behind a comment. -/
theorem layout_independent_undefined :
    Cut [] "y;?".toList [⟨[], some .ident, ['y'], [';', '?']⟩,
      ⟨['y'], some .semicolon, [';'], ['?']⟩, ⟨['y', ';'], none, ['?'], []⟩] ∧
    Cut [] "#\ny;@".toList [⟨[], some .comment, ['#'], ['\n', 'y', ';', '@']⟩,
      ⟨['#'], some .whiteSpace, ['\n'], ['y', ';', '@']⟩,
      ⟨['#', '\n'], some .ident, ['y'], [';', '@']⟩,
      ⟨['#', '\n', 'y'], some .semicolon, [';'], ['@']⟩,
      ⟨['#', '\n', 'y', ';'], none, ['@'], []⟩] ∧
    Resemble (evaluate 10 "y;?" .empty) (evaluate 10 "#\ny;@" .empty) ∧
    (evaluate 10 "y;?" .empty).errors = [.undefined "y" ⟨⟨0, 0⟩, ⟨0, 1⟩⟩] ∧
    (evaluate 10 "#\ny;@" .empty).errors = [.undefined "y" ⟨⟨1, 0⟩, ⟨1, 1⟩⟩] ∧
    (evaluate 10 "y;?" .empty).diagnostics.map Diagnostic.span = [⟨⟨0, 1⟩, ⟨0, 2⟩⟩] ∧
    (evaluate 10 "#\ny;@" .empty).diagnostics.map Diagnostic.span = [⟨⟨1, 1⟩, ⟨1, 2⟩⟩] := by
  have hbare : Cut [] "y;?".toList [⟨[], some .ident, ['y'], [';', '?']⟩,
      ⟨['y'], some .semicolon, [';'], ['?']⟩, ⟨['y', ';'], none, ['?'], []⟩] :=
    .cons rfl (takes_iff.2 ⟨'y', _, rfl, rfl, rfl⟩) <|
      .cons rfl (takes_iff.2 ⟨';', _, rfl, rfl, rfl⟩) <|
      .cons rfl (takes_iff.2 ⟨'?', _, rfl, rfl, rfl⟩) (.nil _)
  have hlaid : Cut [] "#\ny;@".toList [⟨[], some .comment, ['#'], ['\n', 'y', ';', '@']⟩,
      ⟨['#'], some .whiteSpace, ['\n'], ['y', ';', '@']⟩,
      ⟨['#', '\n'], some .ident, ['y'], [';', '@']⟩,
      ⟨['#', '\n', 'y'], some .semicolon, [';'], ['@']⟩,
      ⟨['#', '\n', 'y', ';'], none, ['@'], []⟩] :=
    .cons rfl (takes_iff.2 ⟨'#', _, rfl, rfl, rfl⟩) <|
      .cons rfl (takes_iff.2 ⟨'\n', _, rfl, rfl, rfl⟩) <|
      .cons rfl (takes_iff.2 ⟨'y', _, rfl, rfl, rfl⟩) <|
      .cons rfl (takes_iff.2 ⟨';', _, rfl, rfl, rfl⟩) <|
      .cons rfl (takes_iff.2 ⟨'@', _, rfl, rfl, rfl⟩) (.nil _)
  exact ⟨hbare, hlaid, layout_independent 10 .empty hbare hlaid (by decide), by decide +kernel,
    by decide +kernel, by decide +kernel, by decide +kernel⟩

end Evaluate

end ShiftReduce.Calculator
