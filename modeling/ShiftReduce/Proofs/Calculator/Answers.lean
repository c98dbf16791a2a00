import Mathlib.Data.List.Forall2
import ShiftReduce.Calculator.Semantics
import ShiftReduce.Proofs.Calculator.Shape

namespace ShiftReduce.Calculator

def expressions : List Symbol :=
  [Phrase.expr, .term, .factor].map fun a => .nonterminal a.nonterminal

def numeric : List Symbol := .terminal Token.number.terminal :: expressions

/-- Whether a value is one that a symbol can carry. -/
structure Carries (X : Symbol) (v : Value) : Prop where
  number : X ∈ numeric → ∃ n, v = .number n
  name : X = .terminal Token.ident.terminal → ∃ name, v = .ident name

theorem Carries.of_plain {X : Symbol} (v : Value) (hn : X ∉ numeric)
    (hi : X ≠ .terminal Token.ident.terminal) : Carries X v :=
  ⟨fun h => absurd h hn, fun h => absurd h hi⟩

theorem Carries.of_number {X : Symbol} (n : Int64) (hi : X ≠ .terminal Token.ident.terminal) :
    Carries X (.number n) :=
  ⟨fun _ => ⟨n, rfl⟩, fun h => absurd h hi⟩

abbrev CarriesAll (Xs : List Symbol) (vs : List Value) : Prop := List.Forall₂ Carries Xs vs

theorem CarriesAll.value {Xs : List Symbol} {vs : List Value} (h : CarriesAll Xs vs) {i : Nat}
    {X : Symbol} (hX : Xs[i]? = some X) : ∃ v, vs[i]? = some v ∧ Carries X v := by
  induction h generalizing i with
  | nil => simp at hX
  | cons hcarries _ ih =>
    cases i with
    | zero =>
      obtain rfl := Option.some.inj hX
      exact ⟨_, rfl, hcarries⟩
    | succ i => exact ih hX

theorem CarriesAll.number {Xs : List Symbol} {vs : List Value} (h : CarriesAll Xs vs) (i : Nat)
    {X : Symbol} (hX : Xs[i]? = some X) (hn : X ∈ numeric) : ∃ n, vs[i]? = some (.number n) := by
  obtain ⟨v, hv, hcarries⟩ := h.value hX
  obtain ⟨n, rfl⟩ := hcarries.number hn
  exact ⟨n, hv⟩

theorem CarriesAll.name {Xs : List Symbol} {vs : List Value} (h : CarriesAll Xs vs) (i : Nat)
    (hX : Xs[i]? = some (.terminal Token.ident.terminal)) :
    ∃ name, vs[i]? = some (.ident name) := by
  obtain ⟨v, hv, hcarries⟩ := h.value hX
  obtain ⟨name, rfl⟩ := hcarries.name rfl
  exact ⟨name, hv⟩

def Error.span? : Error → Option Span
  | undefined _ span | overflow span | divisionByZero span => some span
  | tables _ | parse _ => none

/-- The productions that end a statement. -/
def closing : List Production := [.exprStmt, .assignment, .errorStmt]

namespace Ledger

section Answers

variable {r : Reduction Value Span} {i : Nat} {v : Value} {a b n : Int64} {name : String}

theorem arg_eq (h : r.values[i]? = some v) : arg r i = .ok v := by
  simp [arg, h, indexed, Except.mapError]

theorem numberArg_eq (h : r.values[i]? = some (.number n)) : numberArg r i = .ok n := by
  simp [numberArg, arg_eq h, bind, Except.bind]

theorem nameArg_eq (h : r.values[i]? = some (.ident name)) : nameArg r i = .ok name := by
  simp [nameArg, arg_eq h, bind, Except.bind]

variable (l : Ledger) (given : Value)

theorem apply_exprStmt (h : r.values[0]? = some (.number n)) :
    l.apply r given .exprStmt = .ok (l.record r.span (some n) .nothing) := by
  simp [apply, numberArg_eq h, bind, Except.bind]

theorem assign_eq (hname : r.values[0]? = some (.ident name))
    (hn : r.values[2]? = some (.number n)) : l.assign r =
      .ok ({ l with bindings := l.bindings.insert name n }.record r.span (some n) .nothing) := by
  simp [assign, nameArg_eq hname, numberArg_eq hn, bind, Except.bind]

theorem binary_eq (ha : r.values[0]? = some (.number a)) (hb : r.values[2]? = some (.number b))
    (op : Int64 → Int64 → Option Int64) :
    l.binary r given op = .ok (l.settle r.span given (op a b)) := by
  simp [binary, numberArg_eq ha, numberArg_eq hb, bind, Except.bind]

theorem divide_of_zero (hb : r.values[2]? = some (.number 0)) : l.divide r given =
    .ok ⟨.abort, given, { l with fatal := some (.divisionByZero r.span) }, []⟩ := by
  simp [divide, numberArg_eq hb, bind, Except.bind]

theorem divide_of_ne (ha : r.values[0]? = some (.number a))
    (hb : r.values[2]? = some (.number b)) (hne : b ≠ 0) :
    l.divide r given = .ok (l.settle r.span given (Checked.div a b)) := by
  simp [divide, numberArg_eq ha, numberArg_eq hb, hne, bind, Except.bind]

theorem resolve_of_some (hname : r.values[0]? = some (.ident name))
    (hget : l.bindings.get? name = some n) :
    l.resolve r given = .ok { value := .number n, state := l } := by
  simp [resolve, nameArg_eq hname, hget, bind, Except.bind]

theorem resolve_of_none (hname : r.values[0]? = some (.ident name))
    (hget : l.bindings.get? name = none) : l.resolve r given =
      .ok ⟨.raise, given, { l with errors := .undefined name r.span :: l.errors }, []⟩ := by
  simp [resolve, nameArg_eq hname, hget, bind, Except.bind]

theorem apply_parens (h : r.values[1]? = some v) :
    l.apply r given .parens = .ok { value := v, state := l } := by
  simp [apply, arg_eq h, bind, Except.bind]

theorem apply_negation (h : r.values[1]? = some (.number n)) :
    l.apply r given .negation = .ok (l.settle r.span given (Checked.neg n)) := by
  simp [apply, numberArg_eq h, bind, Except.bind]

/-- A number in range goes on as the value of an expression, and any other result gives the
statement up. -/
theorem settle_carries (span : Span) (n : Option Int64) {X : Symbol}
    (hX : X ≠ .terminal Token.ident.terminal)
    (h : (l.settle span given n).control = .proceed) :
    Carries X (l.settle span given n).value := by
  cases n with
  | none => simp [settle] at h
  | some n => exact .of_number n hX

end Answers

/-- The semantic action of a production understands the values that its right-hand side carries,
and answers with a value that its left-hand side carries. -/
theorem reduce_carries {p : Production} (hp : p ≠ .augmented) {r : Reduction Value Span}
    (hr : r.ruleId = p.ruleId) (hv : CarriesAll p.rule.rhs r.values) (given : Value)
    (hg : ∀ v, r.values[0]? = some v → given = v) (l : Ledger) :
    ∃ reply, reduce r given l = .ok reply ∧
      (reply.control = .proceed → Carries (.nonterminal p.rule.lhs) reply.value) := by
  rw [reduce, hr, Production.ofRule?_ruleId]
  cases p with
  | augmented => exact absurd rfl hp
  | program | noStmts | moreStmts | errorStmt =>
    exact ⟨_, rfl, fun _ => .of_plain _ (by decide) (by decide)⟩
  | exprOfTerm | termOfFactor | literal =>
    obtain ⟨n, hn⟩ := hv.number 0 rfl (by decide)
    obtain rfl := hg _ hn
    exact ⟨_, rfl, fun _ => .of_number n (by decide)⟩
  | exprStmt =>
    obtain ⟨n, hn⟩ := hv.number 0 rfl (by decide)
    exact ⟨_, apply_exprStmt l given hn, fun _ => .of_plain _ (by decide) (by decide)⟩
  | assignment =>
    obtain ⟨name, hname⟩ := hv.name 0 rfl
    obtain ⟨n, hn⟩ := hv.number 2 rfl (by decide)
    exact ⟨_, assign_eq l hname hn, fun _ => .of_plain _ (by decide) (by decide)⟩
  | sum | difference | product =>
    obtain ⟨a, ha⟩ := hv.number 0 rfl (by decide)
    obtain ⟨b, hb⟩ := hv.number 2 rfl (by decide)
    exact ⟨_, binary_eq l given ha hb _, settle_carries l given _ _ (by decide)⟩
  | quotient =>
    obtain ⟨a, ha⟩ := hv.number 0 rfl (by decide)
    obtain ⟨b, hb⟩ := hv.number 2 rfl (by decide)
    by_cases hzero : b = 0
    · subst hzero
      exact ⟨_, divide_of_zero l given hb, fun h => by simp at h⟩
    · exact ⟨_, divide_of_ne l given ha hb hzero, settle_carries l given _ _ (by decide)⟩
  | reference =>
    obtain ⟨name, hname⟩ := hv.name 0 rfl
    cases hget : l.bindings.get? name with
    | some n => exact ⟨_, resolve_of_some l given hname hget, fun _ => .of_number n (by decide)⟩
    | none => exact ⟨_, resolve_of_none l given hname hget, fun h => by simp at h⟩
  | parens =>
    obtain ⟨n, hn⟩ := hv.number 1 rfl (by decide)
    exact ⟨_, apply_parens l given hn, fun _ => .of_number n (by decide)⟩
  | negation =>
    obtain ⟨n, hn⟩ := hv.number 1 rfl (by decide)
    exact ⟨_, apply_negation l given hn, settle_carries l given _ _ (by decide)⟩

section Effect

section Args

variable {r : Reduction Value Span} {i : Nat} {v : Value} {n : Int64} {name : String}

theorem arg_eq_ok (h : arg r i = .ok v) : r.values[i]? = some v := by
  unfold arg at h
  cases hv : r.values[i]? with
  | none => simp [hv, indexed, Except.mapError] at h
  | some w => simpa [hv, indexed, Except.mapError] using h

theorem numberArg_eq_ok (h : numberArg r i = .ok n) : r.values[i]? = some (.number n) := by
  unfold numberArg at h
  cases ha : arg r i with
  | error e => simp [ha, bind, Except.bind] at h
  | ok v =>
    rw [arg_eq_ok ha]
    cases v <;> simp_all [bind, Except.bind]

theorem nameArg_eq_ok (h : nameArg r i = .ok name) : r.values[i]? = some (.ident name) := by
  unfold nameArg at h
  cases ha : arg r i with
  | error e => simp [ha, bind, Except.bind] at h
  | ok v =>
    rw [arg_eq_ok ha]
    cases v <;> simp_all [bind, Except.bind]

theorem exists_of_bind {β γ ε : Type} {x : Except ε β} {f : β → Except ε γ} {y : γ}
    (h : (x >>= f) = .ok y) : ∃ b, x = .ok b ∧ f b = .ok y := by
  cases x with
  | error e => simp [bind, Except.bind] at h
  | ok b => exact ⟨b, rfl, h⟩

end Args

variable (l : Ledger) (r : Reduction Value Span) (given : Value)

/-- What a semantic action does to the ledger, by the production that it is called for. Only the
end of a statement is recorded, and what goes wrong before concerns the phrase at hand. -/
inductive Effect : Production → Reply Ledger Value → Prop
  | passed {p : Production} (v : Value) (inner : p ∉ closing) :
      Effect p { value := v, state := l }
  | recorded {n : Int64} (value : r.values[0]? = some (.number n)) :
      Effect .exprStmt (l.record r.span (some n) .nothing)
  | assigned {name : String} {n : Int64} (target : r.values[0]? = some (.ident name))
      (value : r.values[2]? = some (.number n)) :
      Effect .assignment
        ({ l with bindings := l.bindings.insert name n }.record r.span (some n) .nothing)
  | skipped : Effect .errorStmt (l.record r.span none given)
  | raised {p : Production} {e : Error} (v : Value)
      (inner : .nonterminal p.rule.lhs ∈ expressions) (place : e.span? = some r.span) :
      Effect p ⟨.raise, v, { l with errors := e :: l.errors }, []⟩
  | aborted (v : Value) (zero : r.values[2]? = some (.number 0)) :
      Effect .quotient ⟨.abort, v, { l with fatal := some (.divisionByZero r.span) }, []⟩

variable {l r given} {p : Production}

theorem settle_effect (hclosing : p ∉ closing) (hinner : .nonterminal p.rule.lhs ∈ expressions)
    (n : Option Int64) : Effect l r given p (l.settle r.span given n) := by
  cases n with
  | some n => exact .passed _ hclosing
  | none => exact .raised given hinner rfl

theorem binary_effect (hclosing : p ∉ closing) (hinner : .nonterminal p.rule.lhs ∈ expressions)
    {op : Int64 → Int64 → Option Int64} {reply : Reply Ledger Value}
    (h : l.binary r given op = .ok reply) : Effect l r given p reply := by
  obtain ⟨a, -, h⟩ := exists_of_bind h
  obtain ⟨b, -, h⟩ := exists_of_bind h
  obtain rfl := Except.ok.inj h
  exact settle_effect hclosing hinner _

theorem divide_effect {reply : Reply Ledger Value} (h : l.divide r given = .ok reply) :
    Effect l r given .quotient reply := by
  obtain ⟨b, hb, h⟩ := exists_of_bind h
  split at h
  · rename_i hzero
    obtain rfl := Except.ok.inj h
    exact .aborted given (by rw [numberArg_eq_ok hb, hzero])
  · obtain ⟨a, -, h⟩ := exists_of_bind h
    obtain rfl := Except.ok.inj h
    exact settle_effect (by decide) (by decide) _

theorem resolve_effect {reply : Reply Ledger Value} (h : l.resolve r given = .ok reply) :
    Effect l r given .reference reply := by
  obtain ⟨name, -, h⟩ := exists_of_bind h
  split at h
  · obtain rfl := Except.ok.inj h
    exact .passed _ (by decide)
  · obtain rfl := Except.ok.inj h
    exact .raised given (by decide) rfl

theorem assign_effect {reply : Reply Ledger Value} (h : l.assign r = .ok reply) :
    Effect l r given .assignment reply := by
  obtain ⟨name, hname, h⟩ := exists_of_bind h
  obtain ⟨n, hn, h⟩ := exists_of_bind h
  obtain rfl := Except.ok.inj h
  exact .assigned (nameArg_eq_ok hname) (numberArg_eq_ok hn)

theorem apply_effect {reply : Reply Ledger Value} (h : l.apply r given p = .ok reply) :
    Effect l r given p reply := by
  cases p with
  | augmented => simp [apply] at h
  | program | noStmts | moreStmts | exprOfTerm | termOfFactor | literal =>
    obtain rfl := Except.ok.inj h
    exact .passed _ (by decide)
  | exprStmt =>
    obtain ⟨n, hn, h⟩ := exists_of_bind h
    obtain rfl := Except.ok.inj h
    exact .recorded (numberArg_eq_ok hn)
  | assignment => exact assign_effect h
  | errorStmt =>
    obtain rfl := Except.ok.inj h
    exact .skipped
  | sum | difference | product => exact binary_effect (by decide) (by decide) h
  | quotient => exact divide_effect h
  | reference => exact resolve_effect h
  | parens =>
    obtain ⟨v, -, h⟩ := exists_of_bind h
    obtain rfl := Except.ok.inj h
    exact .passed _ (by decide)
  | negation =>
    obtain ⟨n, -, h⟩ := exists_of_bind h
    obtain rfl := Except.ok.inj h
    exact settle_effect (by decide) (by decide) _

/-- The effect of the action that a machine calls for a production. -/
theorem reduce_effect {reply : Reply Ledger Value} (hr : r.ruleId = p.ruleId)
    (h : reduce r given l = .ok reply) : Effect l r given p reply := by
  rw [reduce, hr, Production.ofRule?_ruleId] at h
  exact apply_effect h

end Effect

def Restrained (l : Ledger) (reply : Reply Ledger Value) : Prop :=
  reply.control ≠ .accept ∧ (reply.control = .abort ∨ reply.state.fatal = l.fatal)

theorem reduce_restrained {r : Reduction Value Span} {given : Value} {l : Ledger}
    {reply : Reply Ledger Value} (h : reduce r given l = .ok reply) : l.Restrained reply := by
  unfold reduce at h
  split at h
  · cases apply_effect h <;> simp [Restrained, record]
  · simp at h

/-- The semantic actions leave it to the end of the program to accept. -/
theorem actions_ne_accept (r : Reduction Value Span) (given : Value) (l : Ledger)
    (reply : Reply Ledger Value) (h : actions.reduce r given l = .ok reply) :
    reply.control ≠ .accept := (reduce_restrained h).1

end Ledger

end ShiftReduce.Calculator
