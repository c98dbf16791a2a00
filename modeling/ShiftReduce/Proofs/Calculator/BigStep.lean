import ShiftReduce.Proofs.Calculator.Answers
import ShiftReduce.Proofs.Calculator.Meaning

namespace ShiftReduce.Calculator

variable {V S : Type}

/-- The numbers that expressions come to, with the values of the variables at hand. An expression
with a result out of range, a zero divisor or an undefined variable comes to none. -/
inductive Evaluates (vars : Variables) : Tree Value S → Int64 → Prop
  | literal {l : Lexeme Value S} {n : Int64} (value : l.value = .number n) :
      Evaluates vars (.node .literal [.leaf l]) n
  | reference {l : Lexeme Value S} {name : String} {n : Int64} (value : l.value = .ident name)
      (defined : vars.get? name = some n) : Evaluates vars (.node .reference [.leaf l]) n
  | parens {l r : Lexeme Value S} {t : Tree Value S} {n : Int64} (inner : Evaluates vars t n) :
      Evaluates vars (.node .parens [.leaf l, t, .leaf r]) n
  | negation {l : Lexeme Value S} {t : Tree Value S} {x n : Int64} (inner : Evaluates vars t x)
      (result : n.toInt = -x.toInt) : Evaluates vars (.node .negation [.leaf l, t]) n
  | termOfFactor {t : Tree Value S} {n : Int64} (inner : Evaluates vars t n) :
      Evaluates vars (.node .termOfFactor [t]) n
  | product {l : Lexeme Value S} {t u : Tree Value S} {x y n : Int64} (left : Evaluates vars t x)
      (right : Evaluates vars u y) (result : n.toInt = x.toInt * y.toInt) :
      Evaluates vars (.node .product [t, .leaf l, u]) n
  | quotient {l : Lexeme Value S} {t u : Tree Value S} {x y n : Int64} (left : Evaluates vars t x)
      (right : Evaluates vars u y) (divisor : y ≠ 0) (result : n.toInt = x.toInt.tdiv y.toInt) :
      Evaluates vars (.node .quotient [t, .leaf l, u]) n
  | exprOfTerm {t : Tree Value S} {n : Int64} (inner : Evaluates vars t n) :
      Evaluates vars (.node .exprOfTerm [t]) n
  | sum {l : Lexeme Value S} {t u : Tree Value S} {x y n : Int64} (left : Evaluates vars t x)
      (right : Evaluates vars u y) (result : n.toInt = x.toInt + y.toInt) :
      Evaluates vars (.node .sum [t, .leaf l, u]) n
  | difference {l : Lexeme Value S} {t u : Tree Value S} {x y n : Int64} (left : Evaluates vars t x)
      (right : Evaluates vars u y) (result : n.toInt = x.toInt - y.toInt) :
      Evaluates vars (.node .difference [t, .leaf l, u]) n

/-- What a statement comes to, and the values of the variables after it. It extends from where its
first token starts to where its semicolon stops. -/
inductive Performs (vars : Variables) : Tree Value Span → Statement → Variables → Prop
  | exprStmt {t : Tree Value Span} {first semicolon : Lexeme Value Span} {n : Int64}
      (value : Evaluates vars t n) (head : t.yield.head? = some first) :
      Performs vars (.node .exprStmt [t, .leaf semicolon])
        ⟨⟨first.span.start, semicolon.span.stop⟩, some n⟩ vars
  | assignment {t : Tree Value Span} {target equals semicolon : Lexeme Value Span} {name : String}
      {n : Int64} (named : target.value = .ident name) (value : Evaluates vars t n) :
      Performs vars (.node .assignment [.leaf target, .leaf equals, t, .leaf semicolon])
        ⟨⟨target.span.start, semicolon.span.stop⟩, some n⟩ (vars.insert name n)

inductive Executes (vars : Variables) : Tree Value Span → List Statement → Variables → Prop
  | noStmts : Executes vars (.node .noStmts []) [] vars
  | moreStmts {ts t : Tree Value Span} {out : List Statement} {st : Statement}
      {vars' vars'' : Variables} (before : Executes vars ts out vars')
      (last : Performs vars' t st vars'') :
      Executes vars (.node .moreStmts [ts, t]) (out ++ [st]) vars''
  | program {ts : Tree Value Span} {out : List Statement} {vars' : Variables}
      (stmts : Executes vars ts out vars') : Executes vars (.node .program [ts]) out vars'

section Conclude

open Calculator.Tree

variable (e : Span) (l : Ledger) (v w u : Value) (s s₁ s₂ s₃ : Span) (x y n : Int64)
  (name : String)

/-- The answers of the semantic actions as they go into the meaning of a tree. -/
theorem conclude_eq (p : Production) (vs : List (Value × Span)) : conclude Ledger.actions e p vs l =
    match l.apply ⟨p.ruleId, p.rule, vs.map Prod.fst, vs.map Prod.snd,
        stretch e (vs.map Prod.snd)⟩ ((vs.head?.map Prod.fst).getD .nothing) p with
    | .ok reply =>
      if reply.control = .proceed then
        some ((reply.value, stretch e (vs.map Prod.snd)), reply.state)
      else none
    | .error _ => none := by
  simp only [conclude, Ledger.actions, Ledger.reduce, Production.ofRule?_ruleId]
  generalize l.apply _ _ p = answer
  cases answer <;> rfl

theorem conclude_noStmts : conclude Ledger.actions e .noStmts [] l = some ((.nothing, e), l) := by
  simp [conclude_eq, Ledger.apply, Ledger.pass, stretch]

theorem conclude_moreStmts : conclude Ledger.actions e .moreStmts [(v, s), (w, s₁)] l =
    some ((v, ⟨s.start, s₁.stop⟩), l) := by
  simp [conclude_eq, Ledger.apply, Ledger.pass, stretch, Merge.merge]

/-- Where a phrase has the only part that its production gives it, it carries what that carries. -/
theorem conclude_single {p : Production}
    (hp : p ∈ [Production.program, .exprOfTerm, .termOfFactor, .literal]) :
    conclude Ledger.actions e p [(v, s)] l = some ((v, s), l) := by
  simp only [List.mem_cons, List.not_mem_nil, or_false] at hp
  rcases hp with rfl | rfl | rfl | rfl <;>
    simp [conclude_eq, Ledger.apply, Ledger.pass, stretch]

theorem conclude_exprStmt : conclude Ledger.actions e .exprStmt [(.number n, s), (w, s₁)] l =
    some ((.nothing, ⟨s.start, s₁.stop⟩),
      { l with statements := ⟨⟨s.start, s₁.stop⟩, some n⟩ :: l.statements }) := by
  simp [conclude_eq, Ledger.apply_exprStmt, Ledger.record, stretch, Merge.merge]

theorem conclude_assignment : conclude Ledger.actions e .assignment
      [(.ident name, s), (w, s₁), (.number n, s₂), (u, s₃)] l =
    some ((.nothing, ⟨s.start, s₃.stop⟩), { l with
      bindings := l.bindings.insert name n
      statements := ⟨⟨s.start, s₃.stop⟩, some n⟩ :: l.statements }) := by
  simp [conclude_eq, Ledger.apply, Ledger.assign_eq, Ledger.record, stretch, Merge.merge]

inductive Operator : Production → (Int64 → Int64 → Option Int64) → Prop
  | sum : Operator .sum Checked.add
  | difference : Operator .difference Checked.sub
  | product : Operator .product Checked.mul

theorem Operator.evaluates {p : Production} {op : Int64 → Int64 → Option Int64} (hp : Operator p op)
    {vars : Variables} {t u : Tree Value S} {k : Lexeme Value S} {a b c : Int64} (ht : Evaluates vars t a)
    (hu : Evaluates vars u b) (h : op a b = some c) :
    Evaluates vars (.node p [t, .leaf k, u]) c := by
  cases hp with
  | sum => exact .sum ht hu (Checked.ofInt?_eq_some.1 h)
  | difference => exact .difference ht hu (Checked.ofInt?_eq_some.1 h)
  | product => exact .product ht hu (Checked.ofInt?_eq_some.1 h)

theorem conclude_binary {p : Production} {op : Int64 → Int64 → Option Int64} (hp : Operator p op) :
    conclude Ledger.actions e p [(.number x, s), (w, s₁), (.number y, s₂)] l =
      (op x y).map fun n => ((.number n, ⟨s.start, s₂.stop⟩), l) := by
  cases h : op x y <;> cases hp <;>
    simp [conclude_eq, Ledger.apply, Ledger.binary_eq, Ledger.settle, stretch, Merge.merge, h]

theorem conclude_quotient :
    conclude Ledger.actions e .quotient [(.number x, s), (w, s₁), (.number y, s₂)] l =
      (Checked.div x y).map fun n => ((.number n, ⟨s.start, s₂.stop⟩), l) := by
  by_cases hy : y = 0
  · simp [conclude_eq, Ledger.apply, Ledger.divide_of_zero, Checked.div, hy]
  · cases h : Checked.div x y <;>
      simp [conclude_eq, Ledger.apply, Ledger.divide_of_ne, Ledger.settle, stretch, Merge.merge, hy,
        h]

theorem conclude_negation : conclude Ledger.actions e .negation [(w, s), (.number x, s₁)] l =
    (Checked.neg x).map fun n => ((.number n, ⟨s.start, s₁.stop⟩), l) := by
  cases h : Checked.neg x <;>
    simp [conclude_eq, Ledger.apply_negation, Ledger.settle, stretch, Merge.merge, h]

theorem conclude_parens : conclude Ledger.actions e .parens [(w, s), (v, s₁), (u, s₂)] l =
    some ((v, ⟨s.start, s₂.stop⟩), l) := by
  simp [conclude_eq, Ledger.apply_parens, stretch, Merge.merge]

theorem conclude_reference : conclude Ledger.actions e .reference [(.ident name, s)] l =
    (l.bindings.get? name).map fun n => ((.number n, s), l) := by
  rw [conclude_eq, Ledger.apply]
  cases h : l.bindings.get? name with
  | none =>
    rw [Ledger.resolve_of_none l _ rfl h]
    rfl
  | some n =>
    rw [Ledger.resolve_of_some l _ rfl h]
    rfl

end Conclude

section Expressions

variable {e : Span} {l l' : Ledger} {t : Tree Value Span} {v : Value} {s : Span} {n : Int64}

def Starts (t : Tree Value Span) (s : Span) : Prop :=
  ∃ first, t.yield.head? = some first ∧ s.start = first.span.start

theorem Starts.leaf (l : Lexeme Value Span) : Starts (.leaf l) l.span := ⟨l, by simp, rfl⟩

theorem Starts.node {p : Production} {ts : List (Tree Value Span)} {stop : Position}
    (h : Starts t s) : Starts (.node p (t :: ts)) ⟨s.start, stop⟩ := by
  obtain ⟨first, hfirst, hs⟩ := h
  refine ⟨first, ?_, hs⟩
  rw [Tree.yield_node, List.flatMap_cons, List.head?_append, hfirst]
  rfl

/-- The semantic actions find the number of an expression. -/
theorem Evaluates.meaning (h : Evaluates l.bindings t n) :
    ∃ s, t.meaning Ledger.actions e l = some ((.number n, s), l) ∧ Starts t s := by
  have binary {p : Production} {op : Int64 → Int64 → Option Int64} (hp : Operator p op)
      {t u : Tree Value Span} {x : Lexeme Value Span} {a b n : Int64}
      (ht : ∃ s, t.meaning Ledger.actions e l = some ((.number a, s), l) ∧ Starts t s)
      (hu : ∃ s, u.meaning Ledger.actions e l = some ((.number b, s), l) ∧ Starts u s)
      (hop : op a b = some n) : ∃ s, (Tree.node p [t, .leaf x, u]).meaning Ledger.actions e l =
        some ((.number n, s), l) ∧ Starts (.node p [t, .leaf x, u]) s := by
    obtain ⟨s, ht, hstart⟩ := ht
    obtain ⟨s', hu, -⟩ := hu
    refine ⟨⟨s.start, s'.stop⟩, ?_, hstart.node⟩
    simp [Tree.meaning, Tree.meanings, ht, hu, conclude_binary _ _ _ _ _ _ _ _ hp, hop]
  induction h with
  | @literal x n value =>
    refine ⟨x.span, ?_, (Starts.leaf x).node⟩
    simp [Tree.meaning, Tree.meanings, value, conclude_single]
  | @reference x name n value defined =>
    refine ⟨x.span, ?_, (Starts.leaf x).node⟩
    simp [Tree.meaning, Tree.meanings, value, conclude_reference, defined]
  | @parens x y t n inner ih =>
    obtain ⟨s, hs, -⟩ := ih
    refine ⟨⟨x.span.start, y.span.stop⟩, ?_, (Starts.leaf x).node⟩
    simp [Tree.meaning, Tree.meanings, hs, conclude_parens]
  | @negation x t a n inner result ih =>
    obtain ⟨s, hs, -⟩ := ih
    refine ⟨⟨x.span.start, s.stop⟩, ?_, (Starts.leaf x).node⟩
    simp [Tree.meaning, Tree.meanings, hs, conclude_negation, Checked.neg,
      Checked.ofInt?_eq_some.2 result]
  | @termOfFactor t n inner ih | @exprOfTerm t n inner ih =>
    obtain ⟨s, hs, hstart⟩ := ih
    refine ⟨s, ?_, hstart.node⟩
    simp [Tree.meaning, Tree.meanings, hs, conclude_single]
  | product left right result iht ihu =>
    exact binary .product iht ihu (Checked.ofInt?_eq_some.2 result)
  | sum left right result iht ihu => exact binary .sum iht ihu (Checked.ofInt?_eq_some.2 result)
  | difference left right result iht ihu =>
    exact binary .difference iht ihu (Checked.ofInt?_eq_some.2 result)
  | @quotient x t u a b n left right divisor result iht ihu =>
    obtain ⟨s, ht, hstart⟩ := iht
    obtain ⟨s', hu, -⟩ := ihu
    refine ⟨⟨s.start, s'.stop⟩, ?_, hstart.node⟩
    simp [Tree.meaning, Tree.meanings, ht, hu, conclude_quotient, Checked.div, divisor,
      Checked.ofInt?_eq_some.2 result]

theorem eq_leaf {a : Terminal} (h : t.symbol = .terminal a) :
    ∃ x, t = .leaf x ∧ x.terminal = a := by
  cases t with
  | leaf x => exact ⟨x, rfl, Symbol.terminal.inj h⟩
  | node p ts => simp [Tree.symbol] at h

theorem eq_infix {ts : List (Tree Value Span)} {X Y : Symbol} {a : Terminal}
    (h : ts.map Tree.symbol = [X, .terminal a, Y]) :
    ∃ t x u, ts = [t, .leaf x, u] ∧ t.symbol = X ∧ u.symbol = Y := by
  simp only [List.map_eq_cons_iff, List.map_eq_nil_iff] at h
  obtain ⟨t, _, rfl, ht, t', _, rfl, ha, u, _, rfl, hu, rfl⟩ := h
  obtain ⟨x, rfl, -⟩ := eq_leaf ha
  exact ⟨t, x, u, rfl, ht, hu⟩

theorem meanings_one {vs : List (Value × Span)}
    (h : Tree.meanings Ledger.actions e [t] l = some (vs, l')) : ∃ v s,
      t.meaning Ledger.actions e l = some ((v, s), l') ∧ vs = [(v, s)] := by
  obtain ⟨⟨v, s⟩, l₁, vs', ht, hnil, rfl⟩ := Tree.meanings_cons.1 h
  obtain ⟨rfl, rfl⟩ : vs' = [] ∧ l' = l₁ := by simpa [eq_comm] using hnil
  exact ⟨v, s, ht, rfl⟩

theorem meanings_leaf_cons {x : Lexeme Value Span} {ts : List (Tree Value Span)}
    {vs : List (Value × Span)}
    (h : Tree.meanings Ledger.actions e (.leaf x :: ts) l = some (vs, l')) : ∃ vs',
      Tree.meanings Ledger.actions e ts l = some (vs', l') ∧ vs = (x.value, x.span) :: vs' := by
  obtain ⟨v, l₁, vs', hx, hts, rfl⟩ := Tree.meanings_cons.1 h
  obtain ⟨rfl, rfl⟩ : v = (x.value, x.span) ∧ l₁ = l := by simpa [eq_comm] using hx
  exact ⟨vs', hts, rfl⟩

/-- Whether what the semantic actions find for a tree is its number, and they change nothing. -/
def Faithful (e : Span) (t : Tree Value Span) : Prop :=
  ∀ (l l' : Ledger) (v : Value) (s : Span), t.meaning Ledger.actions e l = some ((v, s), l') →
    l' = l ∧ (∃ n, v = .number n ∧ Evaluates l.bindings t n)

theorem Faithful.binary {p : Production} {op : Int64 → Int64 → Option Int64} (hp : Operator p op)
    {t u : Tree Value Span} {x : Lexeme Value Span} (ht : Faithful e t) (hu : Faithful e u) :
    Faithful e (.node p [t, .leaf x, u]) := by
  intro l l' v s hmeaning
  obtain ⟨_, l₁, hparts, hconclude⟩ := Tree.meaning_node.1 hmeaning
  obtain ⟨⟨v₀, s₀⟩, l₂, _, hleft, hrest, rfl⟩ := Tree.meanings_cons.1 hparts
  obtain ⟨_, hlast, rfl⟩ := meanings_leaf_cons hrest
  obtain ⟨v₁, s₁, hright, rfl⟩ := meanings_one hlast
  obtain ⟨rfl, a, rfl, ha⟩ := ht _ _ _ _ hleft
  obtain ⟨rfl, b, rfl, hb⟩ := hu _ _ _ _ hright
  rw [conclude_binary _ _ _ _ _ _ _ _ hp, Option.map_eq_some_iff] at hconclude
  obtain ⟨n, hn, heq⟩ := hconclude
  obtain ⟨hv, rfl⟩ := Prod.mk.inj heq
  obtain ⟨rfl, -⟩ := Prod.mk.inj hv
  exact ⟨rfl, n, rfl, hp.evaluates ha hb hn⟩

theorem Faithful.single {p : Production} (hp : p ∈ [Production.exprOfTerm, .termOfFactor])
    (ht : Faithful e t)
    (h : ∀ {vars n}, Evaluates vars t n → Evaluates vars (.node p [t]) n) :
    Faithful e (.node p [t]) := by
  intro l l' v s hmeaning
  obtain ⟨_, l₁, hparts, hconclude⟩ := Tree.meaning_node.1 hmeaning
  obtain ⟨v₀, s₀, hpart, rfl⟩ := meanings_one hparts
  obtain ⟨rfl, n, rfl, hn⟩ := ht _ _ _ _ hpart
  rw [conclude_single _ _ _ _
    (List.mem_cons_of_mem _ (List.mem_append_left [.literal] hp))] at hconclude
  obtain ⟨hv, rfl⟩ := Prod.mk.inj (Option.some.inj hconclude)
  obtain ⟨rfl, -⟩ := Prod.mk.inj hv
  exact ⟨rfl, n, rfl, h hn⟩

theorem Faithful.literal {x : Lexeme Value Span} {n : Int64} (hx : x.value = .number n) :
    Faithful e (.node .literal [.leaf x]) := by
  intro l l' v s hmeaning
  obtain ⟨s', hs', -⟩ := Evaluates.meaning (e := e) (l := l) (.literal hx)
  obtain ⟨hv, rfl⟩ := Prod.mk.inj (Option.some.inj (hs'.symm.trans hmeaning))
  exact ⟨rfl, n, (Prod.mk.inj hv).1.symm, .literal hx⟩

theorem Faithful.reference {x : Lexeme Value Span} {name : String} (hx : x.value = .ident name) :
    Faithful e (.node .reference [.leaf x]) := by
  intro l l' v s hmeaning
  obtain ⟨_, l₁, hparts, hconclude⟩ := Tree.meaning_node.1 hmeaning
  obtain ⟨v₀, s₀, hpart, rfl⟩ := meanings_one hparts
  obtain ⟨⟨rfl, rfl⟩, rfl⟩ : (v₀ = x.value ∧ s₀ = x.span) ∧ l₁ = l := by
    simpa [eq_comm] using hpart
  rw [hx, conclude_reference, Option.map_eq_some_iff] at hconclude
  obtain ⟨n, hn, heq⟩ := hconclude
  obtain ⟨hv, rfl⟩ := Prod.mk.inj heq
  exact ⟨rfl, n, (Prod.mk.inj hv).1.symm, .reference hx hn⟩

theorem Faithful.parens {x y : Lexeme Value Span} (ht : Faithful e t) :
    Faithful e (.node .parens [.leaf x, t, .leaf y]) := by
  intro l l' v s hmeaning
  obtain ⟨_, l₁, hparts, hconclude⟩ := Tree.meaning_node.1 hmeaning
  obtain ⟨_, hrest, rfl⟩ := meanings_leaf_cons hparts
  obtain ⟨⟨v₀, s₀⟩, l₂, _, hinner, hlast, rfl⟩ := Tree.meanings_cons.1 hrest
  obtain ⟨_, hnil, rfl⟩ := meanings_leaf_cons hlast
  obtain ⟨rfl, rfl⟩ := Prod.mk.inj (Option.some.inj hnil)
  obtain ⟨rfl, n, rfl, hn⟩ := ht _ _ _ _ hinner
  rw [conclude_parens] at hconclude
  obtain ⟨hv, rfl⟩ := Prod.mk.inj (Option.some.inj hconclude)
  exact ⟨rfl, n, (Prod.mk.inj hv).1.symm, .parens hn⟩

theorem Faithful.negation {x : Lexeme Value Span} (ht : Faithful e t) :
    Faithful e (.node .negation [.leaf x, t]) := by
  intro l l' v s hmeaning
  obtain ⟨_, l₁, hparts, hconclude⟩ := Tree.meaning_node.1 hmeaning
  obtain ⟨_, hrest, rfl⟩ := meanings_leaf_cons hparts
  obtain ⟨v₀, s₀, hinner, rfl⟩ := meanings_one hrest
  obtain ⟨rfl, a, rfl, ha⟩ := ht _ _ _ _ hinner
  rw [conclude_negation, Option.map_eq_some_iff] at hconclude
  obtain ⟨n, hn, heq⟩ := hconclude
  obtain ⟨hv, rfl⟩ := Prod.mk.inj heq
  exact ⟨rfl, n, (Prod.mk.inj hv).1.symm, .negation ha (Checked.ofInt?_eq_some.1 hn)⟩

theorem Faithful.quotient {t u : Tree Value Span} {x : Lexeme Value Span} (ht : Faithful e t)
    (hu : Faithful e u) : Faithful e (.node .quotient [t, .leaf x, u]) := by
  intro l l' v s hmeaning
  obtain ⟨_, l₁, hparts, hconclude⟩ := Tree.meaning_node.1 hmeaning
  obtain ⟨⟨v₀, s₀⟩, l₂, _, hleft, hrest, rfl⟩ := Tree.meanings_cons.1 hparts
  obtain ⟨_, hlast, rfl⟩ := meanings_leaf_cons hrest
  obtain ⟨v₁, s₁, hright, rfl⟩ := meanings_one hlast
  obtain ⟨rfl, a, rfl, ha⟩ := ht _ _ _ _ hleft
  obtain ⟨rfl, b, rfl, hb⟩ := hu _ _ _ _ hright
  rw [conclude_quotient, Option.map_eq_some_iff] at hconclude
  obtain ⟨n, hn, heq⟩ := hconclude
  obtain ⟨hv, rfl⟩ := Prod.mk.inj heq
  rw [Checked.div] at hn
  split at hn
  · simp at hn
  · rename_i hb0
    exact ⟨rfl, n, (Prod.mk.inj hv).1.symm, .quotient ha hb hb0 (Checked.ofInt?_eq_some.1 hn)⟩

theorem faithful_of_valid (hv : t.Valid)
    (hleaves : ∀ x ∈ t.yield, Carries (.terminal x.terminal) x.value)
    (ht : t.symbol ∈ expressions) : Faithful e t := by
  induction hv with
  | leaf x => simp [Tree.symbol, expressions] at ht
  | @node p ts plain spelled children ih =>
    have hcarries : ∀ x, .leaf x ∈ ts → Carries (.terminal x.terminal) x.value := by
      intro x hx
      refine hleaves x ?_
      rw [Tree.yield_node]
      exact List.mem_flatMap.2 ⟨_, hx, by simp⟩
    have part : ∀ u ∈ ts, ∀ X ∈ expressions, u.symbol = X → Faithful e u := by
      intro u hu X hX hs
      refine ih u hu (fun x hx => hleaves x ?_) (hs ▸ hX)
      rw [Tree.yield_node]
      exact List.mem_flatMap.2 ⟨u, hu, hx⟩
    -- The children are known from the production: a token is a leaf, and a phrase is faithful by
    -- induction.
    cases p
    case literal =>
      obtain ⟨t₀, rfl, h₀⟩ := List.map_eq_singleton_iff.1 spelled
      obtain ⟨x, rfl, hx⟩ := eq_leaf h₀
      obtain ⟨n, hn⟩ := (hcarries x (by simp)).number (by rw [hx]; decide)
      exact .literal hn
    case reference =>
      obtain ⟨t₀, rfl, h₀⟩ := List.map_eq_singleton_iff.1 spelled
      obtain ⟨x, rfl, hx⟩ := eq_leaf h₀
      obtain ⟨name, hname⟩ := (hcarries x (by simp)).name (by rw [hx])
      exact .reference hname
    case parens =>
      simp only [Production.rule, List.map_eq_cons_iff, List.map_eq_nil_iff] at spelled
      obtain ⟨t₀, _, rfl, h₀, t₁, _, rfl, h₁, t₂, _, rfl, h₂, rfl⟩ := spelled
      obtain ⟨x, rfl, -⟩ := eq_leaf h₀
      obtain ⟨y, rfl, -⟩ := eq_leaf h₂
      exact .parens (part t₁ (by simp) _ (by decide) h₁)
    case negation =>
      simp only [Production.rule, List.map_eq_cons_iff, List.map_eq_nil_iff] at spelled
      obtain ⟨t₀, _, rfl, h₀, t₁, _, rfl, h₁, rfl⟩ := spelled
      obtain ⟨x, rfl, -⟩ := eq_leaf h₀
      exact .negation (part t₁ (by simp) _ (by decide) h₁)
    case termOfFactor =>
      obtain ⟨t₀, rfl, h₀⟩ := List.map_eq_singleton_iff.1 spelled
      exact .single (by decide) (part t₀ (by simp) _ (by decide) h₀) .termOfFactor
    case exprOfTerm =>
      obtain ⟨t₀, rfl, h₀⟩ := List.map_eq_singleton_iff.1 spelled
      exact .single (by decide) (part t₀ (by simp) _ (by decide) h₀) .exprOfTerm
    case quotient =>
      obtain ⟨t₀, x, t₁, rfl, h₀, h₁⟩ := eq_infix spelled
      exact .quotient (part t₀ (by simp) _ (by decide) h₀) (part t₁ (by simp) _ (by decide) h₁)
    case product | sum | difference =>
      obtain ⟨t₀, x, t₁, rfl, h₀, h₁⟩ := eq_infix spelled
      exact .binary (by constructor) (part t₀ (by simp) _ (by decide) h₀)
        (part t₁ (by simp) _ (by decide) h₁)
    all_goals exact absurd ht (by simp only [Tree.symbol]; decide)

end Expressions

section Programs

variable {e : Span} {l l' : Ledger} {t : Tree Value Span} {v : Value} {s : Span}
  {st : Statement} {out : List Statement} {vars : Variables}

def Ledger.performed (l : Ledger) (out : List Statement) (vars : Variables) : Ledger :=
  { l with bindings := vars, statements := out.reverse ++ l.statements }

theorem Ledger.performed_performed (out' : List Statement) (vars' : Variables) :
    (l.performed out vars).performed out' vars' = l.performed (out ++ out') vars' := by
  simp [performed]

/-- The semantic actions do what a statement says. -/
theorem Performs.meaning (h : Performs l.bindings t st vars) :
    ∃ v s, t.meaning Ledger.actions e l = some ((v, s), l.performed [st] vars) := by
  cases h with
  | @exprStmt t first semicolon n value head =>
    obtain ⟨s, hs, first', hfirst, hstart⟩ := value.meaning (e := e)
    obtain rfl := Option.some.inj (head.symm.trans hfirst)
    refine ⟨.nothing, ⟨s.start, semicolon.span.stop⟩, ?_⟩
    simp [Tree.meaning, Tree.meanings, hs, conclude_exprStmt, Ledger.performed, hstart]
  | @assignment t target equals semicolon name n named value =>
    obtain ⟨s, hs, -⟩ := value.meaning (e := e)
    refine ⟨.nothing, ⟨target.span.start, semicolon.span.stop⟩, ?_⟩
    simp [Tree.meaning, Tree.meanings, hs, named, conclude_assignment, Ledger.performed]

theorem Executes.meaning (h : Executes l.bindings t out vars) :
    ∃ v s, t.meaning Ledger.actions e l = some ((v, s), l.performed out vars) := by
  induction h with
  | noStmts =>
    exact ⟨.nothing, e, by simp [Tree.meaning, Tree.meanings, conclude_noStmts, Ledger.performed]⟩
  | @moreStmts ts t out st vars' vars'' before last ih =>
    obtain ⟨v, s, hts⟩ := ih
    obtain ⟨w, s', ht⟩ := Performs.meaning (e := e) (l := l.performed out vars') last
    refine ⟨v, ⟨s.start, s'.stop⟩, ?_⟩
    simp [Tree.meaning, Tree.meanings, hts, ht, conclude_moreStmts, Ledger.performed_performed]
  | @program ts out vars' stmts ih =>
    obtain ⟨v, s, hts⟩ := ih
    exact ⟨v, s, by simp [Tree.meaning, Tree.meanings, hts, conclude_single]⟩

theorem part_carries {p : Production} {ts : List (Tree Value Span)}
    (h : ∀ x ∈ (Tree.node p ts).yield, Carries (.terminal x.terminal) x.value)
    (ht : t ∈ ts) : ∀ x ∈ t.yield, Carries (.terminal x.terminal) x.value := by
  intro x hx
  refine h x ?_
  rw [Tree.yield_node]
  exact List.mem_flatMap.2 ⟨t, ht, hx⟩

/-- A statement that the semantic actions let pass is performed. -/
theorem performs_of_meaning (hv : t.Valid)
    (hleaves : ∀ x ∈ t.yield, Carries (.terminal x.terminal) x.value)
    (ht : t.symbol = .nonterminal Phrase.stmt.nonterminal)
    (h : t.meaning Ledger.actions e l = some ((v, s), l')) :
    ∃ st vars, l' = l.performed [st] vars ∧ Performs l.bindings t st vars := by
  cases hv with
  | leaf x => simp [Tree.symbol] at ht
  | @node p ts plain spelled children =>
    obtain ⟨_, l₁, hparts, hconclude⟩ := Tree.meaning_node.1 h
    cases p <;>
      simp only [Production.rule, List.map_eq_cons_iff, List.map_eq_nil_iff] at spelled
    case exprStmt =>
      obtain ⟨t₀, _, rfl, h₀, t₁, _, rfl, h₁, rfl⟩ := spelled
      obtain ⟨x, rfl, -⟩ := eq_leaf h₁
      obtain ⟨⟨v₀, s₀⟩, l₂, _, hexpr, hlast, rfl⟩ := Tree.meanings_cons.1 hparts
      obtain ⟨_, hnil, rfl⟩ := meanings_leaf_cons hlast
      obtain ⟨rfl, rfl⟩ := Prod.mk.inj (Option.some.inj hnil)
      obtain ⟨rfl, n, rfl, hn⟩ := faithful_of_valid (e := e) (children t₀ (by simp))
        (part_carries hleaves (by simp)) (by rw [h₀]; decide) _ _ _ _ hexpr
      obtain ⟨s₁, hmeaning, first, hfirst, hstart⟩ := hn.meaning (e := e)
      obtain ⟨hv, -⟩ := Prod.mk.inj (Option.some.inj (hmeaning.symm.trans hexpr))
      obtain ⟨-, rfl⟩ := Prod.mk.inj hv
      rw [conclude_exprStmt] at hconclude
      obtain ⟨-, rfl⟩ := Prod.mk.inj (Option.some.inj hconclude)
      exact ⟨_, _, by rw [hstart]; rfl, .exprStmt hn hfirst⟩
    case assignment =>
      obtain ⟨t₀, _, rfl, h₀, t₁, _, rfl, h₁, t₂, _, rfl, h₂, t₃, _, rfl, h₃, rfl⟩ := spelled
      obtain ⟨x, rfl, hx⟩ := eq_leaf h₀
      obtain ⟨y, rfl, -⟩ := eq_leaf h₁
      obtain ⟨z, rfl, -⟩ := eq_leaf h₃
      obtain ⟨name, hname⟩ := (hleaves x (by simp)).name (by rw [hx])
      obtain ⟨_, hafter, rfl⟩ := meanings_leaf_cons hparts
      obtain ⟨_, hrest, rfl⟩ := meanings_leaf_cons hafter
      obtain ⟨⟨v₂, s₂⟩, l₂, _, hexpr, hlast, rfl⟩ := Tree.meanings_cons.1 hrest
      obtain ⟨_, hnil, rfl⟩ := meanings_leaf_cons hlast
      obtain ⟨rfl, rfl⟩ := Prod.mk.inj (Option.some.inj hnil)
      obtain ⟨rfl, n, rfl, hn⟩ := faithful_of_valid (e := e) (children t₂ (by simp))
        (part_carries hleaves (by simp)) (by rw [h₂]; decide) _ _ _ _ hexpr
      rw [hname, conclude_assignment] at hconclude
      obtain ⟨-, rfl⟩ := Prod.mk.inj (Option.some.inj hconclude)
      exact ⟨_, _, rfl, .assignment hname hn⟩
    case errorStmt => exact absurd rfl plain.2
    all_goals exact absurd ht (by simp only [Tree.symbol]; decide)

/-- A program that the semantic actions let pass is executed. -/
theorem executes_of_meaning (hv : t.Valid)
    (hleaves : ∀ x ∈ t.yield, Carries (.terminal x.terminal) x.value)
    (ht : t.symbol ∈ [Symbol.nonterminal Phrase.program.nonterminal,
      .nonterminal Phrase.stmts.nonterminal])
    (h : t.meaning Ledger.actions e l = some ((v, s), l')) :
    ∃ out vars, l' = l.performed out vars ∧ Executes l.bindings t out vars := by
  induction hv generalizing l l' v s with
  | leaf x => simp [Tree.symbol] at ht
  | @node p ts plain spelled children ih =>
    obtain ⟨_, l₁, hparts, hconclude⟩ := Tree.meaning_node.1 h
    cases p <;>
      simp only [Production.rule, List.map_eq_cons_iff, List.map_eq_nil_iff] at spelled
    case program =>
      obtain ⟨t₀, _, rfl, h₀, rfl⟩ := spelled
      obtain ⟨v₀, s₀, hstmts, rfl⟩ := meanings_one hparts
      obtain ⟨out, vars, rfl, hout⟩ := ih t₀ (by simp) (part_carries hleaves (by simp))
        (by rw [h₀]; simp) hstmts
      rw [conclude_single _ _ _ _ (by decide)] at hconclude
      obtain ⟨-, rfl⟩ := Prod.mk.inj (Option.some.inj hconclude)
      exact ⟨out, vars, rfl, .program hout⟩
    case noStmts =>
      subst spelled
      obtain ⟨rfl, rfl⟩ := Prod.mk.inj (Option.some.inj hparts)
      rw [conclude_noStmts] at hconclude
      obtain ⟨-, rfl⟩ := Prod.mk.inj (Option.some.inj hconclude)
      exact ⟨[], l.bindings, rfl, .noStmts⟩
    case moreStmts =>
      obtain ⟨t₀, _, rfl, h₀, t₁, _, rfl, h₁, rfl⟩ := spelled
      obtain ⟨⟨v₀, s₀⟩, l₂, _, hbefore, hrest, rfl⟩ := Tree.meanings_cons.1 hparts
      obtain ⟨v₁, s₁, hlast, rfl⟩ := meanings_one hrest
      obtain ⟨out, vars, rfl, hout⟩ := ih t₀ (by simp) (part_carries hleaves (by simp))
        (by rw [h₀]; simp) hbefore
      obtain ⟨st, vars', rfl, hst⟩ := performs_of_meaning (children t₁ (by simp))
        (part_carries hleaves (by simp)) h₁ hlast
      rw [conclude_moreStmts] at hconclude
      obtain ⟨-, rfl⟩ := Prod.mk.inj (Option.some.inj hconclude)
      exact ⟨out ++ [st], vars', Ledger.performed_performed _ _, .moreStmts hout hst⟩
    all_goals exact absurd ht (by simp only [Tree.symbol]; decide)

end Programs

end ShiftReduce.Calculator
