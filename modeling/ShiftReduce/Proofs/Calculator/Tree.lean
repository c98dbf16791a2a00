import Mathlib.Data.List.Induction
import Mathlib.Logic.Relation
import ShiftReduce.Proofs.Calculator.Shape
import ShiftReduce.Proofs.Machine.Supply

namespace ShiftReduce.Calculator

/-- Trees whose leaves are tokens and whose inner nodes are productions. -/
inductive Tree (V S : Type)
  | leaf (l : Lexeme V S)
  | node (p : Production) (children : List (Tree V S))

/-- A production of programs without errors. -/
def Production.Plain (p : Production) : Prop := p ≠ .augmented ∧ p ≠ .errorStmt

namespace Tree

variable {V S : Type} {t t' : Tree V S} {ts ts' : List (Tree V S)} {p : Production}

def symbol : Tree V S → Symbol
  | leaf l => .terminal l.terminal
  | node p _ => .nonterminal p.rule.lhs

def yield : Tree V S → List (Lexeme V S)
  | leaf l => [l]
  | node _ ts => ts.flatMap yield

/-- The rules at the inner nodes from left to right, each node after its children. -/
def postorder : Tree V S → List RuleId
  | leaf _ => []
  | node p ts => ts.flatMap postorder ++ [p.ruleId]

@[simp] theorem yield_leaf (l : Lexeme V S) : (leaf l).yield = [l] := by rw [yield]

@[simp] theorem yield_node (p : Production) (ts : List (Tree V S)) :
    (node p ts).yield = ts.flatMap yield := by rw [yield]

@[simp] theorem postorder_leaf (l : Lexeme V S) : (leaf l).postorder = [] := by rw [postorder]

@[simp] theorem postorder_node (p : Production) (ts : List (Tree V S)) :
    (node p ts).postorder = ts.flatMap postorder ++ [p.ruleId] := by rw [postorder]

/-- Whether every inner node has the right-hand side of its production below it. -/
inductive Valid : Tree V S → Prop
  | leaf (l : Lexeme V S) : Valid (leaf l)
  | node {p : Production} {ts : List (Tree V S)} (plain : p.Plain)
      (spelled : ts.map symbol = p.rule.rhs) (children : ∀ t ∈ ts, Valid t) : Valid (node p ts)

/-- Whether a tree is determined by its tokens and its rules, also where these are the end of
longer lists. -/
def Determined (t : Tree V S) : Prop :=
  ∀ {t' : Tree V S} {l l' : List (Lexeme V S)} {rs rs' : List RuleId}, t'.Valid →
    t.symbol = t'.symbol → l ++ t.yield = l' ++ t'.yield →
      rs ++ t.postorder = rs' ++ t'.postorder → t = t' ∧ l = l' ∧ rs = rs'

/-- Lists of trees are compared from the right. -/
theorem determined_all (h : ∀ t ∈ ts, t.Determined) (hv : ∀ t ∈ ts', t.Valid)
    (hs : ts.map symbol = ts'.map symbol) {l l' : List (Lexeme V S)} {rs rs' : List RuleId}
    (hl : l ++ ts.flatMap yield = l' ++ ts'.flatMap yield)
    (hrs : rs ++ ts.flatMap postorder = rs' ++ ts'.flatMap postorder) :
    ts = ts' ∧ l = l' ∧ rs = rs' := by
  induction ts using List.reverseRecOn generalizing ts' with
  | nil =>
    obtain rfl : ts' = [] := by simpa using hs.symm
    simp_all
  | append_singleton ts t ih =>
    rw [List.map_append, eq_comm, List.map_eq_append_iff] at hs
    obtain ⟨ts', last, rfl, hinit, hlast⟩ := hs
    obtain ⟨t', rfl, ht'⟩ := List.map_eq_singleton_iff.1 hlast
    simp only [List.flatMap_append, List.flatMap_singleton, ← List.append_assoc] at hl hrs
    obtain ⟨rfl, hl, hrs⟩ := h t (by simp) (hv t' (by simp)) ht'.symm hl hrs
    obtain ⟨rfl, rfl, rfl⟩ := ih (fun u hu => h u (by simp [hu])) (fun u hu => hv u (by simp [hu]))
      hinit.symm hl hrs
    exact ⟨rfl, rfl, rfl⟩

theorem Valid.determined (h : t.Valid) : t.Determined := by
  induction h with
  | leaf l =>
    intro t' ls ls' rs rs' hv hs hl hrs
    cases hv with
    | leaf l' =>
      simp only [yield_leaf] at hl
      obtain ⟨rfl, hleaf⟩ := List.append_inj' hl rfl
      obtain rfl := (List.cons.inj hleaf).1
      exact ⟨rfl, rfl, by simpa using hrs⟩
    | node => simp [symbol] at hs
  | @node p ts plain spelled children ih =>
    intro t' ls ls' rs rs' hv hs hl hrs
    cases hv with
    | leaf l' => simp [symbol] at hs
    | @node p' ts' plain' spelled' children' =>
      simp only [postorder_node, ← List.append_assoc] at hrs
      obtain ⟨hinit, hlast⟩ := List.append_inj' hrs rfl
      obtain rfl := Production.ruleId_injective (List.cons.inj hlast).1
      simp only [yield_node] at hl
      obtain ⟨rfl, rfl, rfl⟩ :=
        determined_all ih children' (spelled.trans spelled'.symm) hl hinit
      exact ⟨rfl, rfl, rfl⟩

/-- A terminal that no production has is not in a tree either. -/
theorem Valid.terminal_ne {a : Terminal}
    (ha : ∀ p ∈ Production.all, p.Plain → .terminal a ∉ p.rule.rhs) (h : t.Valid)
    (ht : t.symbol ≠ .terminal a) : ∀ l ∈ t.yield, l.terminal ≠ a := by
  induction h with
  | leaf x =>
    intro l hl
    obtain rfl : l = x := by simpa using hl
    exact fun h => ht (congrArg Symbol.terminal h)
  | @node p ts plain spelled children ih =>
    intro l hl
    rw [yield_node] at hl
    obtain ⟨u, hu, hl⟩ := List.mem_flatMap.1 hl
    refine ih u hu (fun h => ha p (Production.mem_all p) plain ?_) l hl
    rw [← spelled, ← h]
    exact List.mem_map_of_mem hu

/-- A tree is determined by its tokens and the order of its rules. -/
theorem Valid.eq_of_postorder (h : t.Valid) (h' : t'.Valid) (hs : t.symbol = t'.symbol)
    (hy : t.yield = t'.yield) (hp : t.postorder = t'.postorder) : t = t' := by
  have hl : [] ++ t.yield = [] ++ t'.yield := hy
  have hrs : [] ++ t.postorder = [] ++ t'.postorder := hp
  exact (h.determined h' hs hl hrs).1

end Tree

/-- What a rule by its number is: a production. -/
theorem exists_production {r : RuleId} {rule : Rule} (h : tables.rule r = .ok rule) :
    ∃ p : Production, r = p.ruleId ∧ rule = p.rule := by
  have hrule : tables.rules[r.id.toNat]? = (Production.ofRule? r).map Production.rule := by
    simp [tables, draft, Production.ofRule?]
  cases hp : Production.ofRule? r with
  | none => simp [Tables.rule, hrule, hp, indexed] at h
  | some p =>
    refine ⟨p, Production.eq_ruleId_of_ofRule? hp, ?_⟩
    simpa [Tables.rule, hrule, hp, indexed, eq_comm] using h

/-- One of the rules 1 to 16 other than rule 6, the one for errors. -/
structure PlainRule (r : RuleId) (rule : Rule) : Prop where
  known : tables.rule r = .ok rule
  inner : r.id ≠ 0
  errorless : r.id ≠ 6

theorem plainRule_iff {r : RuleId} {rule : Rule} :
    PlainRule r rule ↔ ∃ p : Production, p.Plain ∧ r = p.ruleId ∧ rule = p.rule := by
  constructor
  · intro h
    obtain ⟨p, rfl, rfl⟩ := exists_production h.known
    refine ⟨p, ⟨?_, ?_⟩, rfl, rfl⟩
    · rintro rfl
      exact h.inner rfl
    · rintro rfl
      exact h.errorless rfl
  · rintro ⟨p, ⟨haug, herr⟩, rfl, rfl⟩
    refine ⟨rule_ruleId p, ?_, ?_⟩
    · cases p <;> first | exact absurd rfl haug | decide
    · cases p <;> first | exact absurd rfl herr | decide

inductive Rewrites : List Symbol → List Symbol → Prop
  | mk {r : RuleId} {rule : Rule} (plain : PlainRule r rule) (pre post : List Symbol) :
      Rewrites (pre ++ .nonterminal rule.lhs :: post) (pre ++ rule.rhs ++ post)

/-- The programs without errors, by the rules of the grammar. -/
def Derivable (w : List Terminal) : Prop :=
  Relation.ReflTransGen Rewrites [.nonterminal Phrase.program.nonterminal] (w.map .terminal)

/-- A derivation in which the last nonterminal gives way each time, with the rules that are used. -/
inductive Rightmost : List RuleId → List Symbol → List Symbol → Prop
  | refl (Xs : List Symbol) : Rightmost [] Xs Xs
  | step {r : RuleId} {rule : Rule} {rs : List RuleId} {Ys : List Symbol}
      (plain : PlainRule r rule) (pre : List Symbol) (post : List Terminal)
      (rest : Rightmost rs (pre ++ rule.rhs ++ post.map .terminal) Ys) :
      Rightmost (r :: rs) (pre ++ .nonterminal rule.lhs :: post.map .terminal) Ys

namespace Rightmost

variable {rs rs' : List RuleId} {Xs Ys Zs : List Symbol}

theorem trans (h : Rightmost rs Xs Ys) (h' : Rightmost rs' Ys Zs) :
    Rightmost (rs ++ rs') Xs Zs := by
  induction h with
  | refl => exact h'
  | step plain pre post _ ih => exact .step plain pre post (ih h')

theorem rewrites (h : Rightmost rs Xs Ys) : Relation.ReflTransGen Rewrites Xs Ys := by
  induction h with
  | refl => exact .refl
  | step plain pre post _ ih => exact .head (.mk plain pre (post.map .terminal)) ih

end Rightmost

namespace Tree

variable {V S : Type} {t : Tree V S} {ts : List (Tree V S)}

def spelling (w : List (Lexeme V S)) : List Symbol := w.map fun l => .terminal l.terminal

theorem spelling_append (w w' : List (Lexeme V S)) :
    spelling (w ++ w') = spelling w ++ spelling w' := by simp [spelling]

theorem spelling_eq (w : List (Lexeme V S)) :
    spelling w = (w.map Lexeme.terminal).map .terminal := by simp [spelling]

def DerivesBackward (t : Tree V S) : Prop := ∀ (pre : List Symbol) (post : List (Lexeme V S)),
  Rightmost t.postorder.reverse (pre ++ t.symbol :: spelling post)
    (pre ++ spelling t.yield ++ spelling post)

theorem derivesBackward_all (h : ∀ t ∈ ts, t.DerivesBackward) (pre : List Symbol)
    (post : List (Lexeme V S)) : Rightmost (ts.flatMap postorder).reverse
      (pre ++ ts.map symbol ++ spelling post)
      (pre ++ spelling (ts.flatMap yield) ++ spelling post) := by
  induction ts using List.reverseRecOn generalizing post with
  | nil => simpa [spelling] using Rightmost.refl (pre ++ spelling post)
  | append_singleton ts t ih =>
    have hlast := h t (by simp) (pre ++ ts.map symbol) post
    have hinit := ih (fun u hu => h u (by simp [hu])) (t.yield ++ post)
    simp only [List.flatMap_append, List.flatMap_singleton, List.reverse_append, List.map_append,
      List.map_cons, List.map_nil, spelling_append, List.append_assoc, List.cons_append,
      List.nil_append] at hlast hinit ⊢
    exact hlast.trans hinit

theorem Valid.derivesBackward (h : t.Valid) : t.DerivesBackward := by
  induction h with
  | leaf l =>
    intro pre post
    simpa [symbol, spelling] using Rightmost.refl _
  | @node p ts plain spelled _ ih =>
    intro pre post
    have hchildren := derivesBackward_all ih pre post
    rw [spelled, spelling_eq post] at hchildren
    rw [postorder_node, List.reverse_append, yield_node, spelling_eq post]
    exact .step (plainRule_iff.2 ⟨p, plain, rfl, rfl⟩) pre _ hchildren

/-- What can be derived has trees above it. -/
theorem exists_of_rewrites {Xs : List Symbol} {w : List (Lexeme V S)}
    (h : Relation.ReflTransGen Rewrites Xs (spelling w)) : ∃ ts : List (Tree V S),
      (∀ t ∈ ts, t.Valid) ∧ ts.map symbol = Xs ∧ ts.flatMap yield = w := by
  induction h using Relation.ReflTransGen.head_induction_on with
  | refl =>
    refine ⟨w.map leaf, ?_, ?_, ?_⟩
    · intro t ht
      obtain ⟨l, -, rfl⟩ := List.mem_map.1 ht
      exact .leaf l
    · simp [spelling, symbol, Function.comp_def]
    · simp [List.flatMap_map]
  | head hstep _ ih =>
    cases hstep with
    | mk plain pre post =>
      obtain ⟨p, hp, rfl, rfl⟩ := plainRule_iff.1 plain
      obtain ⟨ts, hvalid, hmap, hyield⟩ := ih
      obtain ⟨init, ts₃, rfl, hinit, h₃⟩ := List.map_eq_append_iff.1 hmap
      obtain ⟨ts₁, ts₂, rfl, h₁, h₂⟩ := List.map_eq_append_iff.1 hinit
      refine ⟨ts₁ ++ node p ts₂ :: ts₃, ?_, ?_, ?_⟩
      · intro t ht
        simp only [List.mem_append, List.mem_cons] at ht
        rcases ht with ht | rfl | ht
        · exact hvalid t (by simp [ht])
        · exact .node hp h₂ fun u hu => hvalid u (by simp [hu])
        · exact hvalid t (by simp [ht])
      · simp [h₁, h₃, symbol]
      · simpa using hyield

/-- A tree of a whole program. -/
structure Parses (t : Tree V S) (w : List (Lexeme V S)) : Prop where
  valid : t.Valid
  symbol : t.symbol = .nonterminal Phrase.program.nonterminal
  yield : t.yield = w

theorem derivable_iff {w : List (Lexeme V S)} :
    Derivable (w.map Lexeme.terminal) ↔ ∃ t : Tree V S, t.Parses w := by
  rw [Derivable, ← spelling_eq]
  constructor
  · intro h
    obtain ⟨ts, hvalid, hmap, hyield⟩ := exists_of_rewrites h
    obtain ⟨t, rfl, ht⟩ := List.map_eq_singleton_iff.1 hmap
    exact ⟨t, hvalid t (by simp), ht, by simpa using hyield⟩
  · rintro ⟨t, hvalid, hsymbol, rfl⟩
    have h := (hvalid.derivesBackward [] []).rewrites
    simpa [hsymbol, spelling] using h

theorem Parses.rightmost {w : List (Lexeme V S)} (h : t.Parses w) :
    Rightmost t.postorder.reverse [.nonterminal Phrase.program.nonterminal]
      ((w.map Lexeme.terminal).map .terminal) := by
  have hback := h.valid.derivesBackward [] []
  rw [h.symbol, h.yield, spelling_eq w] at hback
  simpa [spelling] using hback

end Tree

end ShiftReduce.Calculator
