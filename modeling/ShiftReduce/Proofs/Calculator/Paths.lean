import ShiftReduce.Proofs.Calculator.Meaning
import ShiftReduce.Proofs.Calculator.Termination

namespace ShiftReduce.Calculator

instance (p : Production) : Decidable p.Plain := inferInstanceAs (Decidable (_ ∧ _))

def lead (s : StateId) : Symbol → Option StateId
  | .terminal a =>
    match Action.decode ((stateAt s).lookup a) with
    | .shift target => some target
    | _ => none
  | .nonterminal n => (stateAt s).gotoFor n

/-- The terminals that may come after a symbol that begins in a state, if these are limited at all.
At the head of a statement no parenthesis is open. -/
def following (s : StateId) (X : Symbol) : Option (List Terminal) :=
  let ends : List Token := .semicolon :: .plus :: .minus :: if s = ⟨1⟩ then [] else [.rightParen]
  if X = .nonterminal Phrase.expr.nonterminal then some (ends.map Token.terminal)
  else if X = .nonterminal Phrase.term.nonterminal ∨ X = .nonterminal Phrase.factor.nonterminal then
    some ((.asterisk :: .slash :: ends).map Token.terminal)
  else none

def heads (next : Option (List Terminal)) : List Symbol → Option (List Terminal)
  | [] => next
  | .terminal a :: _ => some [a]
  | .nonterminal _ :: _ => none

def Allows (allowed next : Option (List Terminal)) : Prop := ∀ l ∈ allowed, ∃ l' ∈ next, l' ⊆ l

instance (allowed next : Option (List Terminal)) : Decidable (Allows allowed next) :=
  inferInstanceAs (Decidable (∀ l ∈ allowed, ∃ l' ∈ next, l' ⊆ l))

def Completes (s : StateId) (p : Production) : Option (List Terminal) → Prop
  | none => (stateAt s).hasLookahead = false ∧
    Action.decode (stateAt s).fallback = .reduce p.ruleId
  | some l => ∀ t ∈ l, Action.decode ((stateAt s).lookup t) = .reduce p.ruleId

instance (s : StateId) (p : Production) :
    (next : Option (List Terminal)) → Decidable (Completes s p next)
  | none => inferInstanceAs (Decidable (_ ∧ _))
  | some l => inferInstanceAs (Decidable (∀ t ∈ l, _))

/-- Whether the automaton reads symbols one after the other from a state on, and then reduces by a
production. -/
def Paves (p : Production) (next : Option (List Terminal)) : StateId → List Symbol → Prop
  | s, [] => Completes s p next
  | s, X :: Xs => ∃ target ∈ lead s X,
      Allows (following s X) (heads next Xs) ∧ Paves p next target Xs

instance decidablePaves (p : Production) (next : Option (List Terminal)) :
    (s : StateId) → (Xs : List Symbol) → Decidable (Paves p next s Xs)
  | s, [] => inferInstanceAs (Decidable (Completes s p next))
  | s, X :: Xs =>
    have := fun target => decidablePaves p next target Xs
    inferInstanceAs (Decidable (∃ target ∈ lead s X,
      Allows (following s X) (heads next Xs) ∧ Paves p next target Xs))

/-- Wherever a phrase can begin, the automaton reads it by any of its productions. -/
theorem paths_checked : ∀ s ∈ stateIds, ∀ p ∈ Production.all, p.Plain → p ≠ .program →
    ((stateAt s).gotoFor p.rule.lhs).isSome →
      Paves p (following s (.nonterminal p.rule.lhs)) s p.rule.rhs := by
  decide +kernel

theorem no_program_gotos : ∀ s ∈ stateIds,
    (stateAt s).gotoFor Phrase.program.nonterminal = none := by
  decide +kernel

def absent : List Terminal :=
  [.reserved, Token.endOfInput.terminal, Token.error.terminal, Token.invalid.terminal]

theorem absent_checked : ∀ a ∈ absent, ∀ p ∈ Production.all,
    p.Plain → .terminal a ∉ p.rule.rhs := by
  decide

end ShiftReduce.Calculator
