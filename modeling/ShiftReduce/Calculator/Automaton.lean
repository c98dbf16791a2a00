import ShiftReduce.Calculator.Grammar

namespace ShiftReduce.Calculator

def row (actions : List (Token × Cell)) (fallback : Cell) (gotos : List (Phrase × UInt32)) :
    State where
  actions := .ofList (actions.map fun p => (p.1.terminal, p.2))
  fallback
  gotos := .ofList (gotos.map fun p => (p.1.nonterminal, ⟨p.2⟩))

def operand : List (Token × Cell) := [(.number, 6), (.ident, 10), (.leftParen, 8), (.minus, 9)]

/-- The cells of a state behind a term: it may go on with a factor, or rule `r` is complete. -/
def termEnd (r : Cell) : List (Token × Cell) :=
  [(.asterisk, 19), (.slash, 20), (.semicolon, -r), (.plus, -r), (.minus, -r), (.rightParen, -r)]

/-- The states of the automaton. Each comment gives what has been read of the rules in
progress. -/
def states : Array State := #[
  -- 0: nothing
  row [] (-2) [(.stmts, 1)],
  -- 1: Stmts
  row [(.endOfInput, -1), (.error, 12), (.number, 6), (.ident, 7), (.leftParen, 8), (.minus, 9)]
    0 [(.stmt, 2), (.expr, 3), (.term, 4), (.factor, 5)],
  -- 2: Stmts Stmt
  row [] (-3) [],
  -- 3: Expr, at the head of a statement
  row [(.semicolon, 14), (.plus, 15), (.minus, 16)] 0 [],
  -- 4: Term, at the head of an expression
  row (termEnd 9) 0 [],
  -- 5: Factor, at the head of a term
  row [] (-12) [],
  -- 6: number
  row [] (-13) [],
  -- 7: identifier, at the head of a statement
  row [(.equals, 23), (.asterisk, -14), (.slash, -14), (.semicolon, -14), (.plus, -14),
    (.minus, -14)] 0 [],
  -- 8: '('
  row operand 0 [(.expr, 26), (.term, 4), (.factor, 5)],
  -- 9: '-' as a sign
  row operand 0 [(.factor, 11)],
  -- 10: identifier, anywhere else
  row [] (-14) [],
  -- 11: '-' Factor
  row [] (-16) [],
  -- 12: error
  row [(.semicolon, 13)] 0 [],
  -- 13: error ';'
  row [] (-6) [],
  -- 14: Expr ';'
  row [] (-4) [],
  -- 15: Expr '+'
  row operand 0 [(.term, 17), (.factor, 5)],
  -- 16: Expr '-'
  row operand 0 [(.term, 18), (.factor, 5)],
  -- 17: Expr '+' Term
  row (termEnd 7) 0 [],
  -- 18: Expr '-' Term
  row (termEnd 8) 0 [],
  -- 19: Term '*'
  row operand 0 [(.factor, 21)],
  -- 20: Term '/'
  row operand 0 [(.factor, 22)],
  -- 21: Term '*' Factor
  row [] (-10) [],
  -- 22: Term '/' Factor
  row [] (-11) [],
  -- 23: identifier '='
  row operand 0 [(.expr, 24), (.term, 4), (.factor, 5)],
  -- 24: identifier '=' Expr
  row [(.semicolon, 25), (.plus, 15), (.minus, 16)] 0 [],
  -- 25: identifier '=' Expr ';'
  row [] (-5) [],
  -- 26: '(' Expr
  row [(.rightParen, 27), (.plus, 15), (.minus, 16)] 0 [],
  -- 27: '(' Expr ')'
  row [] (-15) []]

def draft : Draft where
  rules := (Production.all.map Production.rule).toArray
  states
  errorTerminal := Token.error.terminal
  endTerminal := Token.endOfInput.terminal
  acceptRule := ⟨1⟩
  terminalNames := ("" :: Token.all.map Token.label).toArray
  nonterminalNames := (Phrase.all.map Phrase.label).toArray

theorem draft_sound : draft.firstViolation = none := by decide +kernel

def tables : Tables := ⟨draft, draft_sound⟩

end ShiftReduce.Calculator
