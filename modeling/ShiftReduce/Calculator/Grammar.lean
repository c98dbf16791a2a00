import ShiftReduce.Tables

namespace ShiftReduce.Calculator

/-- The terminals. No state takes an invalid token. -/
inductive Token
  | endOfInput
  | error
  | number
  | ident
  | plus
  | minus
  | asterisk
  | slash
  | leftParen
  | rightParen
  | equals
  | semicolon
  | invalid
deriving DecidableEq

namespace Token

def all : List Token :=
  [endOfInput, error, number, ident, plus, minus, asterisk, slash, leftParen, rightParen, equals,
    semicolon, invalid]

def terminal : Token → Terminal
  | endOfInput => ⟨1⟩
  | error => ⟨2⟩
  | number => ⟨3⟩
  | ident => ⟨4⟩
  | plus => ⟨5⟩
  | minus => ⟨6⟩
  | asterisk => ⟨7⟩
  | slash => ⟨8⟩
  | leftParen => ⟨9⟩
  | rightParen => ⟨10⟩
  | equals => ⟨11⟩
  | semicolon => ⟨12⟩
  | invalid => ⟨13⟩

theorem terminal_ne_reserved (t : Token) : t.terminal ≠ .reserved := by
  cases t <;> decide

def label : Token → String
  | endOfInput => "$end"
  | error => "error"
  | number => "number"
  | ident => "identifier"
  | plus => "'+'"
  | minus => "'-'"
  | asterisk => "'*'"
  | slash => "'/'"
  | leftParen => "'('"
  | rightParen => "')'"
  | equals => "'='"
  | semicolon => "';'"
  | invalid => "invalid token"

end Token

/-- The nonterminals; `augmented` stands above the start symbol. -/
inductive Phrase
  | augmented
  | program
  | stmts
  | stmt
  | expr
  | term
  | factor
deriving DecidableEq

namespace Phrase

def all : List Phrase := [augmented, program, stmts, stmt, expr, term, factor]

def nonterminal : Phrase → Nonterminal
  | augmented => ⟨0⟩
  | program => ⟨1⟩
  | stmts => ⟨2⟩
  | stmt => ⟨3⟩
  | expr => ⟨4⟩
  | term => ⟨5⟩
  | factor => ⟨6⟩

def label : Phrase → String
  | augmented => "$accept"
  | program => "Program"
  | stmts => "Stmts"
  | stmt => "Stmt"
  | expr => "Expr"
  | term => "Term"
  | factor => "Factor"

end Phrase

inductive Production
  | augmented
  | program
  | noStmts
  | moreStmts
  | exprStmt
  | assignment
  | errorStmt
  | sum
  | difference
  | exprOfTerm
  | product
  | quotient
  | termOfFactor
  | literal
  | reference
  | parens
  | negation
deriving DecidableEq

namespace Production

def all : List Production :=
  [augmented, program, noStmts, moreStmts, exprStmt, assignment, errorStmt, sum, difference,
    exprOfTerm, product, quotient, termOfFactor, literal, reference, parens, negation]

def ofRule? (r : RuleId) : Option Production := all[r.id.toNat]?

def rule (p : Production) : Rule :=
  let t (a : Token) : Symbol := .terminal a.terminal
  let n (a : Phrase) : Symbol := .nonterminal a.nonterminal
  let make (lhs : Phrase) (rhs : List Symbol) : Rule := ⟨lhs.nonterminal, rhs⟩
  match p with
  | augmented => make .augmented [n .program, t .endOfInput]
  | program => make .program [n .stmts]
  | noStmts => make .stmts []
  | moreStmts => make .stmts [n .stmts, n .stmt]
  | exprStmt => make .stmt [n .expr, t .semicolon]
  | assignment => make .stmt [t .ident, t .equals, n .expr, t .semicolon]
  | errorStmt => make .stmt [t .error, t .semicolon]
  | sum => make .expr [n .expr, t .plus, n .term]
  | difference => make .expr [n .expr, t .minus, n .term]
  | exprOfTerm => make .expr [n .term]
  | product => make .term [n .term, t .asterisk, n .factor]
  | quotient => make .term [n .term, t .slash, n .factor]
  | termOfFactor => make .term [n .factor]
  | literal => make .factor [t .number]
  | reference => make .factor [t .ident]
  | parens => make .factor [t .leftParen, n .expr, t .rightParen]
  | negation => make .factor [t .minus, n .factor]

end Production

end ShiftReduce.Calculator
