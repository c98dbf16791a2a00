import ShiftReduce.Calculator.Checked
import ShiftReduce.Calculator.Grammar
import ShiftReduce.Machine.Basic
import ShiftReduce.Quoted

namespace ShiftReduce.Calculator

/-- What a token or a phrase carries. Expressions carry numbers, identifiers their name, and all
else nothing. -/
inductive Value
  | nothing
  | ident (name : String)
  | number (n : Int64)
deriving DecidableEq

structure Diagnostic where
  message : String
  span : Span
deriving DecidableEq

def Diagnostic.render (d : Diagnostic) : String := s!"{d.span.render}: {d.message}"

/-- A source being read, with the value and the span of the token read last. The newest
diagnostic comes first. -/
structure Lexer where
  rest : List Char
  place : Position := {}
  value : Value := .nothing
  span : Span := {}
  diagnostics : List Diagnostic := []

namespace Lexer

def ofString (source : String) : Lexer := { rest := source.toList }

def isBlank (c : Char) : Bool := c = ' ' || c = '\t' || c = '\r' || c = '\n'

/-- Goes past blanks and past comments, which run from `#` to the end of the line. -/
def skipBlanks (inComment : Bool) (p : Position) : List Char → Position × List Char
  | [] => (p, [])
  | c :: rest =>
    if inComment then skipBlanks (c ≠ '\n') (p.next c) rest
    else if isBlank c then skipBlanks false (p.next c) rest
    else if c = '#' then skipBlanks true (p.next c) rest
    else (p, c :: rest)

def isNameStart (c : Char) : Bool := c.isAlpha || c = '_'

def isNamePart (c : Char) : Bool := c.isAlphanum || c = '_'

def mark : Char → Token
  | '+' => .plus
  | '-' => .minus
  | '*' => .asterisk
  | '/' => .slash
  | '(' => .leftParen
  | ')' => .rightParen
  | '=' => .equals
  | ';' => .semicolon
  | _ => .invalid

def munch : List Char → Token × List Char × List Char
  | [] => (.endOfInput, [], [])
  | c :: rest =>
    if c.isDigit then (.number, c :: rest.takeWhile Char.isDigit, rest.dropWhile Char.isDigit)
    else if isNameStart c then (.ident, c :: rest.takeWhile isNamePart, rest.dropWhile isNamePart)
    else (mark c, [c], rest)

def numeral (digits : List Char) : Nat :=
  digits.foldl (fun n c => 10 * n + (c.toNat - '0'.toNat)) 0

def oversized (digits : List Char) : String :=
  s!"invalid number {String.ofList digits}: number too large to fit in target type"

/-- Reads the next token. A number that is too large is reported here and read as invalid. -/
def next (x : Lexer) : Token × Lexer :=
  let (start, rest) := skipBlanks false x.place x.rest
  let (t, text, rest) := munch rest
  let stop := start.advance text
  let span : Span := ⟨start, stop⟩
  let x := { x with rest, place := stop, span, value := .nothing }
  match t with
  | .number =>
    match Checked.ofInt? (numeral text) with
    | some n => (.number, { x with value := .number n })
    | none => (.invalid, { x with diagnostics := ⟨oversized text, span⟩ :: x.diagnostics })
  | .ident => (.ident, { x with value := .ident (String.ofList text) })
  | t => (t, x)

def nextLog (x : Lexer) : List LogLine :=
  let (_, rest) := skipBlanks false x.place x.rest
  let (read, text, _) := munch rest
  let (t, x) := x.next
  let place := x.span.render
  let complaint : List LogLine :=
    if read = .invalid then
      let shown := Quoted.render (String.ofList text)
      [⟨.trace, s!"invalid character {shown} at {place}"⟩]
    else []
  complaint ++ [⟨.trace, s!"token {t.label} at {place}"⟩]

def take (x : Lexer) : Value × Lexer := (x.value, { x with value := .nothing })

structure Reading where
  token : Token
  value : Value
  span : Span
  log : List LogLine

def readings : Nat → Lexer → List Reading × Lexer
  | 0, x => ([], x)
  | n + 1, x =>
    let (token, y) := x.next
    let reading : Reading := ⟨token, y.value, y.span, x.nextLog⟩
    if token = .endOfInput then ([reading], y)
    else
      let (rest, z) := readings n y
      (reading :: rest, z)

/-- All tokens of a source: each but the last takes at least one character. -/
def readAll (x : Lexer) : List Reading × Lexer := readings (x.rest.length + 1) x

def isReported (x : Lexer) (span : Span) : Bool := x.diagnostics.head?.any (·.span = span)

/-- A token that was complained about just before gets no second diagnostic. -/
def report (message : String) (span : Span) (x : Lexer) : Lexer :=
  if x.isReported span then x
  else { x with diagnostics := ⟨message, span⟩ :: x.diagnostics }

def reportLog (message : String) (span : Span) (x : Lexer) : List LogLine :=
  if x.isReported span then [⟨.debug, s!"{span.render}: {message} (already reported)"⟩] else []

def scanner : Scanner Lexer Value Span where
  next x :=
    let (t, y) := x.next
    (t.terminal, y, x.nextLog)
  value := take
  span := Lexer.span
  report message span x := (x.report message span, x.reportLog message span)
  proper x := x.next.1.terminal_ne_reserved

end Lexer

end ShiftReduce.Calculator
