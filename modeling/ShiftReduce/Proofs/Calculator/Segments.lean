import ShiftReduce.Proofs.Calculator.Boundary
import ShiftReduce.Proofs.Machine.Tiles

namespace ShiftReduce.Calculator

abbrev Lexemes := List (Lexeme Value Span)

def isSemicolon (l : Lexeme Value Span) : Bool := l.terminal = Token.semicolon.terminal

/-- The tokens of the statements: each reaches up to its semicolon. What comes behind the last
semicolon belongs to none. -/
def segments : Lexemes → List Lexemes
  | [] => []
  | l :: rest =>
    if isSemicolon l then [l] :: segments rest
    else match segments rest with
      | [] => []
      | s :: later => (l :: s) :: later

theorem segments_cons {words : Lexemes} {l : Lexeme Value Span} (w : Lexemes)
    (h : ∀ l ∈ words, isSemicolon l = false) (hl : isSemicolon l = true) :
    segments (words ++ l :: w) = (words ++ [l]) :: segments w := by
  induction words with
  | nil => simp [segments, hl]
  | cons l' words ih =>
    rw [List.cons_append, segments, ih fun x hx => h x (List.mem_cons_of_mem l' hx),
      h l' List.mem_cons_self]
    rfl

/-- The variable that a statement assigns to: it begins with a name and an equals sign. -/
def target? : Lexemes → Option String
  | ⟨t, .ident name, _⟩ :: l :: _ =>
    if t = Token.ident.terminal ∧ l.terminal = Token.equals.terminal then some name else none
  | _ => none

theorem target?_eq_none {w : Lexemes} (h : ∀ l ∈ w, l.terminal ≠ Token.equals.terminal) :
    target? w = none := by
  unfold target?
  split
  · rw [if_neg fun hw => h _ (by simp) hw.2]
  · rfl

theorem target?_cons {l l' : Lexeme Value Span} {name : String}
    (hl : l.terminal = Token.ident.terminal) (hv : l.value = .ident name)
    (hl' : l'.terminal = Token.equals.terminal) (rest : Lexemes) :
    target? (l :: l' :: rest) = some name := by
  obtain ⟨t, v, s⟩ := l
  simp_all [target?]

structure Covers (block : Lexemes) (s : Span) : Prop where
  start : ∃ l ∈ block.head?, s.start = l.span.start
  stop : ∃ l ∈ block.getLast?, s.stop = l.span.stop

theorem Covers.ne_nil {block : Lexemes} {s : Span} (h : Covers block s) : block ≠ [] := by
  rintro rfl
  obtain ⟨l, hl, -⟩ := h.start
  simp at hl

def Located (words : Lexemes) (e : Error) : Prop :=
  ∃ block s, e.span? = some s ∧ block <:+: words ∧ Covers block s

theorem Located.append {words : Lexemes} {e : Error} (h : Located words e) (more : Lexemes) :
    Located (words ++ more) e := by
  obtain ⟨block, s, hs, hblock, hcovers⟩ := h
  exact ⟨block, s, hs, hblock.trans (List.prefix_append words more).isInfix, hcovers⟩

/-- What a symbol was read from, with the value that it has from it. No expression contains the
end of a statement or an equals sign. -/
inductive Reads : Symbol → Value → Lexemes → Prop
  | token (l : Lexeme Value Span) (proper : l.terminal ≠ Token.error.terminal) :
      Reads (.terminal l.terminal) l.value [l]
  | phrase {X : Symbol} {block : Lexemes} (v : Value) (expression : X ∈ expressions)
      (inner : ∀ l ∈ block, l.terminal ≠ Token.semicolon.terminal ∧
        l.terminal ≠ Token.equals.terminal) : Reads X v block

def outside : List Symbol :=
  [.terminal Token.semicolon.terminal, .terminal Token.equals.terminal,
    .terminal Token.error.terminal, .nonterminal Phrase.stmt.nonterminal,
    .nonterminal Phrase.stmts.nonterminal]

namespace Reads

variable {X : Symbol} {v : Value} {block : Lexemes} {t : Terminal}

theorem of_terminal (h : Reads (.terminal t) v block) :
    ∃ l, block = [l] ∧ l.terminal = t ∧ l.value = v := by
  generalize hX : Symbol.terminal t = X at h
  cases h with
  | token l proper => exact ⟨l, rfl, (Symbol.terminal.inj hX).symm, rfl⟩
  | phrase v expression inner =>
    rw [← hX] at expression
    simp [expressions] at expression

theorem inner (h : Reads X v block) (hX : X ∉ outside) : ∀ l ∈ block,
    l.terminal ≠ Token.semicolon.terminal ∧ l.terminal ≠ Token.equals.terminal := by
  cases h with
  | token l proper =>
    intro l' hl'
    obtain rfl := List.mem_singleton.1 hl'
    simp only [outside, List.mem_cons, Symbol.terminal.injEq, not_or] at hX
    exact ⟨hX.1, hX.2.1⟩
  | phrase v expression inner => exact inner

theorem plain (h : Reads X v block) (hX : X ≠ .terminal Token.semicolon.terminal) :
    ∀ l ∈ block, isSemicolon l = false := by
  cases h with
  | token l proper =>
    intro l' hl'
    obtain rfl := List.mem_singleton.1 hl'
    simpa [isSemicolon] using hX
  | phrase v expression inner => exact fun l hl => by simpa [isSemicolon] using (inner l hl).1

/-- Neither the statements nor the error terminal are read in the middle of a statement. -/
theorem proper (h : Reads X v block) : X ≠ .terminal Token.error.terminal ∧
    X ≠ .nonterminal Phrase.stmt.nonterminal ∧ X ≠ .nonterminal Phrase.stmts.nonterminal := by
  cases h with
  | token l proper => simpa using proper
  | phrase v expression inner =>
    have checked : ∀ X ∈ expressions, X ≠ .terminal Token.error.terminal ∧
        X ≠ .nonterminal Phrase.stmt.nonterminal ∧
        X ≠ .nonterminal Phrase.stmts.nonterminal := by decide
    exact checked X expression

end Reads

theorem entered_afterStmts :
    entered afterStmts = some (.nonterminal Phrase.stmts.nonterminal) := rfl

theorem entered_afterError : entered afterError = some (.terminal Token.error.terminal) := rfl

/-- A frame with the tokens that its symbol was read from. -/
structure Piece where
  frame : Frame Value Span
  tokens : Lexemes

structure Piece.Sound (q : Piece) : Prop where
  reads : ∃ X, entered q.frame.state = some X ∧ Reads X q.frame.value q.tokens
  covers : Covers q.tokens q.frame.span

namespace Piece.Sound

variable {q : Piece} {X : Symbol}

theorem reads_of (h : q.Sound) (hX : entered q.frame.state = some X) :
    Reads X q.frame.value q.tokens := by
  obtain ⟨Y, hY, hreads⟩ := h.reads
  obtain rfl := Option.some.inj (hX.symm.trans hY)
  exact hreads

theorem plain (h : q.Sound)
    (hne : entered q.frame.state ≠ some (.terminal Token.semicolon.terminal)) :
    ∀ l ∈ q.tokens, isSemicolon l = false := by
  obtain ⟨X, hX, hreads⟩ := h.reads
  exact hreads.plain fun h => hne (h ▸ hX)

theorem state_ne (h : q.Sound) : q.frame.state ≠ afterError ∧ q.frame.state ≠ afterStmts := by
  obtain ⟨X, hX, hreads⟩ := h.reads
  refine ⟨fun hs => hreads.proper.1 ?_, fun hs => hreads.proper.2.2 ?_⟩
  · exact Option.some.inj (hX.symm.trans (hs ▸ entered_afterError))
  · exact Option.some.inj (hX.symm.trans (hs ▸ entered_afterStmts))

end Piece.Sound

/-- A phrase covers what its parts cover. -/
theorem Covers.spread {parts : List Piece} (hne : parts ≠ []) (h : ∀ q ∈ parts, q.Sound)
    (gap : Span) : Covers (parts.flatMap Piece.tokens)
      (Machine.spread gap (parts.map Piece.frame)) := by
  constructor
  · obtain ⟨q, rest, rfl⟩ := List.exists_cons_of_ne_nil hne
    obtain ⟨l, hl, hspan⟩ := (h q List.mem_cons_self).covers.start
    refine ⟨l, ?_, ?_⟩
    · rw [List.flatMap_cons, List.head?_append, Option.mem_def.1 hl]
      rfl
    · exact (ends_spread Span.ends gap (by simp)).1.trans hspan
  · obtain ⟨init, q, rfl⟩ : ∃ init q, parts = init ++ [q] := by
      simpa using (List.eq_nil_or_concat parts).resolve_left hne
    obtain ⟨l, hl, hspan⟩ := (h q (by simp)).covers.stop
    refine ⟨l, ?_, ?_⟩
    · rw [List.flatMap_append, List.flatMap_singleton, List.getLast?_append, Option.mem_def.1 hl]
      rfl
    · have hne : (init ++ [q]).map Piece.frame ≠ [] := by simp
      have hlast := (ends_spread Span.ends gap hne).2
      simp only [List.map_append, List.map_singleton, List.getLast_append_singleton] at hlast ⊢
      exact hlast.trans hspan

end ShiftReduce.Calculator
