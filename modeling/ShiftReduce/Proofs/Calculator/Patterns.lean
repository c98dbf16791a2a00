import Mathlib.Computability.Language
import Mathlib.Data.List.TakeWhile
import ShiftReduce.Proofs.Calculator.Lexemes

namespace ShiftReduce.Calculator

open scoped Computability

def one (P : Char → Prop) : Language Char := {text | ∃ c, P c ∧ text = [c]}

theorem mem_one {P : Char → Prop} {text : List Char} :
    text ∈ one P ↔ ∃ c, P c ∧ text = [c] := Iff.rfl

theorem mem_kstar_one {P : Char → Prop} {text : List Char} :
    text ∈ (one P)∗ ↔ ∀ c ∈ text, P c := by
  constructor
  · rintro ⟨words, rfl, hwords⟩ c hc
    obtain ⟨word, hword, hc⟩ := List.mem_flatten.1 hc
    obtain ⟨d, hd, rfl⟩ := hwords word hword
    rwa [List.mem_singleton.1 hc]
  · intro h
    refine ⟨text.map ([·]), (List.flatMap_singleton' text).symm, ?_⟩
    intro word hword
    obtain ⟨c, hc, rfl⟩ := List.mem_map.1 hword
    exact ⟨c, h c hc, rfl⟩

theorem mem_one_mul_kstar {P Q : Char → Prop} {text : List Char} :
    text ∈ one P * (one Q)∗ ↔ ∃ c rest, text = c :: rest ∧ P c ∧ ∀ d ∈ rest, Q d := by
  rw [Language.mem_mul]
  constructor
  · rintro ⟨_, ⟨c, hc, rfl⟩, rest, hrest, rfl⟩
    exact ⟨c, rest, rfl, hc, mem_kstar_one.1 hrest⟩
  · rintro ⟨c, rest, rfl, hc, hrest⟩
    exact ⟨[c], ⟨c, hc, rfl⟩, rest, mem_kstar_one.2 hrest, rfl⟩

inductive Pattern
  | whiteSpace
  | comment
  | number
  | ident
  | plus
  | minus
  | asterisk
  | slash
  | leftParen
  | rightParen
  | equals
  | semicolon
deriving DecidableEq

namespace Pattern

def isLetter (c : Char) : Prop := 'A' ≤ c ∧ c ≤ 'Z' ∨ 'a' ≤ c ∧ c ≤ 'z' ∨ c = '_'

def digit (c : Char) : Prop := '0' ≤ c ∧ c ≤ '9'

def language : Pattern → Language Char
  | whiteSpace => one (· ∈ [' ', '\t', '\r', '\n']) * (one (· ∈ [' ', '\t', '\r', '\n']))∗
  | comment => one (· = '#') * (one (· ≠ '\n'))∗
  | number => one digit * (one digit)∗
  | ident => one isLetter * (one fun c => isLetter c ∨ digit c)∗
  | plus => one (· = '+')
  | minus => one (· = '-')
  | asterisk => one (· = '*')
  | slash => one (· = '/')
  | leftParen => one (· = '(')
  | rightParen => one (· = ')')
  | equals => one (· = '=')
  | semicolon => one (· = ';')

/-- The token that a pattern stands for. Blanks and comments are skipped. -/
def token : Pattern → Option Token
  | whiteSpace | comment => none
  | number => some .number
  | ident => some .ident
  | plus => some .plus
  | minus => some .minus
  | asterisk => some .asterisk
  | slash => some .slash
  | leftParen => some .leftParen
  | rightParen => some .rightParen
  | equals => some .equals
  | semicolon => some .semicolon

def ofHead (c : Char) : Option Pattern :=
  if Lexer.isBlank c then some whiteSpace
  else if c = '#' then some comment
  else if c.isDigit then some number
  else if Lexer.isNameStart c then some ident
  else match c with
    | '+' => some plus
    | '-' => some minus
    | '*' => some asterisk
    | '/' => some slash
    | '(' => some leftParen
    | ')' => some rightParen
    | '=' => some equals
    | ';' => some semicolon
    | _ => none

def begins : Pattern → Char → Bool
  | whiteSpace, c => Lexer.isBlank c
  | comment, c => c = '#'
  | number, c => c.isDigit
  | ident, c => Lexer.isNameStart c
  | plus, c => c = '+'
  | minus, c => c = '-'
  | asterisk, c => c = '*'
  | slash, c => c = '/'
  | leftParen, c => c = '('
  | rightParen, c => c = ')'
  | equals, c => c = '='
  | semicolon, c => c = ';'

def goesOn : Pattern → Char → Bool
  | whiteSpace, c => Lexer.isBlank c
  | comment, c => c ≠ '\n'
  | number, c => c.isDigit
  | ident, c => Lexer.isNamePart c
  | _, _ => false

variable {c : Char} {p : Pattern} {text : List Char}

theorem blank_iff : c ∈ [' ', '\t', '\r', '\n'] ↔ Lexer.isBlank c = true := by
  simp [Lexer.isBlank, or_assoc]

theorem digit_iff : digit c ↔ c.isDigit = true := by
  simp [digit, Char.isDigit, Char.le_def, UInt32.le_iff_toNat_le]

theorem isAlpha_iff : c.isAlpha = true ↔ 'A' ≤ c ∧ c ≤ 'Z' ∨ 'a' ≤ c ∧ c ≤ 'z' := by
  have hupper : c.isUpper = true ↔ 'A' ≤ c ∧ c ≤ 'Z' := decide_eq_true_iff
  have hlower : c.isLower = true ↔ 'a' ≤ c ∧ c ≤ 'z' :=
    Bool.and_eq_true_iff.trans (and_congr decide_eq_true_iff decide_eq_true_iff)
  exact Bool.or_eq_true_iff.trans (or_congr hupper hlower)

theorem isLetter_iff : isLetter c ↔ Lexer.isNameStart c = true := by
  simp [isLetter, Lexer.isNameStart, isAlpha_iff, or_assoc]

theorem isNamePart_iff : isLetter c ∨ digit c ↔ Lexer.isNamePart c = true := by
  rw [isLetter_iff, digit_iff]
  simp only [Lexer.isNameStart, Lexer.isNamePart, Char.isAlphanum, Bool.or_eq_true]
  exact or_right_comm

/-- What a pattern matches is told by the first character and the others. -/
theorem mem_language : text ∈ p.language ↔
    ∃ c rest, text = c :: rest ∧ p.begins c = true ∧ ∀ d ∈ rest, p.goesOn d = true := by
  have alone {P : Char → Prop} : text ∈ one P ↔
      ∃ c rest, text = c :: rest ∧ P c ∧ ∀ d ∈ rest, false = true := by
    rw [mem_one]
    constructor
    · rintro ⟨c, hc, rfl⟩
      exact ⟨c, [], rfl, hc, by simp⟩
    · rintro ⟨c, rest, rfl, hc, hrest⟩
      refine ⟨c, hc, ?_⟩
      rw [List.eq_nil_iff_forall_not_mem.2 fun d hd => Bool.false_ne_true (hrest d hd)]
  cases p with
  | whiteSpace =>
    refine mem_one_mul_kstar.trans ?_
    simp only [begins, goesOn, blank_iff]
  | comment =>
    refine mem_one_mul_kstar.trans ?_
    simp only [begins, goesOn, decide_eq_true_eq]
  | number =>
    refine mem_one_mul_kstar.trans ?_
    simp only [begins, goesOn, digit_iff]
  | ident =>
    refine mem_one_mul_kstar.trans ?_
    simp only [begins, goesOn, isNamePart_iff]
    simp only [isLetter_iff]
  | _ =>
    refine alone.trans ?_
    simp only [begins, goesOn, decide_eq_true_eq]

theorem isNamePart_of_isNameStart (h : Lexer.isNameStart c = true) :
    Lexer.isNamePart c = true := isNamePart_iff.1 (.inl (isLetter_iff.2 h))

theorem isNamePart_of_isDigit (h : c.isDigit = true) : Lexer.isNamePart c = true :=
  isNamePart_iff.1 (.inr (digit_iff.2 h))

theorem not_blank_of_isNamePart (h : Lexer.isNamePart c = true) :
    ¬ Lexer.isBlank c = true ∧ c ≠ '#' := by
  constructor
  · rw [← blank_iff]
    intro hc
    simp only [List.mem_cons, List.not_mem_nil, or_false] at hc
    rcases hc with rfl | rfl | rfl | rfl <;> exact absurd h (by decide)
  · rintro rfl
    exact absurd h (by decide)

theorem not_isDigit_of_isNameStart (h : Lexer.isNameStart c = true) : ¬ c.isDigit = true := by
  rw [← isLetter_iff] at h
  rw [← digit_iff]
  simp only [isLetter, digit, Char.le_def, UInt32.le_iff_toNat_le] at h ⊢
  rcases h with h | h | rfl
  · have hle : '9'.val.toNat < 'A'.val.toNat := by decide
    omega
  · have hle : '9'.val.toNat < 'a'.val.toNat := by decide
    omega
  · decide

/-- The pattern is known from the first character. -/
theorem ofHead_eq_some : ofHead c = some p ↔ p.begins c = true := by
  constructor
  · intro h
    unfold ofHead at h
    split_ifs at h with hblank hcomment hdigit hname
    · obtain rfl := Option.some.inj h
      exact hblank
    · obtain rfl := Option.some.inj h
      exact decide_eq_true hcomment
    · obtain rfl := Option.some.inj h
      exact hdigit
    · obtain rfl := Option.some.inj h
      exact hname
    · split at h <;> first | (obtain rfl := Option.some.inj h; rfl) | cases h
  · intro h
    cases p with
    | whiteSpace => exact if_pos h
    | number =>
      obtain ⟨hblank, hcomment⟩ := not_blank_of_isNamePart (isNamePart_of_isDigit h)
      unfold ofHead
      rw [if_neg hblank, if_neg hcomment]
      exact if_pos h
    | ident =>
      obtain ⟨hblank, hcomment⟩ := not_blank_of_isNamePart (isNamePart_of_isNameStart h)
      unfold ofHead
      rw [if_neg hblank, if_neg hcomment, if_neg (not_isDigit_of_isNameStart h)]
      exact if_pos h
    | _ =>
      obtain rfl := of_decide_eq_true h
      rfl

/-- The longest text at the head of `c :: rest` that a pattern matches. -/
def lead (c : Char) (rest : List Char) : List Char :=
  c :: match ofHead c with
    | some p => rest.takeWhile p.goesOn
    | none => []

theorem lead_eq (h : ofHead c = some p) (rest : List Char) :
    lead c rest = c :: rest.takeWhile p.goesOn := by
  rw [lead, h]

/-- The longest match ends where its pattern cannot go on. -/
theorem eq_dropWhile_of_lead {rest after : List Char} (h : ofHead c = some p)
    (hl : lead c rest ++ after = c :: rest) : after = rest.dropWhile p.goesOn := by
  rw [lead_eq h] at hl
  have hsplit := List.takeWhile_append_dropWhile (p := p.goesOn) (l := rest)
  exact List.append_cancel_left ((List.cons.inj hl).2.trans hsplit.symm)

theorem lead_isPrefix (c : Char) (rest : List Char) : lead c rest <+: c :: rest := by
  refine (List.prefix_cons_inj c).2 ?_
  split
  · exact List.takeWhile_prefix _
  · exact List.nil_prefix

theorem lead_mem (h : ofHead c = some p) (rest : List Char) : lead c rest ∈ p.language := by
  rw [lead_eq h, mem_language]
  exact ⟨c, _, rfl, ofHead_eq_some.1 h, fun d hd => List.mem_takeWhile_imp hd⟩

/-- What is neither blank nor the head of a longer token stands alone. -/
theorem ofHead_of_mark (hblank : ¬ Lexer.isBlank c = true) (hcomment : c ≠ '#')
    (hdigit : ¬ c.isDigit = true) (hname : ¬ Lexer.isNameStart c = true) :
    (ofHead c).elim (some .invalid) token = some (Lexer.mark c) ∧
      ∀ rest, lead c rest = [c] := by
  have hkind : (ofHead c).elim (some .invalid) token = some (Lexer.mark c) := by
    unfold ofHead
    rw [if_neg hblank, if_neg hcomment, if_neg hdigit, if_neg hname]
    split
    case h_9 => simp [Lexer.mark]
    all_goals rfl
  refine ⟨hkind, fun rest => ?_⟩
  cases hq : ofHead c with
  | none => rw [lead, hq]
  | some q =>
    have hhead := ofHead_eq_some.1 hq
    rw [lead_eq hq]
    cases q with
    | whiteSpace => exact absurd hhead hblank
    | comment => exact absurd (of_decide_eq_true hhead) hcomment
    | number => exact absurd hhead hdigit
    | ident => exact absurd hhead hname
    | _ => cases rest <;> rfl

theorem ofHead_of_mem {rest : List Char} (hhead : text <+: c :: rest) (hmem : text ∈ p.language) :
    ofHead c = some p := by
  obtain ⟨d, others, rfl, hd, -⟩ := mem_language.1 hmem
  obtain ⟨rfl, -⟩ := List.cons_prefix_cons.1 hhead
  exact ofHead_eq_some.2 hd

/-- Whatever a pattern matches is part of the longest. -/
theorem isPrefix_lead {rest : List Char} (hhead : text <+: c :: rest) (hmem : text ∈ p.language) :
    text <+: lead c rest := by
  rw [lead_eq (ofHead_of_mem hhead hmem)]
  obtain ⟨d, others, rfl, -, hothers⟩ := mem_language.1 hmem
  obtain ⟨rfl, more, rfl⟩ := List.cons_prefix_cons.1 hhead
  rw [List.takeWhile_append_of_pos hothers]
  exact List.prefix_append (d :: others) _

end Pattern

/-- What is taken at the head of a text is the longest that a pattern matches, and a single
character where there is no match. -/
def Takes (l : List Char) : Option Pattern → List Char → Prop
  | some p, text => text <+: l ∧ text ∈ p.language ∧
      ∀ q : Pattern, ∀ other ∈ q.language, other <+: l → other.length ≤ text.length
  | none, text => text <+: l ∧ text.length = 1 ∧
      ∀ q : Pattern, ∀ other ∈ q.language, ¬ other <+: l

theorem takes_iff {l text : List Char} {kind : Option Pattern} : Takes l kind text ↔
    ∃ c rest, l = c :: rest ∧ kind = Pattern.ofHead c ∧ text = Pattern.lead c rest := by
  constructor
  · cases kind with
    | some p =>
      rintro ⟨hhead, hmem, hlongest⟩
      obtain ⟨c, others, rfl, -⟩ := Pattern.mem_language.1 hmem
      obtain ⟨more, rfl⟩ := hhead
      have hkind : Pattern.ofHead c = some p :=
        Pattern.ofHead_of_mem (List.prefix_append (c :: others) more) hmem
      refine ⟨c, others ++ more, rfl, hkind.symm, ?_⟩
      refine (Pattern.isPrefix_lead (List.prefix_append _ _) hmem).eq_of_length_le ?_
      exact hlongest p _ (Pattern.lead_mem hkind _) (Pattern.lead_isPrefix _ _)
    | none =>
      rintro ⟨hhead, hlength, hnone⟩
      obtain ⟨c, rfl⟩ := List.length_eq_one_iff.1 hlength
      obtain ⟨rest, rfl⟩ := hhead
      have hkind : Pattern.ofHead c = none := by
        refine Option.eq_none_iff_forall_ne_some.2 fun p hp => ?_
        exact hnone p _ (Pattern.lead_mem hp rest) (Pattern.lead_isPrefix _ _)
      exact ⟨c, rest, rfl, hkind.symm, by rw [Pattern.lead, hkind]⟩
  · rintro ⟨c, rest, rfl, rfl, rfl⟩
    cases hkind : Pattern.ofHead c with
    | some p =>
      refine ⟨Pattern.lead_isPrefix c rest, Pattern.lead_mem hkind rest, ?_⟩
      intro q other hmem hhead
      exact (Pattern.isPrefix_lead hhead hmem).length_le
    | none =>
      refine ⟨Pattern.lead_isPrefix c rest, by rw [Pattern.lead, hkind]; rfl, ?_⟩
      intro q other hmem hhead
      rw [Pattern.ofHead_of_mem hhead hmem] at hkind
      cases hkind

end ShiftReduce.Calculator
