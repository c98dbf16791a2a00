import Mathlib.Data.List.DropRight
import Mathlib.Data.Nat.Digits.Defs
import ShiftReduce.Proofs.Calculator.Lexemes
import ShiftReduce.Proofs.Calculator.Patterns

namespace ShiftReduce

namespace Position

/-- The position behind a text is told by its line feeds and by the characters after the last
of them. -/
def ofText (text : List Char) : Position :=
  ⟨text.count '\n', (text.rtakeWhile (· ≠ '\n')).length⟩

theorem next_ofText (text : List Char) (c : Char) :
    (ofText text).next c = ofText (text ++ [c]) := by
  unfold next ofText
  rw [List.count_append, List.count_singleton]
  split
  · rename_i hc
    rw [List.rtakeWhile_concat_neg _ _ _ (by simp [hc]), hc]
    rfl
  · rename_i hc
    rw [List.rtakeWhile_concat_pos _ _ _ (by simp [hc]), List.length_append, if_neg (by simpa)]
    rfl

theorem advance_ofText (s t : List Char) : (ofText s).advance t = ofText (s ++ t) := by
  induction t generalizing s with
  | nil => simp
  | cons c t ih => rw [advance_cons, next_ofText, ih, List.append_assoc, List.singleton_append]

end Position

namespace Calculator

/-- A part of a source: the pattern it matches, its characters and those around it. Characters
that match no pattern stand alone. -/
structure Part where
  before : List Char
  kind : Option Pattern
  text : List Char
  after : List Char

namespace Part

variable (i : Part)

def number : Nat := Nat.ofDigits 10 (i.text.map fun c => c.toNat - '0'.toNat).reverse

def tooLarge : Bool := i.kind = some .number && 2 ^ 63 ≤ i.number

/-- What the part looks like. Blanks and comments look like no token. -/
def look : Option Token := i.kind.elim (some .invalid) Pattern.token

def token : Option Token := if i.tooLarge then some .invalid else i.look

def value : Value :=
  match i.kind with
  | some .number => if i.tooLarge then .nothing else .number (Int64.ofNat i.number)
  | some .ident => .ident (String.ofList i.text)
  | _ => .nothing

def span : Span := ⟨.ofText i.before, .ofText (i.before ++ i.text)⟩

def complaint : List Diagnostic :=
  if i.tooLarge then [⟨Lexer.oversized i.text, i.span⟩] else []

end Part

/-- A text is cut into parts from the left, each as long as can be. -/
inductive Cut : List Char → List Char → List Part → Prop
  | nil (before : List Char) : Cut before [] []
  | cons {before l text after : List Char} {kind : Option Pattern} {parts : List Part}
      (split : l = text ++ after) (taken : Takes l kind text)
      (rest : Cut (before ++ text) after parts) :
      Cut before l (⟨before, kind, text, after⟩ :: parts)

namespace Cut

variable {before l : List Char} {parts others : List Part}

/-- There is one way to cut. -/
theorem unique (h : Cut before l parts) (h' : Cut before l others) : others = parts := by
  induction h generalizing others with
  | nil =>
    cases h' with
    | nil => rfl
    | cons _ taken =>
      obtain ⟨c, rest, hl, -⟩ := takes_iff.1 taken
      cases hl
  | cons split taken _ ih =>
    obtain ⟨c, rest, rfl, rfl, rfl⟩ := takes_iff.1 taken
    cases h' with
    | cons split' taken' rest' =>
      obtain ⟨_, _, hl, rfl, rfl⟩ := takes_iff.1 taken'
      obtain ⟨rfl, rfl⟩ := List.cons.inj hl
      obtain rfl := List.append_cancel_left (split.symm.trans split')
      rw [ih rest']

end Cut

namespace Lexer

variable {p : Position} {gone rest : List Char}

theorem skipBlanks_of_comment (h : ∀ c ∈ gone, c ≠ '\n') :
    skipBlanks true p (gone ++ rest) = skipBlanks true (p.advance gone) rest := by
  induction gone generalizing p with
  | nil => rfl
  | cons c gone ih =>
    obtain ⟨hc, hgone⟩ := List.forall_mem_cons.1 h
    rw [List.cons_append, skipBlanks, if_pos rfl, decide_eq_true hc, ih hgone]
    rfl

/-- A comment is left at the end of its line, which is blank. -/
theorem skipBlanks_dropWhile (rest : List Char) :
    skipBlanks true p (rest.dropWhile (· ≠ '\n')) =
      skipBlanks false p (rest.dropWhile (· ≠ '\n')) := by
  induction rest with
  | nil => rfl
  | cons c rest ih =>
    by_cases hc : c = '\n'
    · subst hc
      rfl
    · rw [List.dropWhile_cons_of_pos (by simpa using hc)]
      exact ih

end Lexer

namespace Part

variable {i : Part} {t : Token}

/-- Blanks and comments are skipped. -/
theorem skipBlanks_eq (h : Takes (i.text ++ i.after) i.kind i.text) (hlook : i.look = none)
    (p : Position) : Lexer.skipBlanks false p (i.text ++ i.after) =
      Lexer.skipBlanks false (p.advance i.text) i.after := by
  obtain ⟨before, kind, text, after⟩ := i
  obtain ⟨c, rest, hl, hkind, htext⟩ := takes_iff.1 h
  dsimp only at *
  subst hkind htext
  cases hq : Pattern.ofHead c with
  | none => simp [look, hq] at hlook
  | some q =>
    have hafter := Pattern.eq_dropWhile_of_lead hq hl
    have hhead := Pattern.ofHead_eq_some.1 hq
    rw [Pattern.lead_eq hq]
    cases q with
    | whiteSpace =>
      refine Lexer.skipBlanks_of_blank fun d hd => ?_
      rcases List.mem_cons.1 hd with rfl | hd
      · exact hhead
      · exact List.mem_takeWhile_imp hd
    | comment =>
      obtain rfl : c = '#' := of_decide_eq_true hhead
      rw [hafter]
      refine Eq.trans ?_ (Lexer.skipBlanks_dropWhile rest)
      refine Lexer.skipBlanks_of_comment fun d hd => ?_
      have hgoesOn : Pattern.comment.goesOn d = true := List.mem_takeWhile_imp hd
      exact of_decide_eq_true hgoesOn
    | _ => simp [look, hq, Pattern.token] at hlook

theorem not_blank_of_look {c : Char} (hkind : i.kind = Pattern.ofHead c)
    (hlook : i.look = some t) : ¬ Lexer.isBlank c = true ∧ c ≠ '#' := by
  constructor
  · intro hblank
    have hq : Pattern.ofHead c = some .whiteSpace := Pattern.ofHead_eq_some.2 hblank
    rw [look, hkind, hq] at hlook
    cases hlook
  · intro hcomment
    have hq : Pattern.ofHead c = some .comment :=
      Pattern.ofHead_eq_some.2 (decide_eq_true hcomment)
    rw [look, hkind, hq] at hlook
    cases hlook

/-- Nothing is skipped before a token. -/
theorem skipBlanks_self (h : Takes (i.text ++ i.after) i.kind i.text) (hlook : i.look = some t)
    (p : Position) :
    Lexer.skipBlanks false p (i.text ++ i.after) = (p, i.text ++ i.after) := by
  obtain ⟨c, rest, hl, hkind, -⟩ := takes_iff.1 h
  obtain ⟨hblank, hcomment⟩ := not_blank_of_look hkind hlook
  rw [hl, Lexer.skipBlanks, if_neg Bool.false_ne_true, if_neg hblank, if_neg hcomment]

/-- A token is read as it stands. -/
theorem munch_eq (h : Takes (i.text ++ i.after) i.kind i.text) (hlook : i.look = some t) :
    Lexer.munch (i.text ++ i.after) = (t, i.text, i.after) := by
  obtain ⟨c, rest, hl, hkind, htext⟩ := takes_iff.1 h
  obtain ⟨hblank, hcomment⟩ := not_blank_of_look hkind hlook
  have hlead : Pattern.lead c rest ++ i.after = c :: rest := htext ▸ hl
  rw [hl, htext, Lexer.munch]
  by_cases hdigit : c.isDigit = true
  · have hq : Pattern.ofHead c = some .number := Pattern.ofHead_eq_some.2 hdigit
    rw [look, hkind, hq] at hlook
    rw [if_pos hdigit, Pattern.lead_eq hq, Pattern.eq_dropWhile_of_lead hq hlead,
      ← Option.some.inj hlook]
    rfl
  by_cases hname : Lexer.isNameStart c = true
  · have hq : Pattern.ofHead c = some .ident := Pattern.ofHead_eq_some.2 hname
    rw [look, hkind, hq] at hlook
    rw [if_neg hdigit, if_pos hname, Pattern.lead_eq hq, Pattern.eq_dropWhile_of_lead hq hlead,
      ← Option.some.inj hlook]
    rfl
  · obtain ⟨hmark, hone⟩ := Pattern.ofHead_of_mark hblank hcomment hdigit hname
    rw [look, hkind, hmark] at hlook
    rw [hone] at hlead
    rw [if_neg hdigit, if_neg hname, hone, Option.some.inj hlook, (List.cons.inj hlead).2.symm]
    rfl

theorem item_of_none (h : Takes (i.text ++ i.after) i.kind i.text) (hlook : i.look = none)
    (p : Position) : Lexer.item p (i.text ++ i.after) = Lexer.item (p.advance i.text) i.after := by
  rw [Lexer.item, Lexer.item, skipBlanks_eq h hlook]

theorem item_of_some (h : Takes (i.text ++ i.after) i.kind i.text) (hlook : i.look = some t)
    (p : Position) : Lexer.item p (i.text ++ i.after) = ⟨t, i.text, p, i.after⟩ := by
  rw [Lexer.item, skipBlanks_self h hlook]
  dsimp only
  rw [munch_eq h hlook]

theorem numeral_text : Lexer.numeral i.text = i.number := by
  rw [number, Nat.ofDigits_eq_foldr, List.foldr_reverse, List.foldl_map, Lexer.numeral]
  simp only [Nat.cast_id, Nat.add_comm]

theorem ofInt?_number :
    Checked.ofInt? i.number = if 2 ^ 63 ≤ i.number then none else some (Int64.ofNat i.number) := by
  split
  · rename_i hlarge
    refine Option.eq_none_iff_forall_ne_some.2 fun n hn => ?_
    have hn' := Checked.ofInt?_eq_some.1 hn
    have hlt := n.toInt_lt
    omega
  · rename_i hlarge
    exact Checked.ofInt?_eq_some.2 (Int64.toInt_ofNat_of_lt (by omega))

theorem look_eq_number : i.look = some .number ↔ i.kind = some .number := by
  unfold look
  cases i.kind with
  | none => simp
  | some p => cases p <;> simp [Pattern.token]

section

variable (hlook : i.look = some t) (start : Position) (rest : List Char)

include hlook

/-- The lexer finds the same numbers too large. -/
theorem excessive_eq : Lexer.Item.excessive ⟨t, i.text, start, rest⟩ = i.tooLarge := by
  have hnumber : decide (t = .number) = decide (i.kind = some .number) := by
    rw [decide_eq_decide, ← look_eq_number, hlook, Option.some_inj]
  unfold Lexer.Item.excessive tooLarge
  dsimp only
  rw [numeral_text, ofInt?_number, hnumber]
  by_cases hlarge : 2 ^ 63 ≤ i.number
  · rw [if_pos hlarge, decide_eq_true hlarge]
    rfl
  · rw [if_neg hlarge, decide_eq_false hlarge]
    rfl

theorem token_eq : i.token = some (Lexer.Item.token ⟨t, i.text, start, rest⟩) := by
  unfold token Lexer.Item.token
  rw [excessive_eq hlook, hlook]
  split <;> rfl

theorem value_eq : Lexer.Item.value ⟨t, i.text, start, rest⟩ = i.value := by
  unfold Lexer.Item.value value
  dsimp only
  rw [numeral_text, ofInt?_number]
  unfold look at hlook
  cases hkind : i.kind with
  | none =>
    rw [hkind] at hlook
    obtain rfl := Option.some.inj hlook
    rfl
  | some q =>
    rw [hkind] at hlook
    cases q with
    | whiteSpace | comment => cases hlook
    | number =>
      obtain rfl := Option.some.inj hlook
      have htoo : i.tooLarge = decide (2 ^ 63 ≤ i.number) := by
        rw [tooLarge, decide_eq_true hkind, Bool.true_and]
      by_cases hlarge : 2 ^ 63 ≤ i.number
      · rw [if_pos hlarge, if_pos (htoo.trans (decide_eq_true hlarge))]
        rfl
      · rw [if_neg hlarge, if_neg (by rw [htoo]; simpa using hlarge)]
        rfl
    | _ =>
      obtain rfl := Option.some.inj hlook
      rfl

theorem complaint_eq : Lexer.Item.complaint ⟨t, i.text, .ofText i.before, rest⟩ = i.complaint := by
  unfold Lexer.Item.complaint complaint
  rw [excessive_eq hlook, Lexer.Item.span, Lexer.Item.stop]
  dsimp only
  rw [Position.advance_ofText]
  rfl

end

def isToken (i : Part) : Bool := i.look.isSome

end Part

/-- What is read next is the first token of the parts to come, or the end. -/
theorem Cut.item_eq {before l : List Char} {parts : List Part} (h : Cut before l parts) :
    match parts.filter Part.isToken with
    | [] => Lexer.item (.ofText before) l = ⟨.endOfInput, [], .ofText (before ++ l), []⟩
    | i :: more => ∃ t others, i.look = some t ∧
        Lexer.item (.ofText before) l = ⟨t, i.text, .ofText i.before, i.after⟩ ∧
        before ++ l = i.before ++ i.text ++ i.after ∧
        Cut (i.before ++ i.text) i.after others ∧ others.filter Part.isToken = more := by
  induction h with
  | nil before => simp [Lexer.item, Lexer.skipBlanks, Lexer.munch]
  | @cons before l text after kind parts split taken rest ih =>
    subst split
    cases hlook : Part.look ⟨before, kind, text, after⟩ with
    | none =>
      rw [List.filter_cons_of_neg (by simp [Part.isToken, hlook])]
      have hitem : Lexer.item (.ofText before) (text ++ after) =
          Lexer.item (.ofText (before ++ text)) after := by
        rw [← Position.advance_ofText]
        exact Part.item_of_none taken hlook (.ofText before)
      rw [hitem, ← List.append_assoc]
      exact ih
    | some t =>
      rw [List.filter_cons_of_pos (by simp [Part.isToken, hlook])]
      exact ⟨t, parts, hlook, Part.item_of_some taken hlook _, (List.append_assoc _ _ _).symm,
        rest, rfl⟩

inductive Call
  | next
  | value
  | report (message : String) (span : Span)
deriving DecidableEq

def Call.run (x : Lexer) : Call → Lexer
  | next => (Lexer.scanner.next x).2.1
  | value => (Lexer.scanner.value x).2
  | report message span => (Lexer.scanner.report message span x).1

/-- The lexer reads a part of its source as the next token. -/
structure ReadsPart (x : Lexer) (i : Part) : Prop where
  terminal : i.token.map Token.terminal = some (Lexer.scanner.next x).1
  value : (Lexer.scanner.value (Call.next.run x)).1 = i.value
  span : Lexer.scanner.span (Call.next.run x) = i.span
  rest : (Call.next.run x).rest = i.after
  diagnostics : (Call.next.run x).diagnostics = i.complaint ++ x.diagnostics

structure ReadsEnd (x : Lexer) (source : List Char) : Prop where
  terminal : (Lexer.scanner.next x).1 = Token.endOfInput.terminal
  value : (Lexer.scanner.value (Call.next.run x)).1 = .nothing
  span : Lexer.scanner.span (Call.next.run x) = .point (.ofText source)
  rest : (Call.next.run x).rest = []
  diagnostics : (Call.next.run x).diagnostics = x.diagnostics

/-- The lexer stands in a source behind its first `k` tokens. -/
def StandsBehind (source : List Char) (parts : List Part) (k : Nat) (x : Lexer) : Prop :=
  ∃ before others, source = before ++ x.rest ∧ x.place = .ofText before ∧
    Cut before x.rest others ∧ others.filter Part.isToken = (parts.filter Part.isToken).drop k

variable {source : List Char} {parts : List Part} {k : Nat} {x : Lexer}

/-- What the lexer finds next. -/
theorem StandsBehind.item_eq (h : StandsBehind source parts k x) :
    match (parts.filter Part.isToken)[k]? with
    | some i => ∃ t others, i.look = some t ∧
        Lexer.item x.place x.rest = ⟨t, i.text, .ofText i.before, i.after⟩ ∧
        source = i.before ++ i.text ++ i.after ∧ Cut (i.before ++ i.text) i.after others ∧
        others.filter Part.isToken = (parts.filter Part.isToken).drop (k + 1)
    | none => Lexer.item x.place x.rest = ⟨.endOfInput, [], .ofText source, []⟩ := by
  obtain ⟨before, others, rfl, hplace, hcut, hothers⟩ := h
  have hitem := hcut.item_eq
  rw [hplace, ← List.head?_drop, ← List.drop_drop, ← hothers]
  cases hfilter : others.filter Part.isToken with
  | nil =>
    rw [hfilter] at hitem
    exact hitem
  | cons i more =>
    rw [hfilter] at hitem
    exact hitem

theorem StandsBehind.next (h : StandsBehind source parts k x) :
    StandsBehind source parts (k + 1) (Call.next.run x) := by
  have hitem := h.item_eq
  change StandsBehind source parts (k + 1) x.next.2
  rw [Lexer.next_eq]
  split at hitem
  · obtain ⟨t, others, -, hitem, hsource, hcut, hothers⟩ := hitem
    rw [hitem]
    exact ⟨_, others, hsource, Position.advance_ofText _ _, hcut, hothers⟩
  · rename_i hend
    rw [hitem]
    refine ⟨source, [], (List.append_nil _).symm, rfl, .nil _, ?_⟩
    exact (List.drop_eq_nil_of_le (Nat.le_succ_of_le (List.getElem?_eq_none_iff.1 hend))).symm

theorem StandsBehind.reads (h : StandsBehind source parts k x) :
    match (parts.filter Part.isToken)[k]? with
    | some i => ReadsPart x i
    | none => ReadsEnd x source := by
  have hitem := h.item_eq
  have hnext : Call.next.run x = x.next.2 := rfl
  have hterminal : (Lexer.scanner.next x).1 = x.next.1.terminal := rfl
  cases hpart : (parts.filter Part.isToken)[k]? with
  | none =>
    rw [hpart] at hitem
    rw [Lexer.next_eq, hitem] at hnext hterminal
    exact
      { terminal := hterminal
        value := by rw [hnext]; rfl
        span := by rw [hnext]; rfl
        rest := by rw [hnext]
        diagnostics := by rw [hnext]; rfl }
  | some i =>
    rw [hpart] at hitem
    obtain ⟨t, others, hlook, hitem, -⟩ := hitem
    rw [Lexer.next_eq, hitem] at hnext hterminal
    exact
      { terminal := by rw [hterminal, Part.token_eq hlook]; rfl
        value := by rw [hnext]; exact Part.value_eq hlook _ _
        span := by rw [hnext]; exact congrArg (Span.mk _) (Position.advance_ofText _ _)
        rest := by rw [hnext]
        diagnostics := by rw [hnext, Part.complaint_eq hlook] }

theorem StandsBehind.run (h : StandsBehind source parts k x) (call : Call) :
    StandsBehind source parts (k + [call].count .next) (call.run x) := by
  cases call with
  | next => exact h.next
  | value => exact h
  | report message span =>
    change StandsBehind source parts k (x.report message span)
    unfold Lexer.report
    split
    · exact h
    · exact h

end Calculator

end ShiftReduce
