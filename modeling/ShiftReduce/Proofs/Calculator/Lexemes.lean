import ShiftReduce.Calculator.Lexer
import ShiftReduce.Proofs.Machine.Supply

namespace ShiftReduce.Calculator

theorem Token.terminal_injective {a b : Token} (h : a.terminal = b.terminal) : a = b := by
  cases a <;> cases b <;> simp_all [Token.terminal]

namespace Lexer

/-- A token as it stands in the text: what it looks like, its characters, where it starts and what
follows it. -/
structure Item where
  look : Token
  text : List Char
  start : Position
  rest : List Char

namespace Item

variable (i : Item)

def stop : Position := i.start.advance i.text

def span : Span := ⟨i.start, i.stop⟩

def excessive : Bool := i.look = .number && (Checked.ofInt? (numeral i.text)).isNone

def token : Token := if i.excessive then .invalid else i.look

def value : Value :=
  match i.look with
  | .number => ((Checked.ofInt? (numeral i.text)).map Value.number).getD .nothing
  | .ident => .ident (String.ofList i.text)
  | _ => .nothing

def lexeme : Lexeme Value Span := ⟨i.token.terminal, i.value, i.span⟩

def complaint : List Diagnostic := if i.excessive then [⟨oversized i.text, i.span⟩] else []

end Item

def item (p : Position) (l : List Char) : Item :=
  let (start, l) := skipBlanks false p l
  let (look, text, rest) := munch l
  ⟨look, text, start, rest⟩

theorem next_eq (x : Lexer) : x.next = ((item x.place x.rest).token,
    { rest := (item x.place x.rest).rest
      place := (item x.place x.rest).stop
      value := (item x.place x.rest).value
      span := (item x.place x.rest).span
      diagnostics := (item x.place x.rest).complaint ++ x.diagnostics }) := by
  unfold next item
  rcases skipBlanks false x.place x.rest with ⟨start, l⟩
  dsimp only
  rcases munch l with ⟨look, text, rest⟩
  dsimp only [Item.token, Item.excessive, Item.value, Item.complaint, Item.span, Item.stop]
  cases look with
  | number =>
    simp only [decide_true, Bool.true_and]
    cases Checked.ofInt? (numeral text) <;> simp
  | _ => simp

theorem diagnostics_next (x : Lexer) :
    x.next.2.diagnostics = (item x.place x.rest).complaint ++ x.diagnostics := by rw [next_eq]

theorem complaint_of_ne_invalid {x : Lexer} (h : x.next.1 ≠ .invalid) :
    (item x.place x.rest).complaint = [] := by
  rw [next_eq] at h
  unfold Item.complaint
  split
  · rename_i hex
    exact absurd (by simp [Item.token, hex]) h
  · rfl

theorem skipBlanks_append (b : Bool) (p : Position) (l : List Char) :
    ∃ gone, l = gone ++ (skipBlanks b p l).2 ∧ (skipBlanks b p l).1 = p.advance gone := by
  fun_induction skipBlanks b p l with
  | case1 => exact ⟨[], rfl, rfl⟩
  | case5 => exact ⟨[], rfl, rfl⟩
  | case2 | case3 | case4 =>
    rename_i ih
    obtain ⟨gone, hl, hp⟩ := ih
    exact ⟨_ :: gone, by rw [List.cons_append, ← hl], by rw [hp, Position.advance_cons]⟩

theorem skipBlanks_of_blank {p : Position} {gone rest : List Char}
    (h : ∀ c ∈ gone, isBlank c = true) :
    skipBlanks false p (gone ++ rest) = skipBlanks false (p.advance gone) rest := by
  induction gone generalizing p with
  | nil => rfl
  | cons c gone ih =>
    obtain ⟨hc, hgone⟩ := List.forall_mem_cons.1 h
    rw [List.cons_append, skipBlanks, if_neg Bool.false_ne_true, if_pos hc, ih hgone]
    rfl

theorem munch_append (l : List Char) : (munch l).2.1 ++ (munch l).2.2 = l := by
  unfold munch
  split
  · rfl
  · split
    · simp
    · split <;> simp

theorem munch_eq_endOfInput_iff (l : List Char) :
    (munch l).1 = .endOfInput ↔ (munch l).2.1 = [] := by
  unfold munch
  split
  · simp
  · split
    · simp
    · split
      · simp
      · simp only [reduceCtorEq, iff_false]
        unfold mark
        split <;> simp

/-- Blanks, the token and the rest make up the text. -/
theorem item_append (p : Position) (l : List Char) : ∃ gone,
    l = gone ++ (item p l).text ++ (item p l).rest ∧ (item p l).start = p.advance gone := by
  obtain ⟨gone, hl, hp⟩ := skipBlanks_append false p l
  refine ⟨gone, ?_, hp⟩
  rw [List.append_assoc]
  simp only [item, munch_append]
  exact hl

theorem look_eq_endOfInput_iff (p : Position) (l : List Char) :
    (item p l).look = .endOfInput ↔ (item p l).text = [] := munch_eq_endOfInput_iff _

theorem token_eq_endOfInput_iff (i : Item) : i.token = .endOfInput ↔ i.look = .endOfInput := by
  unfold Item.token Item.excessive
  split
  · rename_i h
    have hn : i.look = .number := by simpa using (Bool.and_eq_true_iff.1 h).1
    simp [hn]
  · exact Iff.rfl

theorem rest_of_text_eq_nil {p : Position} {l : List Char} (h : (item p l).text = []) :
    (item p l).rest = [] := by
  have key : ∀ l : List Char, (munch l).2.1 = [] → (munch l).2.2 = [] := by
    intro l h
    unfold munch at h ⊢
    split
    · rfl
    · split <;> simp_all
      split at h <;> simp_all
  exact key _ h

/-- Each token but the last takes at least one character. -/
theorem length_item_rest_lt {p : Position} {l : List Char} (h : (item p l).look ≠ .endOfInput) :
    (item p l).rest.length < l.length := by
  obtain ⟨gone, hl, -⟩ := item_append p l
  have ht : (item p l).text ≠ [] := fun ht => h ((look_eq_endOfInput_iff p l).2 ht)
  have hlen := congrArg List.length hl
  have hpos := List.length_pos_iff.2 ht
  simp only [List.length_append] at hlen
  omega

theorem length_rest_lt {x : Lexer} (h : x.next.1 ≠ .endOfInput) :
    x.next.2.rest.length < x.rest.length := by
  rw [next_eq] at h ⊢
  exact length_item_rest_lt fun hlook => h ((token_eq_endOfInput_iff _).2 hlook)

def reading (x : Lexer) : Reading := ⟨x.next.1, x.next.2.value, x.next.2.span, x.nextLog⟩

theorem readings_succ (n : Nat) (x : Lexer) : (readings (n + 1) x).1 =
    x.reading :: if x.next.1 = .endOfInput then [] else (readings n x.next.2).1 := by
  simp only [readings]
  split <;> simp_all [reading]

/-- More steps than there are characters read no more. -/
theorem readings_of_lt {n : Nat} {x : Lexer} (h : x.rest.length < n) :
    (readings n x).1 = x.readAll.1 := by
  induction hk : x.rest.length using Nat.strongRecOn generalizing n x with
  | ind k ih =>
    subst hk
    obtain ⟨n, rfl⟩ := Nat.exists_eq_add_one_of_ne_zero (by omega : n ≠ 0)
    rw [readAll, readings_succ, readings_succ]
    split
    · rfl
    · rename_i hend
      have hlt := length_rest_lt hend
      rw [ih _ hlt (by omega) rfl, ih _ hlt hlt rfl]

theorem readAll_eq (x : Lexer) : x.readAll.1 =
    x.reading :: if x.next.1 = .endOfInput then [] else x.next.2.readAll.1 := by
  rw [readAll, readings_succ]
  split
  · rfl
  · rename_i hend
    rw [readings_of_lt (length_rest_lt hend)]

/-- The tokens of a text but for the end of input. -/
def lexemes (x : Lexer) : List (Lexeme Value Span) :=
  x.readAll.1.dropLast.map fun r => ⟨r.token.terminal, r.value, r.span⟩

theorem lexemes_eq (x : Lexer) : x.lexemes = if x.next.1 = .endOfInput then []
    else ⟨x.next.1.terminal, x.next.2.value, x.next.2.span⟩ :: x.next.2.lexemes := by
  rw [lexemes, readAll_eq]
  split
  · rfl
  · have hne : x.next.2.readAll.1 ≠ [] := by rw [readAll_eq]; simp
    rw [List.dropLast_cons_of_ne_nil hne]
    rfl

theorem lexemes_of_end {x : Lexer} (h : x.next.1 = .endOfInput) : x.lexemes = [] := by
  rw [lexemes_eq, if_pos h]

theorem lexemes_of_ne {x : Lexer} (h : x.next.1 ≠ .endOfInput) : x.lexemes =
    ⟨x.next.1.terminal, x.next.2.value, x.next.2.span⟩ :: x.next.2.lexemes := by
  rw [lexemes_eq, if_neg h]

def items (p : Position) (l : List Char) : List Item :=
  if _ : (item p l).look = .endOfInput then []
  else item p l :: items (item p l).stop (item p l).rest
termination_by l.length
decreasing_by exact length_item_rest_lt ‹_›

theorem items_of_end {p : Position} {l : List Char} (h : (item p l).look = .endOfInput) :
    items p l = [] := by
  rw [items, dif_pos h]

theorem items_of_ne {p : Position} {l : List Char} (h : (item p l).look ≠ .endOfInput) :
    items p l = item p l :: items (item p l).stop (item p l).rest := by
  rw [items, dif_neg h]

theorem lexemes_eq_items (x : Lexer) : x.lexemes = (items x.place x.rest).map Item.lexeme := by
  induction hk : x.rest.length using Nat.strongRecOn generalizing x with
  | ind k ih =>
    subst hk
    have hend : x.next.1 = .endOfInput ↔ (item x.place x.rest).look = .endOfInput := by
      rw [next_eq]
      exact token_eq_endOfInput_iff _
    by_cases hlook : (item x.place x.rest).look = .endOfInput
    · rw [lexemes_of_end (hend.2 hlook), items_of_end hlook, List.map_nil]
    · have hne := fun h => hlook (hend.1 h)
      have hrest := ih _ (length_rest_lt hne) x.next.2 rfl
      rw [lexemes_of_ne hne, items_of_ne hlook, List.map_cons, hrest, next_eq]
      rfl

/-- The tokens depend on the text alone and on the place where it begins. -/
theorem lexemes_congr {x y : Lexer} (hr : x.rest = y.rest) (hp : x.place = y.place) :
    x.lexemes = y.lexemes := by
  rw [lexemes_eq_items, lexemes_eq_items, hr, hp]

/-- There are no more tokens than characters. -/
theorem length_lexemes_le (x : Lexer) : x.lexemes.length ≤ x.rest.length := by
  induction hk : x.rest.length using Nat.strongRecOn generalizing x with
  | ind k ih =>
    subst hk
    by_cases hend : x.next.1 = .endOfInput
    · simp [lexemes_of_end hend]
    · have hlt := length_rest_lt hend
      have htail := ih _ hlt x.next.2 rfl
      rw [lexemes_of_ne hend, List.length_cons]
      omega

/-- After the end of input comes the end of input. -/
theorem next_next_of_end {x : Lexer} (h : x.next.1 = .endOfInput) :
    x.next.2.next.1 = .endOfInput := by
  have hrest : x.next.2.rest = [] := by
    rw [next_eq] at h ⊢
    exact rest_of_text_eq_nil
      ((look_eq_endOfInput_iff _ _).1 ((token_eq_endOfInput_iff _).1 h))
  rw [next_eq, hrest]
  rfl

theorem mem_lexemes {x : Lexer} {l : Lexeme Value Span} (hl : l ∈ x.lexemes) :
    ∃ y : Lexer, y.next.1 ≠ .endOfInput ∧
      l = ⟨y.next.1.terminal, y.next.2.value, y.next.2.span⟩ := by
  induction hk : x.rest.length using Nat.strongRecOn generalizing x with
  | ind k ih =>
    subst hk
    by_cases hend : x.next.1 = .endOfInput
    · simp [lexemes_of_end hend] at hl
    · rw [lexemes_of_ne hend] at hl
      rcases List.mem_cons.1 hl with rfl | hl
      · exact ⟨x, hend, rfl⟩
      · exact ih _ (length_rest_lt hend) hl rfl

section Report

variable (message : String) (span : Span) (x : Lexer)

@[simp] theorem rest_report : (x.report message span).rest = x.rest := by
  unfold report
  split <;> rfl

@[simp] theorem place_report : (x.report message span).place = x.place := by
  unfold report
  split <;> rfl

@[simp] theorem value_report : (x.report message span).value = x.value := by
  unfold report
  split <;> rfl

@[simp] theorem span_report : (x.report message span).span = x.span := by
  unfold report
  split <;> rfl

end Report

def supply : Supply scanner Token.endOfInput.terminal where
  pending := lexemes
  terminal_ne hl := by
    obtain ⟨y, hend, rfl⟩ := mem_lexemes hl
    exact fun h => hend (Token.terminal_injective h)
  next_nil {x} h := by
    have hend : x.next.1 = .endOfInput :=
      Decidable.byContradiction fun hne => by simp [lexemes_of_ne hne] at h
    exact ⟨congrArg Token.terminal hend, lexemes_of_end (next_next_of_end hend)⟩
  next_cons {x l rest} h := by
    have hend : x.next.1 ≠ .endOfInput := fun hend => by simp [lexemes_of_end hend] at h
    rw [lexemes_of_ne hend] at h
    obtain ⟨rfl, hrest⟩ := List.cons.inj h
    exact ⟨rfl, rfl, rfl, hrest⟩
  after_value x := ⟨lexemes_congr rfl rfl, rfl⟩
  after_report text span x := by
    simp only [scanner, report]
    split
    · exact ⟨rfl, rfl, rfl⟩
    · exact ⟨lexemes_congr rfl rfl, rfl, rfl⟩

theorem look_ne_error (p : Position) (l : List Char) : (item p l).look ≠ .error := by
  have key : ∀ l : List Char, (munch l).1 ≠ .error := by
    intro l
    unfold munch
    split
    · simp
    · split
      · simp
      · split
        · simp
        · dsimp only
          unfold mark
          split <;> simp
  exact key _

/-- A token has a value fit for it: a number carries a number, an identifier a name. -/
theorem value_next (x : Lexer) : (x.next.1 = .number → ∃ n, x.next.2.value = .number n) ∧
    (x.next.1 = .ident → ∃ name, x.next.2.value = .ident name) ∧ x.next.1 ≠ .error := by
  rw [next_eq]
  have herror := look_ne_error x.place x.rest
  generalize item x.place x.rest = i at herror ⊢
  obtain ⟨look, text, start, rest⟩ := i
  dsimp only [Item.token, Item.value, Item.excessive] at herror ⊢
  cases look with
  | number =>
    simp only [decide_true, Bool.true_and]
    cases Checked.ofInt? (numeral text) <;> simp
  | error => exact absurd rfl herror
  | _ => simp

end Lexer

end ShiftReduce.Calculator
