import ShiftReduce.Proofs.Calculator.Lexemes

namespace ShiftReduce

namespace Position

/-- Where a position of a text lies when the text begins at `o`. Only the columns of its first line
are other ones. -/
def movedBy (p o : Position) : Position :=
  ⟨o.line + p.line, if p.line = 0 then o.column + p.column else p.column⟩

theorem zero_movedBy (o : Position) : ({} : Position).movedBy o = o := rfl

theorem next_movedBy (o p : Position) (c : Char) :
    (p.movedBy o).next c = (p.next c).movedBy o := by
  unfold next
  split
  · rfl
  · simp only [movedBy]
    split <;> rfl

theorem advance_movedBy (o p : Position) (text : List Char) :
    (p.movedBy o).advance text = (p.advance text).movedBy o := by
  induction text generalizing p with
  | nil => rfl
  | cons c text ih => rw [advance_cons, advance_cons, next_movedBy, ih]

def down (k : Nat) (p : Position) : Position := ⟨p.line + k, p.column⟩

theorem down_eq (k : Nat) (p : Position) : p.down k = p.movedBy ⟨k, 0⟩ := by
  simp [down, movedBy, Nat.add_comm]

@[simp] theorem down_zero (p : Position) : p.down 0 = p := rfl

theorem down_injective {k : Nat} {p q : Position} (h : p.down k = q.down k) : p = q := by
  obtain ⟨line, column⟩ := p
  obtain ⟨line', column'⟩ := q
  simp_all [down]

theorem line_advance (p : Position) (text : List Char) :
    (p.advance text).line = p.line + text.count '\n' := by
  induction text generalizing p with
  | nil => rfl
  | cons c text ih =>
    rw [advance_cons, ih, next, List.count_cons]
    split
    · simp_all
      omega
    · simp_all

/-- A line feed leads to the head of a line. -/
theorem advance_lineFeed (p : Position) (text : List Char) :
    (p.advance text).next '\n' = ⟨p.line + (text.count '\n' + 1), 0⟩ := by
  rw [next, if_pos rfl, line_advance, Nat.add_assoc]

def Precedes (p q : Position) : Prop := p.line < q.line ∨ p.line = q.line ∧ p.column < q.column

namespace Precedes

variable {p q r : Position}

theorem trans (h : p.Precedes q) (h' : q.Precedes r) : p.Precedes r := by
  unfold Precedes at *
  omega

theorem ne (h : p.Precedes q) : p ≠ q := by
  rintro rfl
  unfold Precedes at h
  omega

theorem line_le (h : p.Precedes q) : p.line ≤ q.line := by
  unfold Precedes at h
  omega

theorem next (p : Position) (c : Char) : p.Precedes (p.next c) := by
  unfold Precedes Position.next
  split <;> simp

theorem advance (h : p.Precedes q) (text : List Char) : p.Precedes (q.advance text) := by
  induction text generalizing q with
  | nil => exact h
  | cons c text ih => exact ih (h.trans (next q c))

theorem of_text (p : Position) {text : List Char} (h : text ≠ []) :
    p.Precedes (p.advance text) := by
  cases text with
  | nil => exact absurd rfl h
  | cons c text => exact (next p c).advance text

end Precedes

def NotAfter (p q : Position) : Prop := ¬q.Precedes p

namespace NotAfter

variable {p q r : Position}

theorem refl (p : Position) : p.NotAfter p := fun h => h.ne rfl

theorem trans (h : p.NotAfter q) (h' : q.NotAfter r) : p.NotAfter r := by
  unfold NotAfter Precedes at *
  omega

theorem of_precedes (h : p.Precedes q) : p.NotAfter q := fun h' => (h.trans h').ne rfl

theorem trans_precedes (h : p.NotAfter q) (h' : q.Precedes r) : p.Precedes r := by
  unfold NotAfter Precedes at *
  omega

theorem advance (p : Position) (text : List Char) : p.NotAfter (p.advance text) := by
  cases text with
  | nil => exact .refl p
  | cons c text => exact .of_precedes (.of_text p (List.cons_ne_nil c text))

end NotAfter

end Position

namespace Span

def movedBy (s : Span) (o : Position) : Span := ⟨s.start.movedBy o, s.stop.movedBy o⟩

def down (k : Nat) (s : Span) : Span := ⟨s.start.down k, s.stop.down k⟩

theorem down_eq (k : Nat) (s : Span) : s.down k = s.movedBy ⟨k, 0⟩ := by
  rw [down, Position.down_eq, Position.down_eq]
  rfl

@[simp] theorem down_zero (s : Span) : s.down 0 = s := rfl

theorem down_injective {k : Nat} {s t : Span} (h : s.down k = t.down k) : s = t := by
  obtain ⟨start, stop⟩ := s
  obtain ⟨start', stop'⟩ := t
  simp only [down, mk.injEq] at h
  rw [Position.down_injective h.1, Position.down_injective h.2]

theorem merge_down (k : Nat) (s t : Span) :
    Merge.merge (s.down k) (t.down k) = (Merge.merge s t : Span).down k := rfl

end Span

namespace Calculator

def Diagnostic.movedBy (d : Diagnostic) (o : Position) : Diagnostic :=
  ⟨d.message, d.span.movedBy o⟩

def Diagnostic.down (k : Nat) (d : Diagnostic) : Diagnostic := ⟨d.message, d.span.down k⟩

@[simp] theorem Diagnostic.down_zero (d : Diagnostic) : d.down 0 = d := rfl

/-- Whether a diagnostic is about a number that is too large, and so comes from the lexer. -/
def Diagnostic.isLexical (d : Diagnostic) : Bool :=
  "invalid number ".toList.isPrefixOf d.message.toList

namespace Lexer

namespace Item

def movedBy (i : Item) (o : Position) : Item := { i with start := i.start.movedBy o }

theorem stop_movedBy (i : Item) (o : Position) : (i.movedBy o).stop = i.stop.movedBy o :=
  Position.advance_movedBy o i.start i.text

theorem span_movedBy (i : Item) (o : Position) : (i.movedBy o).span = i.span.movedBy o := by
  rw [span, stop_movedBy]
  rfl

theorem complaint_movedBy (i : Item) (o : Position) :
    (i.movedBy o).complaint = i.complaint.map (·.movedBy o) := by
  unfold complaint
  rw [span_movedBy]
  change (if i.excessive = true then [_] else []) = _
  split <;> rfl

def down (k : Nat) (i : Item) : Item := { i with start := i.start.down k }

theorem down_eq (k : Nat) (i : Item) : i.down k = i.movedBy ⟨k, 0⟩ := by
  rw [down, Position.down_eq]
  rfl

theorem stop_down (k : Nat) (i : Item) : (i.down k).stop = i.stop.down k := by
  rw [down_eq, stop_movedBy, Position.down_eq]

theorem span_down (k : Nat) (i : Item) : (i.down k).span = i.span.down k := by
  rw [down_eq, span_movedBy, Span.down_eq]

theorem complaint_down (k : Nat) (i : Item) :
    (i.down k).complaint = i.complaint.map (·.down k) := by
  rw [down_eq, complaint_movedBy]
  refine List.map_congr_left fun d _ => ?_
  exact congrArg (Diagnostic.mk d.message) (Span.down_eq k d.span).symm

theorem isLexical_of_mem_complaint {i : Item} {d : Diagnostic} (h : d ∈ i.complaint) :
    d.isLexical = true ∧ d.span = i.span := by
  unfold complaint at h
  split at h
  · obtain rfl := List.mem_singleton.1 h
    refine ⟨?_, rfl⟩
    have htext : oversized i.text = "invalid number " ++
        (String.ofList i.text ++ ": number too large to fit in target type") :=
      String.append_assoc
    rw [Diagnostic.isLexical, List.isPrefixOf_iff_prefix, htext, String.toList_append]
    exact List.prefix_append _ _
  · simp at h

end Item

theorem skipBlanks_movedBy (b : Bool) (p o : Position) (l : List Char) :
    skipBlanks b (p.movedBy o) l = ((skipBlanks b p l).1.movedBy o, (skipBlanks b p l).2) := by
  induction l generalizing b p with
  | nil => rfl
  | cons c l ih =>
    simp only [skipBlanks, Position.next_movedBy, ih]
    split
    · rfl
    · split
      · rfl
      · split <;> rfl

theorem item_movedBy (p o : Position) (l : List Char) :
    item (p.movedBy o) l = (item p l).movedBy o := by
  simp only [item, skipBlanks_movedBy, Item.movedBy]

theorem item_down (k : Nat) (p : Position) (l : List Char) :
    item (p.down k) l = (item p l).down k := by
  rw [Position.down_eq, Item.down_eq, item_movedBy]

section Seam

structure Break (w : List Char) : Prop where
  blank : ∀ c ∈ w, isBlank c = true
  lineFeed : '\n' ∈ w

theorem Break.single : Break ['\n'] := ⟨by simp [isBlank], List.mem_singleton_self _⟩

/-- Digits and names do not go on with the first character of a break. -/
theorem Break.head {w : List Char} (hw : Break w) (q : List Char) :
    ∀ c ∈ (w ++ q).head?, Char.isDigit c = false ∧ isNamePart c = false := by
  intro c hc
  have hblank : isBlank c = true := by
    cases w with
    | nil => exact absurd hw.lineFeed List.not_mem_nil
    | cons d w =>
      obtain rfl : d = c := by simpa using hc
      exact hw.blank d List.mem_cons_self
  simp only [isBlank, Bool.or_eq_true, decide_eq_true_eq] at hblank
  rcases hblank with ((rfl | rfl) | rfl) | rfl <;> decide

variable {w : List Char} (b : Bool) (p : Position) (l q : List Char)

/-- A comment ends in a break at the latest. -/
theorem skipBlanks_break (hw : Break w) :
    skipBlanks b p (w ++ q) = skipBlanks false (p.advance w) q := by
  cases b with
  | false => exact skipBlanks_of_blank hw.blank
  | true =>
    obtain ⟨blank, lineFeed⟩ := hw
    induction w generalizing p with
    | nil => exact absurd lineFeed List.not_mem_nil
    | cons c w ih =>
      obtain ⟨-, hrest⟩ := List.forall_mem_cons.1 blank
      rw [List.cons_append, skipBlanks, if_pos rfl, Position.advance_cons]
      by_cases hc : c = '\n'
      · rw [decide_eq_false (not_not_intro hc)]
        exact skipBlanks_of_blank hrest
      · rw [decide_eq_true hc]
        exact ih _ hrest ((List.mem_cons.1 lineFeed).resolve_left (Ne.symm hc))

/-- Blanks and comments in front of a break end there at the latest. -/
theorem skipBlanks_seam (hw : Break w) : skipBlanks b p (l ++ (w ++ q)) =
    if (skipBlanks b p l).2 = [] then skipBlanks false ((skipBlanks b p l).1.advance w) q
    else ((skipBlanks b p l).1, (skipBlanks b p l).2 ++ (w ++ q)) := by
  induction l generalizing b p with
  | nil => exact skipBlanks_break b p q hw
  | cons c l ih =>
    simp only [List.cons_append, skipBlanks, ih]
    split
    · rfl
    · split
      · rfl
      · split
        · rfl
        · simp

theorem takeWhile_seam {part : Char → Bool} {r : List Char}
    (h : ∀ c ∈ r.head?, part c = false) : (l ++ r).takeWhile part = l.takeWhile part := by
  induction l with
  | nil => cases r <;> simp_all
  | cons c l ih => simp only [List.cons_append, List.takeWhile_cons, ih]

theorem dropWhile_seam {part : Char → Bool} {r : List Char}
    (h : ∀ c ∈ r.head?, part c = false) : (l ++ r).dropWhile part = l.dropWhile part ++ r := by
  induction l with
  | nil => cases r <;> simp_all
  | cons c l ih =>
    simp only [List.cons_append, List.dropWhile_cons, ih]
    split <;> rfl

/-- No token goes on beyond a break. -/
theorem munch_seam (hw : Break w) (h : l ≠ []) :
    munch (l ++ (w ++ q)) = ((munch l).1, (munch l).2.1, (munch l).2.2 ++ (w ++ q)) := by
  cases l with
  | nil => exact absurd rfl h
  | cons c l =>
    have hdigit c (hc : c ∈ (w ++ q).head?) := (hw.head q c hc).1
    have hname c (hc : c ∈ (w ++ q).head?) := (hw.head q c hc).2
    simp only [List.cons_append, munch, takeWhile_seam l hdigit, dropWhile_seam l hdigit,
      takeWhile_seam l hname, dropWhile_seam l hname]
    split
    · rfl
    · split <;> rfl

/-- A token in front of a break is read as if the text ended there. -/
theorem item_seam (hw : Break w) (h : (item p l).look ≠ .endOfInput) :
    item p (l ++ (w ++ q)) = { item p l with rest := (item p l).rest ++ (w ++ q) } := by
  have hne : (skipBlanks false p l).2 ≠ [] := by
    intro hnil
    refine h ?_
    simp only [item, hnil]
    rfl
  simp only [item, skipBlanks_seam _ _ _ _ hw, if_neg hne, munch_seam _ q hw hne]

/-- Where the text in front of a break has no more tokens, the next one is read behind it. -/
theorem item_seam_of_end (hw : Break w) (h : (item p l).look = .endOfInput) :
    item p (l ++ (w ++ q)) = item (p.advance (l ++ w)) q := by
  obtain ⟨gone, hl, hp⟩ := skipBlanks_append false p l
  have hnil : (skipBlanks false p l).2 = [] := by
    have htext := (look_eq_endOfInput_iff p l).1 h
    have hrest := rest_of_text_eq_nil htext
    have hparts := munch_append (skipBlanks false p l).2
    simp only [item] at htext hrest
    rw [← hparts, htext, hrest]
    rfl
  rw [hnil, List.append_nil] at hl
  subst hl
  simp only [item, skipBlanks_seam _ _ _ _ hw, if_pos hnil, hp, Position.advance_append]

end Seam

/-- Of the text `p` only blanks are left to read, and behind a line feed the text `q` follows. -/
def Between (p q : List Char) (x : Lexer) : Prop := ∃ gap, x.rest = gap ++ '\n' :: q ∧
  (item x.place gap).look = .endOfInput ∧ x.place.advance gap = ({} : Position).advance p

/-- What is read first of a text that follows another is what is read first of it by itself. -/
theorem Between.item_eq {p q : List Char} {x : Lexer} (h : x.Between p q) :
    item x.place x.rest = (item {} q).down (p.count '\n' + 1) := by
  obtain ⟨gap, hrest, hend, hstop⟩ := h
  rw [hrest]
  refine (item_seam_of_end _ _ q .single hend).trans ?_
  rw [Position.advance_append, hstop, ← item_down]
  exact congrArg (item · q) (Position.advance_lineFeed _ p)

theorem start_precedes_stop {p : Position} {l : List Char} (h : (item p l).look ≠ .endOfInput) :
    (item p l).start.Precedes (item p l).stop :=
  .of_text _ fun ht => h ((look_eq_endOfInput_iff p l).2 ht)

/-- What comes before a text comes before its first token. -/
theorem precedes_start {p r : Position} {l : List Char} (h : r.Precedes p) :
    r.Precedes (item p l).start := by
  obtain ⟨gone, -, hp⟩ := item_append p l
  rw [hp]
  exact h.advance gone

/-- The tokens come one after the other, and each takes some room. -/
theorem lexemes_ordered (x : Lexer) : (∀ l ∈ x.lexemes, x.place.NotAfter l.span.start ∧
    l.span.start.Precedes l.span.stop) ∧
      x.lexemes.Pairwise fun a b => a.span.stop.NotAfter b.span.start := by
  -- Induction on what is left of the text, of which every token takes away some.
  induction hk : x.rest.length using Nat.strongRecOn generalizing x with
  | ind k ih =>
    subst hk
    by_cases hend : x.next.1 = .endOfInput
    · simp [lexemes_of_end hend]
    obtain ⟨hlater, hpairs⟩ := ih _ (length_rest_lt hend) x.next.2 rfl
    have hstop : x.next.2.place = x.next.2.span.stop := by rw [next_eq]; rfl
    have hstart : x.place.NotAfter x.next.2.span.start := by
      obtain ⟨gone, -, hgone⟩ := item_append x.place x.rest
      have hitem : x.place.NotAfter (item x.place x.rest).start := by
        rw [hgone]
        exact .advance x.place gone
      rw [next_eq]
      exact hitem
    have hroom : x.next.2.span.start.Precedes x.next.2.span.stop := by
      have hlook : (item x.place x.rest).look ≠ .endOfInput := by
        intro h
        rw [next_eq] at hend
        exact hend ((token_eq_endOfInput_iff _).2 h)
      rw [next_eq]
      exact start_precedes_stop hlook
    rw [hstop] at hlater
    rw [lexemes_of_ne hend]
    refine ⟨fun l hl => ?_, List.pairwise_cons.2 ⟨fun l hl => (hlater l hl).1, hpairs⟩⟩
    rcases List.mem_cons.1 hl with rfl | hl
    · exact ⟨hstart, hroom⟩
    · obtain ⟨hnext, hproper⟩ := hlater l hl
      exact ⟨hstart.trans (.trans (.of_precedes hroom) hnext), hproper⟩

/-- The place where the text ends stays the same as it is read. -/
theorem advance_rest (p : Position) (l : List Char) :
    (item p l).stop.advance (item p l).rest = p.advance l := by
  obtain ⟨gone, hl, hp⟩ := item_append p l
  have hall := congrArg p.advance hl
  rw [Position.advance_append, Position.advance_append, ← hp] at hall
  exact hall.symm

end Lexer

end Calculator

end ShiftReduce
