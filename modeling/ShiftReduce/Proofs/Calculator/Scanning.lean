import ShiftReduce.Proofs.Calculator.Munch
import ShiftReduce.Proofs.Calculator.Seam

namespace ShiftReduce

def Lexeme.movedBy {V : Type} (l : Lexeme V Span) (o : Position) : Lexeme V Span :=
  { l with span := l.span.movedBy o }

namespace Calculator.Lexer

namespace Item

def followedBy (i : Item) (more : List Char) : Item := { i with rest := i.rest ++ more }

theorem lexeme_movedBy (i : Item) (o : Position) : (i.movedBy o).lexeme = i.lexeme.movedBy o := by
  rw [lexeme, span_movedBy]
  rfl

end Item

/-- A text is read in the same way wherever it begins. -/
theorem items_movedBy (p o : Position) (l : List Char) :
    items (p.movedBy o) l = (items p l).map (·.movedBy o) := by
  fun_induction items p l with
  | case1 p l hend =>
    apply items_of_end
    rw [item_movedBy]
    exact hend
  | case2 p l hne ih =>
    rw [items_of_ne, List.map_cons, item_movedBy, Item.stop_movedBy]
    · exact congrArg _ ih
    · rw [item_movedBy]
      exact hne

/-- A text in front of a break is read as if it ended there, and what follows the break is read
from there. -/
theorem items_seam {w : List Char} (hw : Break w) (p : Position) (l q : List Char) :
    items p (l ++ (w ++ q)) =
      (items p l).map (·.followedBy (w ++ q)) ++ items (p.advance (l ++ w)) q := by
  fun_induction items p l with
  | case1 p l hend =>
    have hitem := item_seam_of_end p l q hw hend
    rw [List.map_nil, List.nil_append]
    by_cases hq : (item (p.advance (l ++ w)) q).look = .endOfInput
    · rw [items_of_end hq]
      apply items_of_end
      rw [hitem]
      exact hq
    · rw [items_of_ne hq, items_of_ne, hitem]
      rw [hitem]
      exact hq
  | case2 p l hne ih =>
    have hitem := item_seam p l q hw hne
    have hplace : (item p l).stop.advance ((item p l).rest ++ w) = p.advance (l ++ w) := by
      rw [Position.advance_append, Position.advance_append, advance_rest]
    rw [hplace] at ih
    rw [items_of_ne, hitem, List.map_cons, List.cons_append]
    · exact congrArg _ ih
    · rw [hitem]
      exact hne

/-- What there is to complain about in a text, in the order of the text. -/
def complaints (x : Lexer) : List Diagnostic := x.readAll.2.diagnostics.reverse

theorem diagnostics_readings {n : Nat} {x : Lexer} (h : x.rest.length < n) :
    (readings n x).2.diagnostics.reverse =
      x.diagnostics.reverse ++ (items x.place x.rest).flatMap Item.complaint := by
  induction n generalizing x with
  | zero => exact absurd h (Nat.not_lt_zero _)
  | succ n ih =>
    have hnew : x.next.2.diagnostics.reverse =
        x.diagnostics.reverse ++ (item x.place x.rest).complaint := by
      rw [diagnostics_next, List.reverse_append]
      unfold Item.complaint
      split <;> rfl
    simp only [readings]
    by_cases hlook : (item x.place x.rest).look = .endOfInput
    · have hend : x.next.1 = .endOfInput := by
        rw [next_eq]
        exact (token_eq_endOfInput_iff _).2 hlook
      have hnone : (item x.place x.rest).complaint = [] := by
        apply complaint_of_ne_invalid
        simp [hend]
      rw [if_pos hend, items_of_end hlook, hnew, hnone]
      rfl
    · have hne : x.next.1 ≠ .endOfInput := by
        rw [next_eq]
        exact fun h => hlook ((token_eq_endOfInput_iff _).1 h)
      have hlater := ih (Nat.lt_of_lt_of_le (length_rest_lt hne) (Nat.le_of_lt_succ h))
      rw [if_neg hne, items_of_ne hlook, List.flatMap_cons, ← List.append_assoc, ← hnew]
      refine hlater.trans ?_
      rw [next_eq]

theorem complaints_ofString (source : String) :
    (ofString source).complaints = (items {} source.toList).flatMap Item.complaint :=
  diagnostics_readings (Nat.lt_succ_self _)

theorem lexemes_ofString (source : String) :
    (ofString source).lexemes = (items {} source.toList).map Item.lexeme :=
  lexemes_eq_items _

/-- Reading goes text by text. Where two texts are separated by blanks with a line feed among them,
whatever the first one ends in and the second one begins with, the tokens of the whole are those of
the first text and then those of the second, with their terminals and values and with the complaints
about numbers that are too large. The second text is moved to where it begins. -/
theorem reading_composes {w : String} (hw : Break w.toList) (u v : String) :
    let o := Position.ofText (u ++ w).toList
    (ofString (u ++ w ++ v)).lexemes =
      (ofString u).lexemes ++ (ofString v).lexemes.map (·.movedBy o) ∧
    (ofString (u ++ w ++ v)).complaints =
      (ofString u).complaints ++ (ofString v).complaints.map (·.movedBy o) := by
  intro o
  have hsecond : items o v.toList = (items {} v.toList).map (·.movedBy o) := by
    rw [← items_movedBy, Position.zero_movedBy]
  have hplace : ({} : Position).advance (u.toList ++ w.toList) = o := by
    rw [← String.toList_append]
    exact Position.advance_ofText [] _
  have hitems : items {} (u ++ w ++ v).toList =
      (items {} u.toList).map (·.followedBy (w.toList ++ v.toList)) ++
        (items {} v.toList).map (·.movedBy o) := by
    rw [String.toList_append, String.toList_append, List.append_assoc, items_seam hw, hplace,
      hsecond]
  constructor
  · rw [lexemes_ofString, lexemes_ofString, lexemes_ofString, hitems, List.map_append,
      List.map_map, List.map_map, List.map_map]
    have hmoved : Item.lexeme ∘ (·.movedBy o) = (·.movedBy o) ∘ Item.lexeme := by
      funext i
      exact i.lexeme_movedBy o
    rw [hmoved]
    rfl
  · rw [complaints_ofString, complaints_ofString, complaints_ofString, hitems,
      List.flatMap_append, List.flatMap_map, List.flatMap_map, List.map_flatMap]
    simp only [Item.complaint_movedBy]
    rfl

/-- The first text ends in a comment, the second one begins in the middle of a line. -/
theorem reading_composes_comment :
    let u := "a = 1; # two"
    let w := " \r\n\n  "
    let v := "b\n99999999999999999999"
    Break w.toList ∧ Position.ofText (u ++ w).toList = ⟨2, 2⟩ ∧
      (ofString (u ++ w ++ v)).complaints =
        [⟨"invalid number 99999999999999999999: number too large to fit in target type",
          ⟨⟨3, 0⟩, ⟨3, 20⟩⟩⟩] ∧
      (ofString (u ++ w ++ v)).lexemes = (ofString u).lexemes ++
        [⟨Token.ident.terminal, .ident "b", ⟨⟨2, 2⟩, ⟨2, 3⟩⟩⟩,
          ⟨Token.invalid.terminal, .nothing, ⟨⟨3, 0⟩, ⟨3, 20⟩⟩⟩] := by
  have hblank : " \r\n\n  ".toList.all isBlank = true := rfl
  have hbreak : Break " \r\n\n  ".toList := ⟨List.all_eq_true.1 hblank, by simp⟩
  obtain ⟨hlexemes, hcomplaints⟩ :=
    reading_composes hbreak "a = 1; # two" "b\n99999999999999999999"
  refine ⟨hbreak, by decide +kernel, ?_, ?_⟩
  · exact hcomplaints.trans (by decide +kernel)
  · refine hlexemes.trans (congrArg _ ?_)
    rfl

end Calculator.Lexer

end ShiftReduce
