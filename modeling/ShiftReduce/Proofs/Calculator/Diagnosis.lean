import ShiftReduce.Proofs.Calculator.Annotations
import ShiftReduce.Proofs.Calculator.Balance
import ShiftReduce.Proofs.Calculator.Budget
import ShiftReduce.Proofs.Machine.Diagnostics

namespace ShiftReduce.Calculator

section Annotated

variable {source : List Char} {parts : List Part} {held : Option Terminal} {k : Nat}
  {notes : List (Nat × String)} {x : Lexer}

namespace Annotated

theorem sorted (h : Annotated source parts held k notes x) (hcut : Cut [] source parts) :
    x.diagnostics.Pairwise fun d e => e.span.start.Precedes d.span.start := by
  rw [h.diagnostics]
  refine List.pairwise_map.2 (h.ordered.imp_of_mem fun {a b} ha _ hlt => ?_)
  exact spot_precedes hcut hlt (Nat.le_of_lt_succ (Nat.lt_of_lt_of_le (h.read a ha) h.bound))

end Annotated

end Annotated

section Marked

variable {source : List Char} {parts : List Part} {past : List (Event Value Span)}
  {a b : Account Lexer Value Span} {e : Event Value Span} {notes : List (Nat × String)}
  {t : Terminal}

def words (parts : List Part) : List (Option Terminal) :=
  (parts.filter Part.isToken).map (fun i => i.token.map Token.terminal) ++
    [some Token.endOfInput.terminal]

theorem Annotated.words_getElem? {k : Nat} {x : Lexer}
    (h : Annotated source parts none k notes x) :
    (words parts)[k]? = some (some x.next.1.terminal) := by
  have hreads := h.stands.reads
  cases htoken : (parts.filter Part.isToken)[k]? with
  | some i =>
    rw [htoken] at hreads
    have hlt := (List.getElem?_eq_some_iff.1 htoken).1
    rw [words, List.getElem?_append_left (by simpa using hlt), List.getElem?_map, htoken,
      Option.map_some, hreads.terminal]
    rfl
  | none =>
    rw [htoken] at hreads
    have hend : x.next.1.terminal = Token.endOfInput.terminal := hreads.terminal
    have hle := List.getElem?_eq_none_iff.1 htoken
    obtain rfl := Nat.le_antisymm (h.more (by simp)) hle
    rw [words, List.getElem?_append_right (by simp), List.length_map, Nat.sub_self, hend]
    rfl

/-- The notes of a lexer at the end of a history. A note on the token that is held back is the
lexer's own or was made with the last error, after which nothing was shifted. -/
structure Marked (source : List Char) (parts : List Part) (a : Account Lexer Value Span)
    (trace : List (Event Value Span)) (notes : List (Nat × String)) : Prop where
  annotated : Annotated source parts a.lookahead (ShiftReduce.told Event.read? trace).length notes
    a.scanner
  read : (ShiftReduce.told Event.read? trace).map some =
    (words parts).take (ShiftReduce.told Event.read? trace).length
  latest : a.lookahead ≠ none → ∀ n ∈ notes,
    n.1 + 1 = (ShiftReduce.told Event.read? trace).length →
      n ∈ remarks parts n.1 ∨ shiftsSinceError trace = some 0
  reported : reportsIn trace ≠ [] → notes ≠ []

namespace Marked

/-- Notes stay as they are where the lexer keeps them and nothing is read, shifted or reported. -/
theorem keep (h : Marked source parts a past notes)
    (hscanner : b.scanner = a.scanner ∨ b.scanner = a.scanner.take.2)
    (hlookahead : b.lookahead = a.lookahead) (hread : e.read? = none) (hreport : e.report? = none)
    (hsince : shiftsSinceError (e :: past) = shiftsSinceError past ∨
      shiftsSinceError (e :: past) = some 0) : Marked source parts b (e :: past) notes where
  annotated := by
    have hannotated : Annotated source parts a.lookahead
        (ShiftReduce.told Event.read? past).length notes b.scanner := by
      rcases hscanner with hscanner | hscanner
      · rw [hscanner]
        exact h.annotated
      · rw [hscanner]
        exact h.annotated.take
    simpa [hlookahead, hread] using hannotated
  read := by simpa [hread] using h.read
  latest := by
    rw [hlookahead]
    intro hn n hmem hlast
    rcases hsince with hsince | hsince
    · rw [hsince]
      exact h.latest hn n hmem (by simpa [hread] using hlast)
    · exact Or.inr hsince
  reported := by simpa [hreport] using h.reported

/-- When a token is used up nothing is held back. -/
theorem drop (h : Marked source parts a past notes) (hready : a.lookahead = some t)
    (ht : t ≠ Token.endOfInput.terminal) (hscanner : b.scanner = a.scanner)
    (hlookahead : b.lookahead = none) (hread : e.read? = none) (hreport : e.report? = none) :
    Marked source parts b (e :: past) notes where
  annotated := by
    have hannotated := h.annotated
    rw [hready] at hannotated
    simpa [hscanner, hlookahead, hread] using hannotated.drop ht
  read := by simpa [hread] using h.read
  latest hn := absurd hlookahead hn
  reported := by simpa [hreport] using h.reported

theorem fetch (h : Marked source parts a past notes) (hfree : a.lookahead = none)
    (hscanner : b.scanner = a.scanner.next.2)
    (hlookahead : b.lookahead = some a.scanner.next.1.terminal) :
    Marked source parts b (.fetched a.scanner.next.1.terminal :: past)
      (remarks parts (ShiftReduce.told Event.read? past).length ++ notes) where
  annotated := by
    have hannotated := h.annotated
    rw [hfree] at hannotated
    simpa [hscanner, hlookahead, Event.read?] using hannotated.next
  read := by
    have hannotated := h.annotated
    rw [hfree] at hannotated
    simp [Event.read?, List.take_add_one, hannotated.words_getElem?, h.read]
  latest := by
    intro _ n hn hlast
    rcases List.mem_append.1 hn with hn | hn
    · obtain ⟨i, -, -, hindex⟩ := mem_remarks.1 hn
      exact Or.inl (by rwa [hindex] at hn ⊢)
    · have hlt := h.annotated.read n hn
      simp [Event.read?] at hlast
      omega
  reported hne := by
    have hnotes := h.reported (by simpa [Event.report?] using hne)
    exact fun hnil => hnotes (List.append_eq_nil_iff.1 hnil).2

theorem report (h : Marked source parts a past notes) (hcut : Cut [] source parts)
    (hready : a.lookahead = some t) (hsince : shiftsSinceError past = some 0) {message : String}
    (hscanner : b.scanner = a.scanner.report message a.scanner.span)
    (hlookahead : b.lookahead = a.lookahead) : ∃ notes',
      Marked source parts b (.reported message a.scanner.span :: past) notes' := by
  have hannotated := h.annotated
  rw [hready] at hannotated
  obtain ⟨notes', hreport, hne⟩ : ∃ notes', Annotated source parts (some t)
      (ShiftReduce.told Event.read? past).length notes'
      (a.scanner.report message a.scanner.span) ∧ notes' ≠ [] := by
    refine ⟨_, hannotated.report hcut message, ?_⟩
    split
    · rename_i hnoted
      rintro rfl
      cases hnoted
    · exact List.cons_ne_nil _ _
  refine ⟨notes', ?_, ?_, fun _ _ _ _ => Or.inr hsince, fun _ => hne⟩
  · simpa [hscanner, hlookahead, hready, Event.read?] using hreport
  · simpa [Event.read?] using h.read

end Marked

variable {maxDepth : Nat} {c : Config Lexer Ledger Value Span} {trace : List (Event Value Span)}
  {text : String}

end Marked

section Diagnosed

variable (maxDepth : Nat) (source : String) (bindings : Variables) (parts : List Part)

/-- The recovery from the first error comes upon a number that is too large. -/
example : (evaluate 10 "1 2 99999999999999999999;" .empty).diagnostics.map Diagnostic.span =
    [⟨⟨0, 2⟩, ⟨0, 3⟩⟩, ⟨⟨0, 4⟩, ⟨0, 24⟩⟩] := by decide +kernel

end Diagnosed

end ShiftReduce.Calculator
