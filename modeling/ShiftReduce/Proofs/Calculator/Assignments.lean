import ShiftReduce.Proofs.Calculator.Tally

namespace ShiftReduce.Calculator

def assignments (parts : List Lexemes) (statements : List Statement) : List (String × Int64) :=
  (parts.zip statements).filterMap fun p => assignment? p.1 p.2

/-- The variables after the assignments of the statements that have been recorded for the first of
these segments, each of which has the location of its segment's end. The old names stay in their
places, the new ones come behind them in the order in which they are first assigned, and each has
the value that is assigned last. -/
structure Assigned (parts : List Lexemes) (statements : List Statement)
    (before after : Variables) : Prop where
  recorded : statements.length ≤ parts.length
  place : ∀ p ∈ parts.zip statements, ∃ l ∈ p.1.getLast?, p.2.span.stop = l.span.stop
  bindings : after = before.insertAll (assignments parts statements)
  distinct : after.keys.Nodup
  keys : after.keys = before.keys ++
    (((assignments parts statements).map Prod.fst).filter (· ∉ before.keys)).eraseDups
  values : ∀ name, after.get? name =
    ((assignments parts statements).reverse.lookup name).or (before.get? name)

section Entries

variable {entries : List Entry} (hentries : ∀ e ∈ entries, e.Sound) (rest : Lexemes)
include hentries

theorem segments_entries : segments (entries.flatMap Entry.tokens ++ rest) =
    entries.map Entry.tokens ++ segments rest := by
  induction entries with
  | nil => rfl
  | cons e entries ih =>
    have he := hentries e List.mem_cons_self
    rw [List.flatMap_cons, Entry.tokens, List.append_assoc, List.append_assoc,
      List.singleton_append, segments_cons _ he.plain he.closed,
      ih fun e' he' => hentries e' (List.mem_cons_of_mem e he'), List.map_cons, List.cons_append]
    rfl

end Entries

theorem zip_entries (entries : List Entry) (more : List Lexemes) :
    (entries.map Entry.tokens ++ more).zip (entries.map Entry.statement) =
      entries.map fun e => (e.tokens, e.statement) := by
  induction entries with
  | nil => simp
  | cons e entries ih => simp [ih]

variable (maxDepth : Nat) (source : String) (bindings : Variables)

/-- However an evaluation ends, its statements are those of the first segments of the source, and
the variables are the old ones after the assignments of these statements. -/
theorem exists_entries : ∃ (entries : List Entry) (rest : Lexemes), (∀ e ∈ entries, e.Sound) ∧
    (Lexer.ofString source).lexemes = entries.flatMap Entry.tokens ++ rest ∧
    (evaluate maxDepth source bindings).statements = entries.map Entry.statement ∧
    (evaluate maxDepth source bindings).bindings =
      bindings.insertAll (entries.filterMap fun e => assignment? e.tokens e.statement) := by
  by_cases hd : maxDepth = 0
  · subst hd
    exact ⟨[], (Lexer.ofString source).lexemes, by simp, rfl, rfl, rfl⟩
  obtain ⟨c, h, entries, cur, failure, -, -, heval, htally, hgoes⟩ :=
    evaluate_goes maxDepth source bindings (Nat.pos_of_ne_zero hd)
  have hkept : Kept c.actions h.config.actions := by
    cases hgoes with
    | accepted _ _ _ actions => exact actions ▸ ⟨rfl, rfl⟩
    | full _ _ kept => exact kept
    | divided _ _ _ kept => exact kept
    | unfinished _ _ _ _ kept => exact kept
  have hbooked := htally.booked
  refine ⟨entries, cur ++ (supply maxDepth).input c, hbooked.sound, htally.tokens.symm, ?_, ?_⟩
  · rw [heval, ← hbooked.statements, ← hkept.1]
    rfl
  · rw [heval, ← hbooked.bindings, ← hkept.2]
    rfl

/-- Assignments are all or nothing: however an evaluation ends, the variables are the old ones after
the assignments of the statements that are recorded with a value. -/
theorem bindings_of_statements : Assigned (segments (Lexer.ofString source).lexemes)
    (evaluate maxDepth source bindings).statements bindings
    (evaluate maxDepth source bindings).bindings := by
  obtain ⟨entries, rest, hsound, hw, hstatements, hbindings⟩ :=
    exists_entries maxDepth source bindings
  have hparts : segments (Lexer.ofString source).lexemes =
      entries.map Entry.tokens ++ segments rest := by rw [hw, segments_entries hsound]
  have hassigned : assignments (segments (Lexer.ofString source).lexemes)
      (evaluate maxDepth source bindings).statements =
        entries.filterMap fun e => assignment? e.tokens e.statement := by
    rw [assignments, hparts, hstatements, zip_entries, List.filterMap_map]
    rfl
  rw [← hassigned] at hbindings
  refine ⟨?_, ?_, hbindings, OrderedMap.nodup _, ?_, ?_⟩
  · rw [hparts, hstatements]
    simp
  · rw [hparts, hstatements, zip_entries]
    intro p hp
    obtain ⟨e, he, rfl⟩ := List.mem_map.1 hp
    exact ⟨e.semicolon, by simp [Entry.tokens], (hsound e he).stop⟩
  · rw [hbindings]
    exact bindings.keys_insertAll _
  · rw [hbindings]
    exact bindings.get?_insertAll _

end ShiftReduce.Calculator
