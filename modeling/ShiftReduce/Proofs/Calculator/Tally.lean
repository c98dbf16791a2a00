import ShiftReduce.Proofs.Calculator.Stages
import ShiftReduce.Proofs.OrderedMap

namespace ShiftReduce.Calculator

/-- A statement that has been recorded, with its tokens up to the semicolon, the semicolon and the
semantic error that it was skipped for, if it was skipped for one. -/
structure Entry where
  words : Lexemes
  semicolon : Lexeme Value Span
  statement : Statement
  error : Option Error

def assignment? (tokens : Lexemes) (s : Statement) : Option (String × Int64) :=
  match target? tokens, s.value with
  | some name, some n => some (name, n)
  | _, _ => none

theorem assignment?_of_plain {tokens : Lexemes}
    (h : ∀ l ∈ tokens, l.terminal ≠ Token.equals.terminal) (s : Statement) :
    assignment? tokens s = none := by
  rw [assignment?, target?_eq_none h]

theorem assignment?_of_skipped (tokens : Lexemes) (span : Span) :
    assignment? tokens ⟨span, none⟩ = none := by
  unfold assignment?
  split <;> simp_all

namespace Entry

def tokens (e : Entry) : Lexemes := e.words ++ [e.semicolon]

structure Sound (e : Entry) : Prop where
  plain : ∀ l ∈ e.words, isSemicolon l = false
  closed : isSemicolon e.semicolon = true
  start : ∃ l ∈ e.tokens, e.statement.span.start = l.span.start
  stop : e.statement.span.stop = e.semicolon.span.stop
  located : ∀ err ∈ e.error, e.statement.value = none ∧ Located e.words err

/-- The parts of a statement, the last of which is its semicolon, make up an entry. -/
theorem exists_sound {init : List Piece} {q : Piece} (hinit : ∀ q ∈ init, q.Sound) (hq : q.Sound)
    (hlast : entered q.frame.state = some (.terminal Token.semicolon.terminal))
    {symbols : List Symbol}
    (hentered : init.map (fun q => entered q.frame.state) = symbols.map some)
    (hplain : .terminal Token.semicolon.terminal ∉ symbols) (gap : Span) (value : Option Int64) :
    ∃ l : Lexeme Value Span,
      (init ++ [q]).flatMap Piece.tokens = init.flatMap Piece.tokens ++ [l] ∧
        l.terminal = Token.semicolon.terminal ∧ Entry.Sound ⟨init.flatMap Piece.tokens, l,
          ⟨Machine.spread gap ((init ++ [q]).map Piece.frame), value⟩, none⟩ := by
  obtain ⟨l, hl, hterminal, -⟩ := (hq.reads_of hlast).of_terminal
  have hparts : ∀ q' ∈ init ++ [q], q'.Sound := by
    intro q' hq'
    rcases List.mem_append.1 hq' with hq' | hq'
    · exact hinit q' hq'
    · rwa [List.mem_singleton.1 hq']
  have hcovers := Covers.spread (by simp) hparts gap
  have htokens : (init ++ [q]).flatMap Piece.tokens = init.flatMap Piece.tokens ++ [l] := by
    rw [List.flatMap_append, List.flatMap_singleton, hl]
  rw [htokens] at hcovers
  refine ⟨l, htokens, hterminal, ?_, by simpa [isSemicolon] using hterminal, ?_, ?_, by simp⟩
  · intro l' hl'
    obtain ⟨q', hq', hmem⟩ := List.mem_flatMap.1 hl'
    have hsymbol := List.mem_map_of_mem (f := fun q : Piece => entered q.frame.state) hq'
    rw [hentered] at hsymbol
    obtain ⟨X, hX, hsome⟩ := List.mem_map.1 hsymbol
    exact ((hinit q' hq').reads_of hsome.symm).plain (fun h => hplain (h ▸ hX)) l' hmem
  · obtain ⟨l', hl', hstart⟩ := hcovers.start
    exact ⟨l', List.mem_of_head? hl', hstart⟩
  · obtain ⟨l', hl', hstop⟩ := hcovers.stop
    obtain rfl : l = l' := by simpa using hl'
    exact hstop

end Entry

section Closing

variable {input cur : Lexemes} {items below frames : List (Frame Value Span)}
  {failure : Option (Option Error)} {e g : Frame Value Span}

/-- What a statement comes to at its end: the tokens read of it make up the entry, and only one
that has not failed has a value. -/
structure Closes (cur : Lexemes) (failure : Option (Option Error)) (s : Statement)
    (assigned : Option (String × Int64)) (e : Entry) : Prop where
  sound : e.Sound
  tokens : cur = e.tokens
  statement : e.statement = s
  error : e.error = failure.join
  value : s.value = none ↔ failure.isSome
  assigned : assignment? e.tokens s = assigned

theorem Stage.closes_expression (h : Stage input items cur failure)
    (hitems : items = frames.reverse ++ g :: below)
    (hentered : frames.map (fun e => entered e.state) = Production.exprStmt.rule.rhs.map some)
    (hg : g.state = afterStmts) (gap : Span) (n : Int64) : (∃ g₀, below = [g₀]) ∧
      ∃ e, Closes cur failure ⟨Machine.spread gap frames, some n⟩ none e := by
  obtain ⟨rfl, parts, g₀, rfl, hr, rfl⟩ := h.of_closing (Or.inl rfl) hitems hentered hg
  rw [List.map_map] at hentered
  obtain ⟨q, rest, rfl, hq, hrest⟩ := List.map_eq_cons_iff.1 hentered
  obtain ⟨q', rest, rfl, hq', hrest⟩ := List.map_eq_cons_iff.1 hrest
  obtain rfl := List.map_eq_nil_iff.1 hrest
  have hexpr : q.Sound := hr.sound q (by simp)
  have hsymbols : [q].map (fun q => entered q.frame.state) =
      Production.exprStmt.rule.rhs.dropLast.map some := congrArg List.dropLast hentered
  obtain ⟨l, htokens, hl, hsound⟩ := Entry.exists_sound (by simpa using hexpr)
    (hr.sound q' (by simp)) hq' hsymbols (by decide) gap (some n)
  have hcur : cur = q.tokens ++ [l] := by
    rw [hr.tokens, ← List.singleton_append, htokens, List.flatMap_singleton]
  refine ⟨⟨g₀, rfl⟩, _, hsound, ?_, rfl, rfl, by simp, assignment?_of_plain ?_ _⟩
  · rw [hcur, Entry.tokens, List.flatMap_singleton]
  · intro l' hl'
    rw [Entry.tokens, List.flatMap_singleton] at hl'
    rcases List.mem_append.1 hl' with hl' | hl'
    · exact ((hexpr.reads_of hq).inner (by decide) l' hl').2
    · rw [List.mem_singleton.1 hl', hl]
      decide

theorem Stage.closes_assignment (h : Stage input items cur failure)
    (hitems : items = frames.reverse ++ g :: below)
    (hentered : frames.map (fun e => entered e.state) = Production.assignment.rule.rhs.map some)
    (hg : g.state = afterStmts) {name : String}
    (hname : (frames.map Frame.value)[0]? = some (.ident name)) (gap : Span) (n : Int64) :
    (∃ g₀, below = [g₀]) ∧
      ∃ e, Closes cur failure ⟨Machine.spread gap frames, some n⟩ (some (name, n)) e := by
  obtain ⟨rfl, parts, g₀, rfl, hr, rfl⟩ := h.of_closing (Or.inr rfl) hitems hentered hg
  rw [List.map_map] at hentered
  obtain ⟨q, rest, rfl, hq, hrest⟩ := List.map_eq_cons_iff.1 hentered
  obtain ⟨q₁, rest, rfl, hq₁, hrest⟩ := List.map_eq_cons_iff.1 hrest
  obtain ⟨q₂, rest, rfl, hq₂, hrest⟩ := List.map_eq_cons_iff.1 hrest
  obtain ⟨q₃, rest, rfl, hq₃, hrest⟩ := List.map_eq_cons_iff.1 hrest
  obtain rfl := List.map_eq_nil_iff.1 hrest
  have hsymbols : [q, q₁, q₂].map (fun q => entered q.frame.state) =
      Production.assignment.rule.rhs.dropLast.map some := congrArg List.dropLast hentered
  obtain ⟨l, htokens, -, hsound⟩ := Entry.exists_sound
    (fun x hx => hr.sound x (List.mem_append_left [q₃] hx)) (hr.sound q₃ (by simp)) hq₃ hsymbols
    (by decide) gap (some n)
  obtain ⟨l₀, hl₀, hident, hvalue⟩ := ((hr.sound q (by simp)).reads_of hq).of_terminal
  obtain ⟨l₁, hl₁, hequals, -⟩ := ((hr.sound q₁ (by simp)).reads_of hq₁).of_terminal
  have hfirst : l₀.value = .ident name := by
    rw [hvalue]
    simpa using hname
  refine ⟨⟨g₀, rfl⟩, _, hsound, hr.tokens.trans htokens, rfl, rfl, by simp, ?_⟩
  have htarget := target?_cons hident hfirst hequals (q₂.tokens ++ [l])
  simp only [assignment?, Entry.tokens, List.flatMap_cons, List.flatMap_nil, hl₀, hl₁,
    List.append_nil, List.cons_append, List.nil_append, htarget]

/-- A statement that has failed has the location of the tokens from the error to the semicolon. -/
theorem Stage.closes_skipped (h : Stage input items cur failure)
    (hitems : items = frames.reverse ++ g :: below)
    (hentered : frames.map (fun e => entered e.state) = Production.errorStmt.rule.rhs.map some)
    (gap : Span) : (g.state = afterStmts ∧ ∃ g₀, below = [g₀]) ∧
      ∃ e, Closes cur failure ⟨Machine.spread gap frames, none⟩ none e := by
  obtain ⟨e, rest, rfl, he, hrest⟩ := List.map_eq_cons_iff.1 hentered
  obtain ⟨s, rest, rfl, hs, hrest⟩ := List.map_eq_cons_iff.1 hrest
  obtain rfl := List.map_eq_nil_iff.1 hrest
  rw [hitems] at h
  obtain ⟨error, words, l, g₀, rfl, rfl, rfl, spoiled, hl, hspan, l', hl', hspan'⟩ :=
    h.of_skip he hs
  refine ⟨⟨spoiled.stmts, g₀, rfl⟩, ⟨words, l, _, error⟩, ⟨spoiled.plain, hl, ?_, ?_, ?_⟩, rfl, rfl,
    rfl, by simp, assignment?_of_skipped _ _⟩
  · have hstart : e.span.start = l'.span.start := congrArg Span.start hspan'
    exact ⟨l', hl', hstart⟩
  · have hstop : s.span.stop = l.span.stop := congrArg Span.stop hspan
    exact hstop
  · exact fun err herr => ⟨rfl, spoiled.located err herr⟩

end Closing

structure Booked (b₀ : Variables) (entries : List Entry) (failure : Option (Option Error))
    (l : Ledger) (errors : Nat) : Prop where
  sound : ∀ e ∈ entries, e.Sound
  statements : l.statements.reverse = entries.map Entry.statement
  errors_eq : l.errors.reverse = entries.filterMap Entry.error ++ failure.join.toList
  bindings : l.bindings =
    b₀.insertAll (entries.filterMap fun e => assignment? e.tokens e.statement)
  count : errors = (entries.filter (·.statement.value = none)).length + failure.toList.length

namespace Booked

variable {b₀ : Variables} {entries : List Entry} {failure : Option (Option Error)} {l : Ledger}
  {errors : Nat} {e : Entry}

/-- At its end a statement is recorded, and if it has a value it is assigned. -/
theorem close (h : Booked b₀ entries failure l errors) (he : e.Sound)
    (herror : e.error = failure.join) (hvalue : e.statement.value = none ↔ failure.isSome)
    {b : Variables} (hb : b = l.bindings.insertAll (assignment? e.tokens e.statement).toList) :
    Booked b₀ (entries ++ [e]) none
      { l with bindings := b, statements := e.statement :: l.statements } errors := by
  refine ⟨?_, ?_, ?_, ?_, ?_⟩
  · intro e' he'
    rcases List.mem_append.1 he' with he' | he'
    · exact h.sound e' he'
    · rwa [List.mem_singleton.1 he']
  · simp [h.statements]
  · rw [h.errors_eq, List.filterMap_append, ← herror]
    cases herr : e.error <;> simp [herr]
  · rw [hb, h.bindings, List.filterMap_append, OrderedMap.insertAll_append]
    cases ha : assignment? e.tokens e.statement <;> simp [ha]
  · rw [h.count, List.filter_append, List.length_append]
    cases failure <;> simp_all

theorem fail (h : Booked b₀ entries none l errors) :
    Booked b₀ entries (some none) l (errors + 1) :=
  ⟨h.sound, h.statements, by simpa using h.errors_eq, h.bindings, by simp [h.count]⟩

theorem raise (h : Booked b₀ entries none l errors) (err : Error) :
    Booked b₀ entries (some (some err)) { l with errors := err :: l.errors } (errors + 1) :=
  ⟨h.sound, h.statements, by simp [h.errors_eq], h.bindings, by simp [h.count]⟩

end Booked

variable {maxDepth : Nat} {stop : Position} {c c' d : Config Lexer Ledger Value Span}
  {w cur : Lexemes} {b₀ : Variables} {entries : List Entry} {failure : Option (Option Error)}

/-- How the tokens `w` of a source are accounted for: by the statements that have ended, by what
has been read of the present one and by the input that is left. -/
structure Tally (maxDepth : Nat) (w : Lexemes) (b₀ : Variables)
    (c : Config Lexer Ledger Value Span) (entries : List Entry) (cur : Lexemes)
    (failure : Option (Option Error)) : Prop where
  tokens : entries.flatMap Entry.tokens ++ (cur ++ (supply maxDepth).input c) = w
  stage : Stage ((supply maxDepth).input c) c.stack.items cur failure
  booked : Booked b₀ entries failure c.actions c.stats.errors
  careful : c.phase ≠ .skipping true

namespace Tally

/-- Nothing but the buffering of a token has changed. -/
theorem of_eq (h : Tally maxDepth w b₀ c entries cur failure)
    (hinput : (supply maxDepth).input d = (supply maxDepth).input c) (hstack : d.stack = c.stack)
    (hactions : d.actions = c.actions) (herrors : d.stats.errors = c.stats.errors)
    (hphase : d.phase ≠ .skipping true) : Tally maxDepth w b₀ d entries cur failure :=
  ⟨by rw [hinput]; exact h.tokens, by rw [hinput, hstack]; exact h.stage,
    by rw [hactions, herrors]; exact h.booked, hphase⟩

theorem shifted {f : Frame Value Span} {s : State} {target : StateId}
    (h : Tally maxDepth w b₀ c entries cur failure) (ho : Orderly (supply maxDepth) c)
    (decides : (machine maxDepth).Decides c f s (.shift target))
    (result : (machine maxDepth).Shifted c target c') :
    ∃ cur', Tally maxDepth w b₀ c' entries cur' failure := by
  obtain ⟨l, rest, hinput, hedge⟩ := Decides.takes (supply maxDepth) rfl ho.linked decides
  obtain ⟨hitems, hrest⟩ := (supply maxDepth).shifted_cons result hinput
  have hstage := h.stage
  rw [hinput] at hstage
  refine ⟨cur ++ [l], ?_, ?_, ?_, ?_⟩
  · rw [← h.tokens, hinput, hrest]
    simp
  · rw [hitems, hrest]
    exact hstage.shift ho.linked decides.top hedge (ho.tokens l (by simp [hinput]))
  · rw [result.actions, result.stats]
    simpa using h.booked
  · rw [result.phase, decides.phase]
    simp

section Reduce

variable {f g g₀ : Frame Value Span} {p : Production} {target : StateId}
  {reply : Reply Ledger Value} {frames below : List (Frame Value Span)}

/-- A reduction accounts for the same tokens, and what becomes of the ledger tells how. -/
theorem folded {entries' : List Entry} {cur' : Lexemes} {failure' : Option (Option Error)}
    (h : Tally maxDepth w b₀ c entries cur failure)
    (hc : Folded (machine maxDepth) c f p target frames below g reply c')
    (htokens : entries'.flatMap Entry.tokens ++ cur' = entries.flatMap Entry.tokens ++ cur)
    (hstage : Stage ((supply maxDepth).input c) c'.stack.items cur' failure')
    (hbooked : Booked b₀ entries' failure' reply.state c.stats.errors) :
    Tally maxDepth w b₀ c' entries' cur' failure' := by
  have hinput : (supply maxDepth).input c' = (supply maxDepth).input c := hc.input
  refine ⟨?_, hinput ▸ hstage, ?_, by simp [hc.phase]⟩
  · rw [hinput, ← List.append_assoc, htokens, List.append_assoc]
    exact h.tokens
  · rw [hc.actions, hc.errors]
    exact hbooked

/-- The end of a statement. -/
theorem closed {e : Entry} {value : Option Int64} {assigned : Option (String × Int64)}
    {b : Variables} (h : Tally maxDepth w b₀ c entries cur failure)
    (hc : Folded (machine maxDepth) c f p afterStmt frames [g₀] g reply c')
    (hg : g.state = afterStmts)
    (he : Closes cur failure ⟨Machine.spread ((machine maxDepth).gap c) frames, value⟩ assigned e)
    (hb : b = c.actions.bindings.insertAll assigned.toList)
    (hreply : reply.state = { c.actions with
      bindings := b
      statements := ⟨Machine.spread ((machine maxDepth).gap c) frames, value⟩ ::
        c.actions.statements }) :
    Tally maxDepth w b₀ c' (entries ++ [e]) [] none := by
  refine h.folded hc ?_ ?_ ?_
  · simp [he.tokens]
  · rw [hc.items]
    exact .closed rfl hg
  · rw [hreply, ← he.statement]
    refine h.booked.close he.sound he.error ?_ ?_
    · rw [he.statement]
      exact he.value
    · rw [hb, he.statement, he.assigned]

theorem reduced (h : Tally maxDepth w b₀ c entries cur failure) (hl : Linked c.stack.items)
    (hc : Folded (machine maxDepth) c f p target frames below g reply c') :
    ∃ entries' cur' failure', Tally maxDepth w b₀ c' entries' cur' failure' := by
  have begun (hstmt : p.rule.lhs = Phrase.stmt.nonterminal) :
      g.state = afterStmts ∧ target = afterStmt := by
    have htarget := hstmt ▸ hc.goto
    have hg := stmt_begun _ hc.linked.mem_stateIds (by simp [htarget])
    rw [hg, stmt_goto] at htarget
    exact ⟨hg, (Option.some.inj htarget).symm⟩
  have heffect : Ledger.Effect c.actions ((machine maxDepth).reduction c p.ruleId p.rule frames)
      ((machine maxDepth).given frames) p reply := Ledger.reduce_effect rfl hc.reduces.reply
  have hproceeds := hc.proceeds
  cases heffect with
  | passed v inner =>
    obtain ⟨rfl, hstage⟩ :=
      h.stage.fold hl hc.toFolds hc.reduces.items inner v ((machine maxDepth).gap c)
    refine ⟨entries, cur, none, h.folded hc rfl ?_ h.booked⟩
    rw [hc.items]
    exact hstage
  | @recorded n value =>
    obtain ⟨hg, rfl⟩ := begun rfl
    obtain ⟨⟨g₀, rfl⟩, e, he⟩ :=
      h.stage.closes_expression hc.reduces.items hc.spelled hg ((machine maxDepth).gap c) n
    exact ⟨_, _, _, h.closed hc hg he rfl rfl⟩
  | @assigned name n name_eq value =>
    obtain ⟨hg, rfl⟩ := begun rfl
    obtain ⟨⟨g₀, rfl⟩, e, he⟩ :=
      h.stage.closes_assignment hc.reduces.items hc.spelled hg name_eq ((machine maxDepth).gap c) n
    exact ⟨_, _, _, h.closed hc hg he rfl rfl⟩
  | skipped =>
    obtain ⟨hg, rfl⟩ := begun rfl
    obtain ⟨⟨-, g₀, rfl⟩, e, he⟩ :=
      h.stage.closes_skipped hc.reduces.items hc.spelled ((machine maxDepth).gap c)
    exact ⟨_, _, _, h.closed hc hg he rfl rfl⟩
  | raised => simp at hproceeds
  | aborted => simp at hproceeds

end Reduce

/-- The present statement has failed. -/
theorem caught {f g : Frame Value Span} {expected : List Terminal} {error : Option Error}
    (h : Tally maxDepth w b₀ c entries cur none)
    (result : (machine maxDepth).Recovered d expected [f, g] afterError c')
    (hf : f.state = afterStmts) (hplain : ∀ l ∈ cur, isSemicolon l = false)
    (hlocated : ∀ err ∈ error, Located cur err)
    (hne : (supply maxDepth).input c = [] → cur ≠ [])
    (hinput : (supply maxDepth).input d = (supply maxDepth).input c)
    (hscanner : ((machine maxDepth).fetched d).scanner = ((machine maxDepth).fetched c).scanner)
    (hmode : d.mode ≠ .recovering 0)
    (hbooked : Booked b₀ entries (some error) d.actions (d.stats.errors + 1)) :
    Tally maxDepth w b₀ c' entries cur (some error) := by
  have hinput' : (supply maxDepth).input c' = (supply maxDepth).input c :=
    (Supply.recovered _ result).trans hinput
  refine ⟨by rw [hinput']; exact h.tokens, ?_, ?_, ?_⟩
  · rw [hinput', result.items]
    refine .caught ⟨rfl, hf, hplain, hlocated⟩ ?_
    cases hi : (supply maxDepth).input c with
    | nil => exact Or.inl ⟨rfl, hne hi⟩
    | cons l rest =>
      obtain ⟨-, -, -, hspan, -⟩ := (supply maxDepth).ahead_of_cons hi
      exact Or.inr ⟨l, by simp, by rw [hscanner]; exact hspan⟩
  · rw [result.actions, result.stats]
    exact hbooked
  · rw [result.phase]
    simpa using hmode

/-- What is read of the present statement is a part of the source. -/
theorem length_le (h : Tally maxDepth w b₀ c entries cur failure) :
    cur.length + ((supply maxDepth).input c).length ≤ w.length := by
  have hlength := congrArg List.length h.tokens
  simp only [List.length_append] at hlength
  omega

end Tally

def DividesByZero (maxDepth : Nat) (c : Config Lexer Ledger Value Span) : Prop :=
  ∃ f s frames below answer,
    (machine maxDepth).Decides c f s (.reduce Production.quotient.ruleId) ∧
      (machine maxDepth).Reduces c Production.quotient.ruleId Production.quotient.rule frames below
        answer ∧ (frames.map Frame.value)[2]? = some (.number 0)

def Kept (l l' : Ledger) : Prop := l'.statements = l.statements ∧ l'.bindings = l.bindings

/-- How the evaluation of a source goes on and how it ends. -/
inductive Goes (maxDepth : Nat) (w : Lexemes) (b₀ : Variables)
    (c : Config Lexer Ledger Value Span) (cur : Lexemes) (failure : Option (Option Error)) :
    Except (Halt Lexer Ledger Value Span ActionFault) (Config Lexer Ledger Value Span) → Prop
  | on {c' : Config Lexer Ledger Value Span} {entries' : List Entry} {cur' : Lexemes}
      {failure' : Option (Option Error)}
      (tally : Tally maxDepth w b₀ c' entries' cur' failure') :
      Goes maxDepth w b₀ c cur failure (.ok c')
  | accepted {v : Value} {d : Config Lexer Ledger Value Span} (read : cur = [])
      (rest : (supply maxDepth).input c = []) (whole : failure = none)
      (actions : d.actions = c.actions) : Goes maxDepth w b₀ c cur failure (.error ⟨.accepted v, d⟩)
  | full {h : Halt Lexer Ledger Value Span ActionFault} (short : maxDepth < w.length + 3)
      (verdict : h.verdict = .failed (.stackOverflow maxDepth))
      (kept : Kept c.actions h.config.actions) : Goes maxDepth w b₀ c cur failure (.error h)
  | divided {h : Halt Lexer Ledger Value Span ActionFault} {span : Span}
      (divides : DividesByZero maxDepth c) (verdict : h.verdict = .failed .aborted)
      (cause : h.config.actions.fatal = some (.divisionByZero span))
      (kept : Kept c.actions h.config.actions) : Goes maxDepth w b₀ c cur failure (.error h)
  | unfinished {h : Halt Lexer Ledger Value Span ActionFault} (read : cur ≠ [])
      (plain : ∀ l ∈ cur, isSemicolon l = false) (rest : (supply maxDepth).input c = [])
      (verdict : h.verdict = .failed .unexpectedEnd) (kept : Kept c.actions h.config.actions) :
      Goes maxDepth w b₀ c cur failure (.error h)

namespace Tally

/-- A token is left out of the present statement. -/
theorem discarded {f : Frame Value Span} (h : Tally maxDepth w b₀ c entries cur failure)
    (htop : c.stack.items.head? = some f) (hcaught : f.state = afterError)
    (more : (machine maxDepth).ahead c ≠ Token.endOfInput.terminal)
    (hne : (machine maxDepth).ahead c ≠ Token.semicolon.terminal)
    (hscanner : d.scanner = ((machine maxDepth).fetched c).scanner) (hlook : d.lookahead = none)
    (hstack : d.stack = c.stack) (hactions : d.actions = c.actions)
    (herrors : d.stats.errors = c.stats.errors) (hphase : d.phase = .skipping false) :
    Goes maxDepth w b₀ c cur failure (.ok d) := by
  obtain ⟨l, hinput⟩ := (supply maxDepth).discarded more hscanner hlook
  have hplain : isSemicolon l = false := by
    have hahead := ((supply maxDepth).ahead_of_cons hinput).1
    simpa [isSemicolon, hahead] using hne
  have hstage := h.stage
  rw [hinput] at hstage
  have hnext : Tally maxDepth w b₀ d entries (cur ++ [l]) failure := by
    refine ⟨?_, hstack ▸ hstage.discard htop hcaught hplain, ?_, by simp [hphase]⟩
    · rw [← h.tokens, hinput]
      simp
    · rw [hactions, herrors]
      exact h.booked
  exact .on hnext

section Errors

variable {f : Frame Value Span} {s : State} {r : RuleId} {rule : Rule}
  {frames below : List (Frame Value Span)} {reply : Reply Ledger Value} {expected : List Terminal}
  {x : Except (Halt Lexer Ledger Value Span ActionFault) (Config Lexer Ledger Value Span)}
  (h : Tally maxDepth w b₀ c entries cur failure) (hu : Underway maxDepth stop c)
include h hu

theorem failed (decides : (machine maxDepth).Decides c f s .error)
    (recovers : (machine maxDepth).Recovers c expected x) :
    Goes maxDepth w b₀ c cur failure x := by
  have hl := hu.orderly.linked
  obtain ⟨hmem, rfl⟩ := Decides.row rfl hl decides
  have hne := hu.orderly.ne_afterError rfl decides (by simp)
  obtain ⟨rfl, hplain, hend, parts, f₀, g₀, hreading⟩ :=
    h.stage.of_stuck hl decides.top hne decides.action
  rcases hreading.recovers hl recovers with ⟨c', rfl, result⟩ | ⟨e, rfl, hfull, hverdict, hactions⟩
  · refine .on (h.caught result hreading.stmts hplain (by simp) ?_ rfl rfl ?_ h.booked.fail)
    · exact fun hnil => hend ((supply maxDepth).ahead_of_nil hnil)
    · exact fun hmode => hne (hu.steady.stalled hmode f decides.top)
  · refine .full ?_ hverdict (by rw [hactions]; exact ⟨rfl, rfl⟩)
    have hdeep := hreading.length_le
    have hlength := h.length_le
    omega

theorem raised (decides : (machine maxDepth).Decides c f s (.reduce r))
    (reduces : (machine maxDepth).Reduces c r rule frames below (.ok reply))
    (acted : (machine maxDepth).Acted c s r frames reply d) (raises : reply.control = .raise)
    (recovers : (machine maxDepth).Recovers d expected x) :
    Goes maxDepth w b₀ c cur failure x := by
  have hl := hu.orderly.linked
  have hne := hu.orderly.ne_afterError rfl decides (by simp)
  obtain ⟨p, g, below, rfl, -, rfl, rfl, hentered, -, -⟩ := Reduces.pops rfl hl decides reduces
  have heffect : Ledger.Effect c.actions ((machine maxDepth).reduction c p.ruleId p.rule frames)
      ((machine maxDepth).given frames) p reply := Ledger.reduce_effect rfl reduces.reply
  cases heffect with
  | @raised _ e v inner place =>
    obtain ⟨rfl, qs, rs, f₀, g₀, hphrase⟩ := h.stage.exists_phrasing hl inner reduces.items hentered
    have hreading : Reading d.stack.items cur (qs ++ rs) f₀ g₀ := acted.stack ▸ hphrase.reading
    rcases hreading.recovers (acted.stack ▸ hl) recovers with
      ⟨c', rfl, result⟩ | ⟨e, rfl, hfull, hverdict, hactions⟩
    · have hbooked : Booked b₀ entries (some (some e)) d.actions (d.stats.errors + 1) := by
        rw [acted.actions, acted.stats]
        simpa using h.booked.raise e
      refine .on (h.caught result hphrase.reading.stmts hphrase.plain ?_ ?_ (Supply.acted _ acted)
        acted.scanner_fetched ?_ hbooked)
      · intro err herr
        obtain rfl := Option.some.inj herr
        exact hphrase.located place
      · exact fun _ => hphrase.cur_ne_nil
      · rw [acted.mode]
        exact fun hmode => hne (hu.steady.stalled hmode f decides.top)
    · refine .full ?_ hverdict (by rw [hactions, acted.actions]; exact ⟨rfl, rfl⟩)
      have hdeep := hreading.length_le
      have hlength := h.length_le
      omega
  | passed => simp at raises
  | recorded => simp [Ledger.record] at raises
  | assigned => simp [Ledger.record] at raises
  | skipped => simp [Ledger.record] at raises
  | aborted => simp at raises

omit h in
/-- A reduction for which there is no room is the one that begins the statements. -/
theorem crowded {g : Frame Value Span} (hdepth : c.stack.items.length ≤ maxDepth)
    (decides : (machine maxDepth).Decides c f s (.reduce r))
    (reduces : (machine maxDepth).Reduces c r rule frames (g :: below) (.ok reply))
    (full : maxDepth ≤ below.length + 1) : maxDepth < 2 ∧ reply.state = c.actions := by
  obtain ⟨p, g', below', rfl, hp, rfl, hbelow, hentered, h0, hlink⟩ :=
    Reduces.pops rfl hu.orderly.linked decides reduces
  obtain ⟨rfl, rfl⟩ := List.cons.inj hbelow
  have hitems := congrArg List.length reduces.items
  rw [List.length_append, List.length_reverse, List.length_cons] at hitems
  obtain rfl : frames = [] := List.eq_nil_of_length_eq_zero (by omega)
  obtain rfl : p = .noStmts := by
    cases p <;> first | rfl | cases hentered
  obtain rfl := hlink.eq_nil_of_empty h0 rfl
  have heffect : Ledger.Effect c.actions ((machine maxDepth).reduction c
      Production.noStmts.ruleId Production.noStmts.rule []) ((machine maxDepth).given []) .noStmts
      reply := Ledger.reduce_effect rfl reduces.reply
  refine ⟨by rw [List.length_nil] at full; omega, ?_⟩
  cases heffect with
  | passed => rfl
  | raised v inner => exact absurd inner (by decide)

theorem skipping {force : Bool} (phase : c.phase = .skipping force)
    (top : c.stack.items.head? = some f) (state : (machine maxDepth).tables.state f.state = .ok s)
    (unfit : force = false → s.hasLookahead = true ∧ s.lookup ((machine maxDepth).ahead c) = 0) :
    f.state = afterError ∧ (machine maxDepth).ahead c ≠ Token.semicolon.terminal := by
  have hf := hu.orderly.caught f top (by simp [phase])
  refine ⟨hf, fun hsemi => ?_⟩
  obtain rfl := Except.ok.inj
    (state.symm.trans (hu.orderly.linked.state_eq (List.mem_of_head? top)))
  cases force with
  | true => exact h.careful phase
  | false =>
    have hzero := (unfit rfl).2
    rw [hf, hsemi] at hzero
    exact absurd hzero (by decide)

end Errors

theorem goes_on (h : Tally maxDepth w b₀ c entries cur failure) (hu : Underway maxDepth stop c)
    (hs : (machine maxDepth).step c = .ok c') : Goes maxDepth w b₀ c cur failure (.ok c') := by
  have hl := hu.orderly.linked
  cases Machine.turn_of_ok hs with
  | shifted decides room result =>
    obtain ⟨cur', h'⟩ := h.shifted hu.orderly decides result
    exact .on h'
  | reduced d st decides reduces acted proceeds other state room items =>
    obtain ⟨p, target, hc⟩ :=
      Folded.of_turn rfl hl decides reduces acted proceeds other state items
    obtain ⟨entries', cur', failure', h'⟩ := h.reduced hl hc
    exact .on h'
  | failed decides recovers => exact h.failed hu decides recovers
  | raised decides reduces acted raises recovers =>
    exact h.raised hu decides reduces acted raises recovers
  | resumed phase top state careful fits =>
    refine .on (h.of_eq ?_ ?_ ?_ ?_ ?_)
    all_goals split <;> simp
  | discarded phase top state unfit more =>
    obtain ⟨hcaught, hsemi⟩ := h.skipping hu phase top state unfit
    exact h.discarded top hcaught more hsemi rfl rfl (by simp) (by simp) (by simp) rfl

/-- A parse that ends has accepted all of its input, or it has been stopped by the limit of the
stack, by a division or by an unfinished statement. -/
theorem halts {e : Halt Lexer Ledger Value Span ActionFault}
    (h : Tally maxDepth w b₀ c entries cur failure) (hu : Underway maxDepth stop c)
    (hdepth : c.stack.items.length ≤ maxDepth) (hs : (machine maxDepth).step c = .error e) :
    Goes maxDepth w b₀ c cur failure (.error e) := by
  have hl := hu.orderly.linked
  have hfault := hu.fitting.no_fault rfl rfl hs
  -- The tables exclude the faults. What remains is an end of the input, a full stack or an action
  -- that stops.
  cases Machine.turn_of_error hs with
  | bare _ verdict => exact absurd verdict (hfault _)
  | lost _ _ verdict => exact absurd verdict (hfault _)
  | lostRule _ _ verdict => exact absurd verdict (hfault _)
  | shortStack _ _ _ verdict => exact absurd verdict (hfault _)
  | actionFault _ _ verdict => exact absurd verdict (hfault _)
  | gotoBare _ _ verdict => exact absurd verdict (hfault _)
  | gotoLost _ _ _ verdict => exact absurd verdict (hfault _)
  | shiftOverflow decides full verdict actions =>
    obtain ⟨l, rest, hinput, -⟩ := Decides.takes (supply maxDepth) rfl hl decides
    refine .full ?_ verdict (by rw [actions]; exact ⟨rfl, rfl⟩)
    have hdeep := h.stage.length_le
    have hlength := h.length_le
    rw [hinput, List.length_cons] at hlength
    change maxDepth ≤ _ at full
    omega
  | gotoOverflow decides reduces full verdict actions =>
    obtain ⟨hsmall, hreply⟩ := Tally.crowded hu hdepth decides reduces full
    exact .full (by omega) verdict (by rw [actions, hreply]; exact ⟨rfl, rfl⟩)
  | accepted decides reduces acted accepts =>
    obtain ⟨⟨f, g, hitems, hf, hg⟩, -, hend, hactions, -⟩ := accepted_shape hl hs
    have hrest := (supply maxDepth).input_eq_nil_iff.2 hend
    obtain ⟨hread, hwhole⟩ := h.stage.of_statements hitems hf
    exact .accepted hread hrest hwhole hactions
  | @aborted f s r rule frames below reply d decides reduces acted aborts =>
    obtain ⟨p, g, below, rfl, -, rfl, rfl, -⟩ := Reduces.pops rfl hl decides reduces
    have heffect : Ledger.Effect c.actions ((machine maxDepth).reduction c p.ruleId p.rule frames)
        ((machine maxDepth).given frames) p reply := Ledger.reduce_effect rfl reduces.reply
    cases heffect with
    | aborted v zero =>
      exact .divided ⟨_, _, _, _, _, decides, reduces, zero⟩ rfl (by rw [acted.actions])
        (by rw [acted.actions]; exact ⟨rfl, rfl⟩)
    | _ => simp [Ledger.record] at aborts
  | failed decides recovers => exact h.failed hu decides recovers
  | raised decides reduces acted raises recovers =>
    exact h.raised hu decides reduces acted raises recovers
  | outOfInput phase top state unfit last verdict actions =>
    have hrest := (supply maxDepth).input_eq_nil_iff.2 last
    obtain ⟨hplain, hread⟩ := h.stage.of_caught top (hu.orderly.caught _ top (by simp [phase]))
    exact .unfinished (hread hrest) hplain hrest verdict (by rw [actions]; exact ⟨rfl, rfl⟩)

/-- Whatever a step does, the tokens of the source stay accounted for. -/
theorem goes (h : Tally maxDepth w b₀ c entries cur failure) (hu : Underway maxDepth stop c)
    (hdepth : c.stack.items.length ≤ maxDepth) :
    Goes maxDepth w b₀ c cur failure ((machine maxDepth).step c) := by
  cases hs : (machine maxDepth).step c with
  | ok c' => exact h.goes_on hu hs
  | error e => exact h.halts hu hdepth hs

end Tally

section Evaluate

variable (maxDepth : Nat) (source : String) (bindings : Variables)

theorem Tally.opening : Tally maxDepth (Lexer.ofString source).lexemes bindings
    (beginning maxDepth source bindings) [] [] none :=
  ⟨rfl, .opening rfl, ⟨by simp, rfl, rfl, rfl, rfl⟩, by simp [Machine.opening]⟩

variable {maxDepth source bindings} in
/-- Wherever the evaluation of a source gets, its tokens are accounted for. -/
theorem Tally.visited (hd : 0 < maxDepth)
    (hc : (machine maxDepth).Reaches (beginning maxDepth source bindings) c) :
    c.stack.items.length ≤ maxDepth ∧ ∃ entries cur failure,
      Tally maxDepth (Lexer.ofString source).lexemes bindings c entries cur failure := by
  refine ⟨hc.depth_le hd, ?_⟩
  induction hc with
  | refl => exact ⟨_, _, _, .opening maxDepth source bindings⟩
  | tail hreach hstep ih =>
    obtain ⟨entries, cur, failure, h⟩ := ih
    have hgoes := h.goes ((Underway.beginning maxDepth source bindings).reaches hreach)
      (Machine.Reaches.depth_le hreach hd)
    rw [hstep] at hgoes
    cases hgoes with
    | on tally => exact ⟨_, _, _, tally⟩

/-- The last step of an evaluation with the account of the tokens before it. -/
theorem evaluate_goes (hd : 0 < maxDepth) : ∃ c h entries cur failure,
    (machine maxDepth).Reaches (beginning maxDepth source bindings) c ∧
      (machine maxDepth).step c = .error h ∧ evaluate maxDepth source bindings = ending h ∧
      Tally maxDepth (Lexer.ofString source).lexemes bindings c entries cur failure ∧
      Goes maxDepth (Lexer.ofString source).lexemes bindings c cur failure (.error h) := by
  obtain ⟨c, h, hc, hs, heval⟩ := evaluate_ends maxDepth source bindings hd
  obtain ⟨hdepth, entries, cur, failure, htally⟩ := Tally.visited hd hc
  have hunderway := (Underway.beginning maxDepth source bindings).reaches hc
  exact ⟨c, h, entries, cur, failure, hc, hs, heval, htally, hs ▸ htally.goes hunderway hdepth⟩

end Evaluate

end ShiftReduce.Calculator
