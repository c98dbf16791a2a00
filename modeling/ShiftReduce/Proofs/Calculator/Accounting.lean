import Mathlib.Data.List.NodupEquivFin
import ShiftReduce.Proofs.Calculator.Tally
import ShiftReduce.Proofs.Machine.Growth

namespace ShiftReduce.Calculator

structure Ordered (w : Lexemes) : Prop where
  proper : ∀ l ∈ w, l.span.start.Precedes l.span.stop
  apart : w.Pairwise fun a b => a.span.stop.NotAfter b.span.start

theorem Ordered.sublist {w block : Lexemes} (h : Ordered w) (hb : block.Sublist w) :
    Ordered block :=
  ⟨fun l hl => h.proper l (hb.subset hl), h.apart.sublist hb⟩

/-- A phrase that covers tokens takes some room. -/
theorem Covers.precedes {block : Lexemes} {s : Span} (h : Covers block s) (ho : Ordered block) :
    s.start.Precedes s.stop := by
  obtain ⟨l, hl, hstart⟩ := h.start
  obtain ⟨l', hl', hstop⟩ := h.stop
  obtain ⟨rest, rfl⟩ := List.head?_eq_some_iff.1 hl
  have hroom := ho.proper l List.mem_cons_self
  rw [hstart, hstop]
  rcases List.mem_cons.1 (List.mem_of_getLast? hl') with rfl | hmem
  · exact hroom
  · have hnext := (List.pairwise_cons.1 ho.apart).1 l' hmem
    exact hroom.trans (hnext.trans_precedes (ho.proper l' (List.mem_cons_of_mem l hmem)))

def Behind (w : Lexemes) (i : Nat) (s : Span) : Prop :=
  ∀ l ∈ w.take i, l.span.stop.NotAfter s.start

section Entries

variable {entries : List Entry} (hentries : ∀ e ∈ entries, e.Sound)

include hentries in
/-- The semicolons of a source are those of its statements. -/
theorem filter_entries : (entries.flatMap Entry.tokens).filter isSemicolon =
    entries.map Entry.semicolon := by
  have hone : ∀ e ∈ entries, e.tokens.filter isSemicolon = [e.semicolon] := by
    intro e he
    have hsound := hentries e he
    rw [Entry.tokens, List.filter_append, List.filter_eq_nil_iff.2 fun l hl => by
      simp [hsound.plain l hl], List.filter_cons_of_pos hsound.closed]
    rfl
  rw [List.filter_flatMap, List.flatMap_congr hone, ← List.map_eq_flatMap]

theorem behind_of_mem {i : Nat} {e : Entry} (ho : Ordered (entries.flatMap Entry.tokens))
    (he : entries[i]? = some e) {l : Lexeme Value Span} (hl : l ∈ e.tokens) {s : Span}
    (hs : s.start = l.span.start) : Behind (entries.map Entry.semicolon) i s := by
  intro l' hl'
  rw [← List.map_take] at hl'
  obtain ⟨e', he', rfl⟩ := List.mem_map.1 hl'
  have hpairs := (List.pairwise_flatMap.1 ho.apart).2
  rw [← List.take_append_drop i entries] at hpairs
  rw [hs]
  refine (List.pairwise_append.1 hpairs).2.2 e' he' e ?_ _ (by simp [Entry.tokens]) l hl
  exact List.mem_of_getElem? (i := 0) (by simpa using he)

variable {e : Entry} (he : e.Sound) (ho : Ordered e.tokens)
include he ho

/-- A statement takes some room. -/
theorem Entry.Sound.precedes : e.statement.span.start.Precedes e.statement.span.stop := by
  obtain ⟨l, hl, hstart⟩ := he.start
  have hroom := ho.proper l hl
  rw [hstart, he.stop]
  rcases List.mem_append.1 hl with hl | hl
  · have hnext := (List.pairwise_append.1 ho.apart).2.2 l hl e.semicolon List.mem_cons_self
    exact hroom.trans (hnext.trans_precedes (ho.proper e.semicolon (by simp [Entry.tokens])))
  · rwa [List.mem_singleton.1 hl] at hroom ⊢

/-- The error that a statement was skipped for lies in front of its semicolon. -/
theorem Entry.Sound.error_span {err : Error} (herr : e.error = some err) :
    e.statement.value = none ∧ ∃ s, err.span? = some s ∧ s.start.Precedes s.stop ∧
      (∃ l ∈ e.tokens, s.start = l.span.start) ∧ (∃ l ∈ e.tokens, s.stop = l.span.stop) ∧
        s.stop.NotAfter e.semicolon.span.start := by
  obtain ⟨hvalue, block, s, hs, hblock, hcovers⟩ := he.located err herr
  have hmem {l : Lexeme Value Span} (hl : l ∈ block) : l ∈ e.words := hblock.subset hl
  obtain ⟨l, hl, hstart⟩ := hcovers.start
  obtain ⟨l', hl', hstop⟩ := hcovers.stop
  have hl := hmem (List.mem_of_head? hl)
  have hl' := hmem (List.mem_of_getLast? hl')
  refine ⟨hvalue, s, hs, hcovers.precedes (ho.sublist ?_), ⟨l, ?_, hstart⟩, ⟨l', ?_, hstop⟩, ?_⟩
  · exact hblock.sublist.trans (List.sublist_append_left _ _)
  · exact List.mem_append_left _ hl
  · exact List.mem_append_left _ hl'
  · rw [hstop]
    exact (List.pairwise_append.1 ho.apart).2.2 l' hl' e.semicolon List.mem_cons_self

end Entries

namespace Ordered

variable {entries : List Entry} (ho : Ordered (entries.flatMap Entry.tokens))
include ho

theorem entry {e : Entry} (he : e ∈ entries) : Ordered e.tokens := by
  obtain ⟨before, after, hsplit⟩ := List.append_of_mem he
  refine ho.sublist ?_
  rw [hsplit, List.flatMap_append, List.flatMap_cons]
  exact (List.sublist_append_left _ _).trans (List.sublist_append_right _ _)

/-- The statements follow one after the other, as their tokens do. -/
theorem statements (hsound : ∀ e ∈ entries, e.Sound) : (entries.map Entry.statement).Pairwise
    fun s t => s.span.stop.NotAfter t.span.start := by
  rw [List.pairwise_map]
  refine (List.pairwise_flatMap.1 ho.apart).2.imp_of_mem fun {x y} hx hy h => ?_
  obtain ⟨l, hl, hstart⟩ := (hsound y hy).start
  rw [(hsound x hx).stop, hstart]
  exact h x.semicolon (by simp [Entry.tokens]) l hl

/-- So do the errors, which lie within the statements. -/
theorem errors (hsound : ∀ e ∈ entries, e.Sound) : (entries.filterMap Entry.error).Pairwise
    fun a b => ∀ s ∈ a.span?, ∀ t ∈ b.span?, s.stop.NotAfter t.start := by
  rw [List.pairwise_filterMap]
  refine (List.pairwise_flatMap.1 ho.apart).2.imp_of_mem fun {x y} hx hy h a ha b hb s hs t ht => ?_
  obtain ⟨-, s', hs', -, -, ⟨l, hl, hstop⟩, -⟩ := (hsound x hx).error_span (ho.entry hx) ha
  obtain ⟨-, t', ht', -, ⟨l', hl', hstart⟩, -, -⟩ := (hsound y hy).error_span (ho.entry hy) hb
  obtain rfl := Option.some.inj (hs'.symm.trans hs)
  obtain rfl := Option.some.inj (ht'.symm.trans ht)
  rw [hstop, hstart]
  exact h l hl l' hl'

end Ordered

section Spent

variable {maxDepth : Nat} {stop : Position} {c c' : Config Lexer Ledger Value Span}
  {w cur : Lexemes} {b₀ : Variables} {entries : List Entry} {failure : Option (Option Error)}

/-- What has become of the tokens `w`: each was shifted or discarded, or it is still to be read. No
semicolon was discarded. -/
structure Spent (maxDepth : Nat) (w : Lexemes) (c : Config Lexer Ledger Value Span) : Prop where
  count : c.stats.shifts + c.stats.discarded + ((supply maxDepth).input c).length = w.length
  kept : Token.semicolon.terminal ∉ ShiftReduce.told Event.discard? c.trace

theorem Spent.step (h : Spent maxDepth w c) (ht : Tally maxDepth w b₀ c entries cur failure)
    (hu : Underway maxDepth stop c) (hs : (machine maxDepth).step c = .ok c') :
    Spent maxDepth w c' := by
  refine ⟨(count_step (supply maxDepth) rfl hu.orderly.linked hs).trans h.count, ?_⟩
  have hrefl := Machine.Grows.refl c
  have grown (hgrows : Machine.Grows c c') :
      Token.semicolon.terminal ∉ ShiftReduce.told Event.discard? c'.trace :=
    hgrows.told_eq ▸ h.kept
  have deciding (hphase : c.phase = .deciding) : Machine.Grows c c' := by
    have hgrows := Machine.step_grows (m := machine maxDepth) hphase
    rwa [hs] at hgrows
  -- Only a step that discards adds to the tokens that are told to be discarded. It needs the stage
  -- of the statement, where a semicolon would have been shifted.
  cases Machine.turn_of_ok hs with
  | shifted decides => exact grown (deciding decides.phase)
  | reduced d st decides => exact grown (deciding decides.phase)
  | failed decides => exact grown (deciding decides.phase)
  | raised decides => exact grown (deciding decides.phase)
  | @resumed f s force phase top state careful fits =>
    refine grown ?_
    split
    · exact Machine.Grows.resynchronized hrefl.fetched f.state
    · exact hrefl.resynchronized f.state
  | discarded phase top state unfit more =>
    have hsemi := (ht.skipping hu phase top state unfit).2
    have hfetched : Machine.Grows c ((machine maxDepth).fetched c) := hrefl.fetched
    rw [Config.trace_emit, told_cons, hfetched.told_eq]
    intro hmem
    rcases List.mem_append.1 hmem with hmem | hmem
    · exact h.kept hmem
    · exact hsemi (List.mem_singleton.1 hmem).symm

end Spent

/-- The account of a finished program with the tokens `w`, where the statement at an index belongs
to the semicolon at the same index. -/
structure Accounted (w : Lexemes) (e : Evaluation) : Prop where
  count : e.statements.length = (w.filter isSemicolon).length
  place : ∀ i s, e.statements[i]? = some s → ∃ l, (w.filter isSemicolon)[i]? = some l ∧
    s.span.stop = l.span.stop ∧ s.span.start.Precedes s.span.stop ∧
      Behind (w.filter isSemicolon) i s.span
  apart : e.statements.Pairwise fun s t => s.span.stop.NotAfter t.span.start
  skipped : (e.statements.filter (·.value = none)).length = e.stats.errors
  spent : e.stats.shifts + e.stats.discarded = w.length
  kept : Token.semicolon.terminal ∉ ShiftReduce.told Event.discard? e.trace
  errors : ∃ f : Nat → Nat, StrictMono f ∧ ∀ k err, e.errors[k]? = some err →
    ∃ s l span, e.statements[f k]? = some s ∧ s.value = none ∧
      (w.filter isSemicolon)[f k]? = some l ∧ err.span? = some span ∧
        span.start.Precedes span.stop ∧ Behind (w.filter isSemicolon) (f k) span ∧
          span.stop.NotAfter l.span.start
  sorted : e.errors.Pairwise fun a b =>
    ∀ s ∈ a.span?, ∀ t ∈ b.span?, s.stop.NotAfter t.start

section Evaluate

variable {entries : List Entry} {e : Evaluation}

/-- The indices of the statements that were skipped for semantic errors. -/
theorem exists_indices (entries : List Entry) : ∃ f : Nat → Nat, StrictMono f ∧
    ∀ k err, (entries.filterMap Entry.error)[k]? = some err →
      ∃ e, entries[f k]? = some e ∧ e.error = some err := by
  have hsub : ((entries.filterMap Entry.error).map some).Sublist (entries.map Entry.error) := by
    induction entries with
    | nil => exact .slnil
    | cons e entries ih =>
      cases herr : e.error with
      | none => simpa [herr] using ih.cons none
      | some err => simpa [herr] using ih.cons_cons (some err)
  obtain ⟨f, hf⟩ := List.sublist_iff_exists_orderEmbedding_getElem?_eq.1 hsub
  refine ⟨f, f.strictMono, fun k err hk => ?_⟩
  have hget := hf k
  rw [List.getElem?_map, List.getElem?_map, hk, Option.map_some] at hget
  obtain ⟨e, he, herr⟩ := Option.map_eq_some_iff.1 hget.symm
  exact ⟨e, he, herr⟩

/-- The account of a program all of whose tokens belong to statements. -/
theorem accounted_entries (hsound : ∀ e ∈ entries, e.Sound)
    (ho : Ordered (entries.flatMap Entry.tokens))
    (hstatements : e.statements = entries.map Entry.statement)
    (herrors : e.errors = entries.filterMap Entry.error)
    (hskipped : e.stats.errors = (entries.filter (·.statement.value = none)).length)
    (hspent : e.stats.shifts + e.stats.discarded = (entries.flatMap Entry.tokens).length)
    (hkept : Token.semicolon.terminal ∉ ShiftReduce.told Event.discard? e.trace) :
    Accounted (entries.flatMap Entry.tokens) e := by
  refine ⟨?_, ?_, hstatements ▸ ho.statements hsound, ?_, hspent, hkept, ?_,
    herrors ▸ ho.errors hsound⟩
  · rw [filter_entries hsound, hstatements, List.length_map, List.length_map]
  · intro i s hi
    rw [hstatements, List.getElem?_map] at hi
    obtain ⟨x, hx, rfl⟩ := Option.map_eq_some_iff.1 hi
    have hmem := List.mem_of_getElem? hx
    obtain ⟨l, hl, hstart⟩ := (hsound x hmem).start
    rw [filter_entries hsound]
    exact ⟨x.semicolon, by rw [List.getElem?_map, hx]; rfl, (hsound x hmem).stop,
      (hsound x hmem).precedes (ho.entry hmem), behind_of_mem ho hx hl hstart⟩
  · rw [hskipped, hstatements, List.filter_map, List.length_map]
    rfl
  · obtain ⟨f, hmono, hf⟩ := exists_indices entries
    refine ⟨f, hmono, fun k err hk => ?_⟩
    rw [herrors] at hk
    obtain ⟨x, hx, herr⟩ := hf k err hk
    have hmem := List.mem_of_getElem? hx
    obtain ⟨hvalue, span, hspan, hroom, ⟨l, hl, hstart⟩, -, hstop⟩ :=
      (hsound x hmem).error_span (ho.entry hmem) herr
    rw [filter_entries hsound, hstatements]
    exact ⟨x.statement, x.semicolon, span, by rw [List.getElem?_map, hx]; rfl, hvalue,
      by rw [List.getElem?_map, hx]; rfl, hspan, hroom, behind_of_mem ho hx hl hstart, hstop⟩

variable (maxDepth : Nat) (source : String) (bindings : Variables)

variable {maxDepth source bindings} in
theorem Spent.visited (hd : 0 < maxDepth) {c : Config Lexer Ledger Value Span}
    (hc : (machine maxDepth).Reaches (beginning maxDepth source bindings) c) :
    Spent maxDepth (Lexer.ofString source).lexemes c := by
  induction hc with
  | refl => exact ⟨Nat.zero_add _, List.not_mem_nil⟩
  | tail hreach hstep ih =>
    obtain ⟨-, entries, cur, failure, htally⟩ := Tally.visited hd hreach
    exact ih.step htally ((Underway.beginning maxDepth source bindings).reaches hreach) hstep

/-- A program that is finished has a statement for each semicolon. Each statement ends at its
semicolon, and those without a value are as many as there are errors. No token is lost and no
semicolon discarded, and every semantic error lies in a statement of its own that has no value. -/
theorem accounted_of_finished
    (hfinished : (evaluate maxDepth source bindings).outcome = .finished) :
    Accounted (Lexer.ofString source).lexemes (evaluate maxDepth source bindings) := by
  have hd : 0 < maxDepth := by
    refine Nat.pos_of_ne_zero ?_
    rintro rfl
    simp [evaluate_of_zero] at hfinished
  obtain ⟨c, h, entries, cur, failure, hc, hs, heval, htally, hgoes⟩ :=
    evaluate_goes maxDepth source bindings hd
  have houtcome := (congrArg Evaluation.outcome heval).symm.trans hfinished
  obtain ⟨v, hv⟩ := ofVerdict_eq_finished.1 houtcome
  cases hgoes with
  | @accepted v d read rest whole actions =>
    have hspent := Spent.visited hd hc
    have hw := htally.tokens
    rw [read, rest, List.append_nil, List.append_nil] at hw
    have hbooked := htally.booked
    rw [whole] at hbooked
    obtain ⟨f, s, r, rule, frames, below, reply, decides, -, acted, -⟩ := Machine.exists_accepted hs
    have hordered : Ordered (Lexer.ofString source).lexemes := by
      obtain ⟨hproper, hapart⟩ := Lexer.lexemes_ordered (Lexer.ofString source)
      exact ⟨fun l hl => (hproper l hl).2, hapart⟩
    have hgrows : Machine.Grows c d := by
      have hkeeps := Machine.step_grows (m := machine maxDepth) decides.phase
      rwa [hs] at hkeeps
    rw [heval, ← hw]
    refine accounted_entries hbooked.sound (hw ▸ hordered) ?_ ?_ ?_ ?_ ?_
    · simp only [ending, actions, hbooked.statements]
    · simp only [ending, actions, hbooked.errors_eq]
      simp
    · rw [ending, Machine.errors_of_accepted hs, hbooked.count]
      rfl
    · have hcount := hspent.count
      rw [rest, ← hw] at hcount
      simpa [ending, acted.stats] using hcount
    · have htold : ShiftReduce.told Event.discard? d.trace =
          ShiftReduce.told Event.discard? c.trace := hgrows.told_eq
      simpa [ending, Machine.finish, Machine.reset, Event.discard?, htold] using hspent.kept
  | full short verdict => simp [verdict] at hv
  | divided divides verdict => simp [verdict] at hv
  | unfinished read plain rest verdict => simp [verdict] at hv

/-- One statement of this program has a value, and the others fail for an undefined variable, for
their syntax and for an overflow. -/
theorem accounted_of_finished_failing :
    (evaluate 16 "x = 1; y + 2; 3 3; 9223372036854775807 + x;" .empty).outcome = .finished ∧
      Accounted (Lexer.ofString "x = 1; y + 2; 3 3; 9223372036854775807 + x;").lexemes
        (evaluate 16 "x = 1; y + 2; 3 3; 9223372036854775807 + x;" .empty) := by
  have hfinished : (evaluate 16 "x = 1; y + 2; 3 3; 9223372036854775807 + x;" .empty).outcome =
      .finished := by
    decide +kernel
  exact ⟨hfinished, accounted_of_finished 16 _ .empty hfinished⟩

end Evaluate

end ShiftReduce.Calculator
