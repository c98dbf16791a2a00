import ShiftReduce.Proofs.Machine.Exits
import ShiftReduce.Proofs.Machine.History
import ShiftReduce.Proofs.Machine.Lockstep

namespace ShiftReduce

/-- Computations that are the same agree. -/
theorem Agrees.refl {β ε : Type} (x : Except ε β) : Agrees Eq Eq x x := by
  cases x with
  | ok b => exact .ok rfl
  | error e => exact .error rfl

namespace Machine

variable {σ α V S φ : Type}

theorem lookahead_of_push {m : Machine σ α V S φ} {c d : Config σ α V S} {f : Frame V S}
    (h : m.push c f = .ok d) : d.lookahead = c.lookahead := by
  rw [push] at h
  split at h
  · cases h
  · rw [← Except.ok.inj h]

/-- Relations between the states of two parses of one machine that the calls of its scanner and of
its actions keep, as far as the machine makes them: a token is read when none is buffered, its
value is taken and an error is reported while it is buffered, the latter at its own place, and a
token other than the end terminal is dropped. The places themselves decide nothing. -/
structure Congruence [Merge S] (m : Machine σ α V S φ) where
  scanners : Option Terminal → σ → σ → Prop
  actors : α → α → Prop
  places : S → S → Prop
  next {x y : σ} : scanners none x y → (m.scanner.next y).1 = (m.scanner.next x).1 ∧
    scanners (some (m.scanner.next x).1) (m.scanner.next x).2.1 (m.scanner.next y).2.1
  value {t : Terminal} {x y : σ} : scanners (some t) x y →
    (m.scanner.value y).1 = (m.scanner.value x).1 ∧
      scanners (some t) (m.scanner.value x).2 (m.scanner.value y).2
  report {t : Terminal} {x y : σ} (message : String) : scanners (some t) x y →
    scanners (some t) (m.scanner.report message (m.scanner.span x) x).1
      (m.scanner.report message (m.scanner.span y) y).1
  drop {t : Terminal} {x y : σ} : scanners (some t) x y → t ≠ m.tables.endTerminal →
    scanners none x y
  span {buffered : Option Terminal} {x y : σ} : scanners buffered x y →
    places (m.scanner.span x) (m.scanner.span y)
  merge {s t s' t' : S} : places s s' → places t t' →
    places (Merge.merge s t) (Merge.merge s' t')
  rename {a a' : α} : actors a a' → m.actions.rename a' = m.actions.rename a
  reduce {r : RuleId} {rule : Rule} {values : List V} {spans spans' : List S} {s s' : S}
      {a a' : α} (given : V) : List.Forall₂ places spans spans' → places s s' → actors a a' →
    Agrees (fun p q => q.control = p.control ∧ q.value = p.value ∧ actors p.state q.state) Eq
      (m.actions.reduce ⟨r, rule, values, spans, s⟩ given a)
      (m.actions.reduce ⟨r, rule, values, spans', s'⟩ given a')

namespace Congruence

variable [Merge S] {m : Machine σ α V S φ} (K : m.Congruence)

structure Matches (f g : Frame V S) : Prop where
  state : g.state = f.state
  value : g.value = f.value
  span : K.places f.span g.span

inductive Mirrors : Callback V S → Callback V S → Prop
  | next (t : Terminal) : Mirrors (.next t) (.next t)
  | value (v : V) : Mirrors (.value v) (.value v)
  | report (message : String) {s s' : S} (places : K.places s s') :
      Mirrors (.report message s) (.report message s')
  | reduce (r : RuleId) (rule : Rule) (values : List V) {spans spans' : List S} {s s' : S}
      (parts : List.Forall₂ K.places spans spans') (whole : K.places s s') (given made : V)
      (control : Control) : Mirrors (.reduce ⟨r, rule, values, spans, s⟩ given made control)
        (.reduce ⟨r, rule, values, spans', s'⟩ given made control)

/-- Configurations that have come to the same apart from places. -/
structure Relates (c d : Config σ α V S) : Prop where
  scanner : K.scanners c.lookahead c.scanner d.scanner
  actions : K.actors c.actions d.actions
  lastSpan : K.places c.lastSpan d.lastSpan
  frames : List.Forall₂ K.Matches c.stack.items d.stack.items
  lookahead : d.lookahead = c.lookahead
  mode : d.mode = c.mode
  phase : d.phase = c.phase
  stats : d.stats = c.stats
  callbacks : List.Forall₂ K.Mirrors (told Event.callback? c.trace) (told Event.callback? d.trace)

def Ends (h h' : Halt σ α V S φ) : Prop :=
  h'.verdict = h.verdict ∧ K.Relates h.config h'.config

variable {K} {c d : Config σ α V S}

section Stack

variable {k l : FrameStack V S}

theorem forall₂_head (h : List.Forall₂ K.Matches k.items l.items) :
    Agrees K.Matches Eq k.peek l.peek := by
  generalize hk : k.items = fs at h
  generalize hl : l.items = gs at h
  cases h with
  | nil =>
    rw [FrameStack.peek_of_nil hk, FrameStack.peek_of_nil hl]
    exact .error rfl
  | cons related _ =>
    rw [FrameStack.peek_of_cons hk, FrameStack.peek_of_cons hl]
    exact .ok related

theorem forall₂_top (h : List.Forall₂ K.Matches k.items l.items) (n : Nat) :
    Agrees (List.Forall₂ K.Matches) Eq (k.top n) (l.top n) := by
  by_cases hn : n ≤ k.items.length
  · rw [FrameStack.top_of_le hn, FrameStack.top_of_le (h.length_eq ▸ hn)]
    exact .ok (List.rel_reverse (List.forall₂_take n h))
  · rw [FrameStack.top_of_lt (Nat.not_le.1 hn),
      FrameStack.top_of_lt (h.length_eq ▸ Nat.not_le.1 hn), h.length_eq]
    exact .error rfl

theorem forall₂_discard (h : List.Forall₂ K.Matches k.items l.items) (n : Nat) :
    Agrees (fun k l => List.Forall₂ K.Matches k.items l.items) Eq (k.discard n) (l.discard n) := by
  have hdepth : l.depth = k.depth := by rw [FrameStack.depth_eq, FrameStack.depth_eq, h.length_eq]
  unfold FrameStack.discard
  rw [hdepth]
  split
  · refine .ok ?_
    rw [FrameStack.items_drop, FrameStack.items_drop]
    exact List.forall₂_drop n h
  · exact .error rfl

end Stack

namespace Relates

/-- What is told of no call may differ. -/
theorem emit (h : K.Relates c d) (e e' : Event V S) (he : e.callback? = none)
    (he' : e'.callback? = none) : K.Relates (c.emit e) (d.emit e') :=
  { h with callbacks := by simpa [he, he'] using h.callbacks }

theorem call (h : K.Relates c d) (e e' : Event V S) {a b : Callback V S}
    (he : e.callback? = some a) (he' : e'.callback? = some b) (hab : K.Mirrors a b) :
    K.Relates (c.emit e) (d.emit e') :=
  { h with callbacks := by simpa [he, he'] using List.rel_append h.callbacks (.cons hab .nil) }

theorem notes (h : K.Relates c d) (lines lines' : List LogLine) :
    K.Relates (c.notes lines) (d.notes lines') := by
  rw [Config.notes_eq c, Config.notes_eq d]
  exact { h with callbacks := by simpa only [callbacks_notes] using h.callbacks }

theorem turned (h : K.Relates c d) : K.Relates (turned c) (turned d) := h.emit _ _ rfl rfl

theorem ahead_eq (h : K.Relates c d) : m.ahead d = m.ahead c := by
  cases hl : c.lookahead with
  | some t => rw [ahead_of_some hl, ahead_of_some (h.lookahead.trans hl)]
  | none =>
    have hscanner := h.scanner
    rw [hl] at hscanner
    rw [ahead_of_none hl, ahead_of_none (h.lookahead.trans hl), (K.next hscanner).1]

theorem fetched (h : K.Relates c d) : K.Relates (m.fetched c) (m.fetched d) := by
  cases hl : c.lookahead with
  | some t => rwa [fetched_of_some hl, fetched_of_some (h.lookahead.trans hl)]
  | none =>
    have hscanner := h.scanner
    rw [hl] at hscanner
    obtain ⟨hnext, hread⟩ := K.next hscanner
    have hcounted : K.Relates
        { c with
          scanner := (m.scanner.next c.scanner).2.1
          lastSpan := m.scanner.span c.scanner
          lookahead := some (m.scanner.next c.scanner).1
          stats := { c.stats with tokens := c.stats.tokens + 1 } }
        { d with
          scanner := (m.scanner.next d.scanner).2.1
          lastSpan := m.scanner.span d.scanner
          lookahead := some (m.scanner.next d.scanner).1
          stats := { d.stats with tokens := d.stats.tokens + 1 } } :=
      { h with
        scanner := hread
        lastSpan := K.span hscanner
        lookahead := by rw [hnext]
        stats := by rw [h.stats] }
    have hnoted := hcounted.notes (m.scanner.next c.scanner).2.2 (m.scanner.next d.scanner).2.2
    have htold := hnoted.call (.fetched (m.scanner.next c.scanner).1)
      (.fetched (m.scanner.next d.scanner).1) rfl rfl (hnext ▸ .next _)
    simpa only [Machine.fetched, fetch, hl, h.lookahead] using htold

theorem countShift (h : K.Relates c d) : K.Relates (countShift c) (countShift d) := by
  unfold Machine.countShift
  rw [h.mode]
  split
  · exact h
  · split
    · exact Relates.emit (c := { c with mode := .normal }) (d := { d with mode := .normal })
        { h with mode := rfl } _ _ rfl rfl
    · exact { h with mode := rfl }

theorem push (h : K.Relates c d) {f g : Frame V S} (hfg : K.Matches f g) :
    Agrees K.Relates K.Ends (m.push c f) (m.push d g) := by
  have hlength := h.frames.length_eq
  by_cases hroom : c.stack.items.length < m.maxDepth
  · rw [push_of_lt f hroom, push_of_lt g (hlength ▸ hroom)]
    exact .ok { h with frames := .cons hfg h.frames }
  · rw [push_of_le f (Nat.not_lt.1 hroom), push_of_le g (hlength ▸ Nat.not_lt.1 hroom)]
    exact .error ⟨rfl, h⟩

theorem demand (h : K.Relates c d) {β ε : Type} {Q : β → β → Prop} (wrap : ε → Fault φ)
    {x y : Except ε β} (hxy : Agrees Q Eq x y) :
    Agrees Q K.Ends (c.demand wrap x) (d.demand wrap y) := by
  cases hxy with
  | ok related => exact .ok related
  | error related =>
    subst related
    exact .error ⟨rfl, h⟩

theorem unwind (h : K.Relates c d) {fs gs : List (Frame V S)} (hc : c.stack.items = fs)
    (hd : d.stack.items = gs) :
    Agrees (fun x y => y.1 = x.1 ∧ K.Relates x.2 y.2) K.Ends (m.unwind c fs) (m.unwind d gs) := by
  have hframes : List.Forall₂ K.Matches fs gs := hc ▸ hd ▸ h.frames
  induction hframes generalizing c d with
  | nil => exact .error ⟨rfl, h.emit _ _ rfl rfl⟩
  | @cons f g fs gs hfg hrest ih =>
    unfold Machine.unwind
    rw [hfg.state]
    refine (h.demand .index (Agrees.refl _)).bind ?_
    rintro s _ rfl
    cases s.shiftTarget? m.tables.errorTerminal with
    | some target => exact .ok ⟨rfl, h⟩
    | none =>
      have hdrop : K.Relates { c with stack := c.stack.drop 1 }
          { d with stack := d.stack.drop 1 } :=
        { h with frames := by simpa [hc, hd] using hrest }
      exact ih (hdrop.emit _ _ rfl rfl) (by simp [hc]) (by simp [hd])

theorem report (h : K.Relates c d) {t : Terminal} (hl : c.lookahead = some t)
    (expected : List Terminal) :
    K.Relates (m.report c t (m.scanner.span c.scanner) expected)
      (m.report d t (m.scanner.span d.scanner) expected) := by
  unfold Machine.report
  rw [h.mode]
  split
  · have hmessage : m.describe d.actions t expected = m.describe c.actions t expected := by
      have hnames : m.terminalName d.actions = m.terminalName c.actions := by
        funext a
        rw [terminalName, terminalName, K.rename h.actions]
      rw [describe, describe, hnames]
    rw [hmessage]
    generalize m.describe c.actions t expected = message
    have hreported := h.call (.reported message (m.scanner.span c.scanner))
      (.reported message (m.scanner.span d.scanner)) rfl rfl (.report _ (K.span h.scanner))
    have hscanner := h.scanner
    rw [hl] at hscanner
    have hnoted : K.Relates
        { c.emit (.reported message (m.scanner.span c.scanner)) with
          scanner := (m.scanner.report message (m.scanner.span c.scanner) c.scanner).1 }
        { d.emit (.reported message (m.scanner.span d.scanner)) with
          scanner := (m.scanner.report message (m.scanner.span d.scanner) d.scanner).1 } :=
      { hreported with scanner := by simpa [hl] using K.report message hscanner }
    exact hnoted.notes _ _
  · exact h

theorem complained (h : K.Relates c d) (expected : List Terminal) :
    K.Relates (m.complained c expected) (m.complained d expected) := by
  have hfetched := h.fetched
  have hcounted : K.Relates
      { m.fetched c with
        stats := { (m.fetched c).stats with errors := (m.fetched c).stats.errors + 1 } }
      { m.fetched d with
        stats := { (m.fetched d).stats with errors := (m.fetched d).stats.errors + 1 } } :=
    { hfetched with stats := by rw [hfetched.stats] }
  have hstuck := hcounted.emit (.stuck (m.ahead c) (m.scanner.span (m.fetched c).scanner))
    (.stuck (m.ahead d) (m.scanner.span (m.fetched d).scanner)) rfl rfl
  unfold Machine.complained
  rw [h.ahead_eq] at hstuck ⊢
  exact hstuck.report (lookahead_fetched m c) expected

theorem recover (h : K.Relates c d) (expected : List Terminal) :
    Agrees K.Relates K.Ends (m.recover c expected) (m.recover d expected) := by
  have hfetched := h.fetched
  have hspan : K.places (m.scanner.span (m.fetched c).scanner)
      (m.scanner.span (m.fetched d).scanner) := K.span hfetched.scanner
  rw [recover_eq, recover_eq]
  refine ((h.complained expected).unwind rfl rfl).bind ?_
  rintro ⟨target, e⟩ ⟨_, e'⟩ ⟨rfl, he⟩
  refine Agrees.bind ((he.emit _ _ rfl rfl).push ⟨rfl, rfl, hspan⟩) fun b b' hb => .ok ?_
  exact { hb.emit (.caught _) (.caught _) rfl rfl with
    mode := rfl
    phase := by rw [hfetched.mode] }

theorem shift (h : K.Relates c d) (target : StateId) :
    Agrees K.Relates K.Ends (m.shift c target) (m.shift d target) := by
  have hfetched := h.fetched
  have hscanner := hfetched.scanner
  rw [lookahead_fetched] at hscanner
  obtain ⟨hvalue, htaken⟩ := K.value hscanner
  have hshifting : K.Relates
      { (m.fetched c).emit (.shifting (m.ahead c) target) with
        scanner := (m.scanner.value (m.fetched c).scanner).2 }
      { (m.fetched d).emit (.shifting (m.ahead d) target) with
        scanner := (m.scanner.value (m.fetched d).scanner).2 } :=
    { hfetched.emit (.shifting _ _) (.shifting _ _) rfl rfl with
      scanner := by simpa using htaken }
  simp only [Machine.shift, fetch_eq]
  have htold := hshifting.call (.taken (m.scanner.value (m.fetched c).scanner).1)
    (.taken (m.scanner.value (m.fetched d).scanner).1) rfl rfl (hvalue ▸ .value _)
  have hpush := htold.push
    (f := ⟨target, (m.scanner.value (m.fetched c).scanner).1,
      m.scanner.span (m.scanner.value (m.fetched c).scanner).2⟩)
    (g := ⟨target, (m.scanner.value (m.fetched d).scanner).1,
      m.scanner.span (m.scanner.value (m.fetched d).scanner).2⟩) ⟨rfl, hvalue, K.span htaken⟩
  -- How the scanners are related depends on the buffered token, which a push leaves as it is.
  refine (hpush.and_left fun b hb => lookahead_of_push hb).bind ?_
  rintro b b' ⟨hl, hb⟩
  replace hl : b.lookahead = some (m.ahead c) := hl.trans (lookahead_fetched m c)
  have hshifted : K.Relates
      { b with
        stats := { b.stats with shifts := b.stats.shifts + 1 }
        lookahead := if m.ahead c = m.tables.endTerminal then b.lookahead else none }
      { b' with
        stats := { b'.stats with shifts := b'.stats.shifts + 1 }
        lookahead := if m.ahead d = m.tables.endTerminal then b'.lookahead else none } :=
    { hb with
      scanner := by
        have hscanner := hb.scanner
        rw [hl] at hscanner ⊢
        dsimp only
        split
        · exact hscanner
        · rename_i hend
          exact K.drop hscanner hend
      lookahead := by rw [h.ahead_eq, hb.lookahead]
      stats := by rw [hb.stats] }
  exact .ok (Relates.turned (Relates.countShift (hshifted.emit (.shifted _ _)
    (.shifted _ _) rfl rfl)))

theorem summoned (h : K.Relates c d) (r : RuleId) (rule : Rule) {fs gs : List (Frame V S)}
    (hframes : List.Forall₂ K.Matches fs gs) :
    K.Relates (m.summoned c r rule fs) (m.summoned d r rule gs) := by
  have hreducing := h.emit (.reducing r rule) (.reducing r rule) rfl rfl
  unfold Machine.summoned
  cases hframes with
  | nil => exact hreducing.fetched
  | cons => exact hreducing

theorem given_eq {fs gs : List (Frame V S)} (hframes : List.Forall₂ K.Matches fs gs) :
    m.given gs = m.given fs := by
  cases hframes with
  | nil => rfl
  | cons hfg _ => exact hfg.value

theorem getLast_places {f g : Frame V S} {fs gs : List (Frame V S)} (hfg : K.Matches f g)
    (hrest : List.Forall₂ K.Matches fs gs) :
    K.places ((f :: fs).getLast (List.cons_ne_nil f fs)).span
      ((g :: gs).getLast (List.cons_ne_nil g gs)).span := by
  induction hrest generalizing f g with
  | nil => exact hfg.span
  | cons hfg' _ ih => exact ih hfg'

theorem spread (h : K.Relates c d) {fs gs : List (Frame V S)}
    (hframes : List.Forall₂ K.Matches fs gs) :
    K.places (Machine.spread (m.gap c) fs) (Machine.spread (m.gap d) gs) := by
  cases hframes with
  | nil => exact K.merge (K.span h.fetched.scanner) h.fetched.lastSpan
  | cons hfg hrest =>
    cases hrest with
    | nil => exact hfg.span
    | cons hfg' hrest => exact K.merge hfg.span (getLast_places hfg' hrest)

theorem reduction (h : K.Relates c d) (r : RuleId) (rule : Rule) {fs gs : List (Frame V S)}
    (hframes : List.Forall₂ K.Matches fs gs) :
    (∃ values spans spans' s s', m.reduction c r rule fs = ⟨r, rule, values, spans, s⟩ ∧
      m.reduction d r rule gs = ⟨r, rule, values, spans', s'⟩ ∧
      List.Forall₂ K.places spans spans' ∧ K.places s s') := by
  have hvalues : gs.map Frame.value = fs.map Frame.value := by
    induction hframes with
    | nil => rfl
    | cons hfg _ ih => rw [List.map_cons, List.map_cons, hfg.value, ih]
  have hspans : List.Forall₂ K.places (fs.map Frame.span) (gs.map Frame.span) := by
    rw [List.forall₂_map_left_iff, List.forall₂_map_right_iff]
    exact hframes.imp fun _ _ hfg => hfg.span
  exact ⟨_, _, _, _, _, rfl, by rw [Machine.reduction, hvalues], hspans, h.spread hframes⟩

theorem replied (h : K.Relates c d) {r r' : Reduction V S} {given : V} {reply reply' : Reply α V}
    (hcall : K.Mirrors (.reduce r given reply.value reply.control)
      (.reduce r' given reply'.value reply'.control))
    (hstate : K.actors reply.state reply'.state) :
    K.Relates (Machine.replied c r given reply) (Machine.replied d r' given reply') := by
  have hcounted : K.Relates
      { c with
        actions := reply.state
        stats := { c.stats with reductions := c.stats.reductions + 1 } }
      { d with
        actions := reply'.state
        stats := { d.stats with reductions := d.stats.reductions + 1 } } :=
    { h with
      actions := hstate
      stats := by rw [h.stats] }
  exact (hcounted.notes reply.log reply'.log).call _ _ rfl rfl hcall

theorem goto (h : K.Relates c d) (n : Nat) (lhs : Nonterminal) (v : V) {s s' : S}
    (hs : K.places s s') :
    Agrees K.Relates K.Ends (m.goto c n lhs v s) (m.goto d n lhs v s') := by
  unfold Machine.goto
  refine (h.demand .stack (forall₂_discard h.frames n)).bind fun k l hkl => ?_
  have hbelow : K.Relates { c with stack := k } { d with stack := l } := { h with frames := hkl }
  refine (hbelow.demand .stack (forall₂_head hkl)).bind fun f g hfg => ?_
  rw [hfg.state]
  refine (hbelow.demand .index (Agrees.refl _)).bind ?_
  rintro t _ rfl
  refine Agrees.bind (hbelow.push ⟨rfl, rfl, hs⟩) fun b b' hb => .ok ?_
  exact (hb.emit _ _ rfl rfl).turned

theorem follow (h : K.Relates c d) (r : RuleId) (rule : Rule) {s s' : S} (hs : K.places s s')
    {reply reply' : Reply α V} (hcontrol : reply'.control = reply.control)
    (hvalue : reply'.value = reply.value) :
    Agrees K.Relates K.Ends (m.follow r rule s reply c) (m.follow r rule s' reply' d) := by
  unfold Machine.follow
  rw [hcontrol, hvalue]
  cases reply.control with
  | accept => exact .error ⟨rfl, h⟩
  | abort => exact .error ⟨rfl, h⟩
  | raise => exact h.recover []
  | proceed =>
    dsimp only
    split
    · exact .error ⟨rfl, h⟩
    · exact h.goto _ _ _ hs

theorem reduce (h : K.Relates c d) (r : RuleId) :
    Agrees K.Relates K.Ends (m.reduce c r) (m.reduce d r) := by
  rw [reduce_eq_follow, reduce_eq_follow]
  refine (h.demand .index (Agrees.refl _)).bind ?_
  rintro rule _ rfl
  have hreducing := h.emit (.reducing r rule) (.reducing r rule) rfl rfl
  refine (hreducing.demand .stack (forall₂_top h.frames _)).bind fun fs gs hframes => ?_
  have hsummoned := h.summoned r rule hframes
  obtain ⟨values, spans, spans', s, s', hc, hd, hspans, hs⟩ := h.reduction r rule hframes
  dsimp only
  rw [hc, hd, given_eq hframes]
  refine (hsummoned.demand .action (K.reduce _ hspans hs hsummoned.actions)).bind ?_
  rintro reply reply' ⟨hcontrol, hvalue, hstate⟩
  refine Relates.follow (hsummoned.replied ?_ hstate) r rule (h.spread hframes) hcontrol hvalue
  rw [hcontrol, hvalue]
  exact .reduce r rule values hspans hs _ _ _

theorem resynchronized (h : K.Relates c d) (s : StateId) :
    K.Relates (resynchronized c s) (resynchronized d s) := by
  have hdeciding : K.Relates { c with phase := .deciding } { d with phase := .deciding } :=
    { h with phase := rfl }
  exact (hdeciding.emit _ _ rfl rfl).turned

theorem skip (h : K.Relates c d) (force : Bool) :
    Agrees K.Relates K.Ends (m.skip c force) (m.skip d force) := by
  have hfetched := h.fetched
  unfold Machine.skip
  refine (h.demand .stack (forall₂_head h.frames)).bind fun f g hfg => ?_
  rw [hfg.state]
  refine (h.demand .index (Agrees.refl _)).bind ?_
  rintro s _ rfl
  rw [fetch_eq, fetch_eq, h.ahead_eq]
  dsimp only
  split
  · exact .ok (h.resynchronized f.state)
  · split
    · exact .ok (hfetched.resynchronized f.state)
    · split
      · exact .error ⟨rfl, hfetched.emit _ _ rfl rfl⟩
      · rename_i hend
        have hscanner := hfetched.scanner
        rw [lookahead_fetched] at hscanner
        have hdropped : K.Relates
            { m.fetched c with
              lookahead := none
              phase := .skipping false
              stats := { (m.fetched c).stats with
                discarded := (m.fetched c).stats.discarded + 1 } }
            { m.fetched d with
              lookahead := none
              phase := .skipping false
              stats := { (m.fetched d).stats with
                discarded := (m.fetched d).stats.discarded + 1 } } :=
          { hfetched with
            scanner := K.drop hscanner hend
            lookahead := rfl
            phase := rfl
            stats := by rw [hfetched.stats] }
        exact .ok (hdropped.emit _ _ rfl rfl)

theorem step (h : K.Relates c d) : Agrees K.Relates K.Ends (m.step c) (m.step d) := by
  unfold Machine.step
  rw [h.phase]
  split
  · exact h.skip _
  · refine (h.demand .stack (forall₂_head h.frames)).bind fun f g hfg => ?_
    rw [hfg.state]
    refine (h.demand .index (Agrees.refl _)).bind ?_
    rintro s _ rfl
    rw [nextAction_eq, nextAction_eq, h.ahead_eq]
    have hpoised : K.Relates (if s.hasLookahead then m.fetched c else c)
        (if s.hasLookahead then m.fetched d else d) := by
      split
      · exact h.fetched
      · exact h
    cases Action.decode (s.lookup (m.ahead c)) with
    | shift target => exact hpoised.shift target
    | reduce r => exact hpoised.reduce r
    | error => exact hpoised.recover _

/-- Related parses stay related until they end, and then they end alike. -/
theorem run (h : K.Relates c d) (n : Nat) : K.Ends (m.run n c) (m.run n d) := by
  induction n generalizing c d with
  | zero => exact ⟨rfl, h⟩
  | succ n ih =>
    have hstep := h.step
    cases hc : m.step c with
    | error e =>
      rw [hc] at hstep
      obtain ⟨e', hd, hends⟩ := hstep.exists_error
      rw [run_of_step_error hc, run_of_step_error hd]
      exact hends
    | ok c' =>
      rw [hc] at hstep
      obtain ⟨d', hd, hrelates⟩ := hstep.exists_ok
      rw [run_of_step_ok hc, run_of_step_ok hd]
      exact ih hrelates

end Relates

/-- Parses that begin in related states on empty stacks come to the same after each step. -/
theorem progress_ends (hscanner : K.scanners none c.scanner d.scanner)
    (hactions : K.actors c.actions d.actions) (hc : c.stack.items = []) (hd : d.stack.items = [])
    (n : Nat) : K.Ends (m.progress n c) (m.progress n d) := by
  have hspan := K.span hscanner
  have hbegun : K.Relates (m.begun c) (m.begun d) :=
    { scanner := hscanner
      actions := hactions
      lastSpan := hspan
      frames := by
        change List.Forall₂ K.Matches c.stack.items d.stack.items
        rw [hc, hd]
        exact .nil
      lookahead := rfl
      mode := rfl
      phase := rfl
      stats := rfl
      callbacks := .nil }
  have hstart : Agrees K.Relates K.Ends (m.start c) (m.start d) :=
    hbegun.push (f := ⟨.start, m.actions.blank, m.scanner.span c.scanner⟩)
      (g := ⟨.start, m.actions.blank, m.scanner.span d.scanner⟩) ⟨rfl, rfl, hspan⟩
  unfold progress
  cases hc' : m.start c with
  | error e =>
    rw [hc'] at hstart
    obtain ⟨e', hd', hends⟩ := hstart.exists_error
    rw [hd']
    exact hends
  | ok c' =>
    rw [hc'] at hstart
    obtain ⟨d', hd', hrelates⟩ := hstart.exists_ok
    rw [hd']
    exact hrelates.run n

end Congruence

end Machine

end ShiftReduce
