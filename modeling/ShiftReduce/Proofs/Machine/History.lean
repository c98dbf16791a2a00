import ShiftReduce.Proofs.Machine.Turn

namespace ShiftReduce

inductive Callback (V S : Type)
  | next (t : Terminal)
  | value (v : V)
  | report (message : String) (span : S)
  | reduce (reduction : Reduction V S) (given made : V) (control : Control)

namespace Event

variable {V S : Type}

def read? : Event V S → Option Terminal
  | fetched t => some t
  | _ => none

def shift? : Event V S → Option (Terminal × Frame V S)
  | shifted t f => some (t, f)
  | _ => none

def discard? : Event V S → Option Terminal
  | discarded t => some t
  | _ => none

def error? : Event V S → Option (Terminal × S)
  | stuck t span => some (t, span)
  | _ => none

def callback? : Event V S → Option (Callback V S)
  | fetched t => some (.next t)
  | taken v => some (.value v)
  | reported message span => some (.report message span)
  | reduced reduction given made control => some (.reduce reduction given made control)
  | _ => none

/-- An event that involves neither the scanner nor a token nor the stack nor a counter. -/
def quiet : Event V S → Bool
  | fetched _ | shifting .. | taken _ | shifted .. | reduced .. | folded .. | stuck ..
  | reported .. | popped _ | caught _ | discarded _ => false
  | _ => true

end Event

section Told

variable {V S β : Type}

/-- What the events of a trace tell of one kind, the oldest first. -/
def told (tell : Event V S → Option β) (trace : List (Event V S)) : List β :=
  trace.reverse.filterMap tell

@[simp] theorem told_nil (tell : Event V S → Option β) : told tell [] = [] := rfl

@[simp] theorem told_cons (tell : Event V S → Option β) (e : Event V S)
    (past : List (Event V S)) : told tell (e :: past) = told tell past ++ (tell e).toList := by
  cases h : tell e <;> simp [told, h]

theorem told_append (tell : Event V S → Option β) (later past : List (Event V S)) :
    told tell (later ++ past) = told tell past ++ told tell later := by
  simp [told]

theorem told_isPrefix (tell : Event V S → Option β) {past trace : List (Event V S)}
    (h : past <:+ trace) : told tell past <+: told tell trace := by
  obtain ⟨later, rfl⟩ := h
  rw [told_append]
  exact List.prefix_append _ _

end Told

section Due

variable {V S : Type}

def shiftsSinceError : List (Event V S) → Option Nat
  | [] => none
  | .stuck .. :: _ => some 0
  | .shifted .. :: past => (shiftsSinceError past).map (· + 1)
  | _ :: past => shiftsSinceError past

/-- An error that is met now is to be reported: it is the first one, or five tokens at least were
shifted since the last one. -/
def Due (past : List (Event V S)) : Prop := ∀ n ∈ shiftsSinceError past, 5 ≤ n

def modeAfter (past : List (Event V S)) : Mode :=
  match shiftsSinceError past with
  | none => .normal
  | some n => if Machine.recoveryShifts ≤ n then .normal else .recovering n

theorem modeAfter_eq_normal_iff {past : List (Event V S)} :
    modeAfter past = .normal ↔ Due past := by
  unfold modeAfter Due Machine.recoveryShifts
  cases shiftsSinceError past with
  | none => simp
  | some n => by_cases h : 5 ≤ n <;> simp [h]

theorem modeAfter_shifted (t : Terminal) (f : Frame V S) (past : List (Event V S)) :
    modeAfter (.shifted t f :: past) = (modeAfter past).counted := by
  simp only [modeAfter, shiftsSinceError]
  cases shiftsSinceError past with
  | none => rfl
  | some n =>
    by_cases hn : Machine.recoveryShifts ≤ n
    · simp [hn, Nat.le_succ_of_le hn, Mode.counted]
    · simp [hn, Mode.counted]

theorem shiftsSinceError_eq_none_iff {trace : List (Event V S)} :
    shiftsSinceError trace = none ↔ told Event.error? trace = [] := by
  induction trace with
  | nil => simp [shiftsSinceError]
  | cons e past ih => cases e <;> simp [shiftsSinceError, Event.error?, ih]

theorem shiftsSinceError_quiet {e : Event V S} (h : e.quiet = true) (past : List (Event V S)) :
    shiftsSinceError (e :: past) = shiftsSinceError past := by
  cases e <;> first | rfl | cases h

end Due

/-- What the events of a parse come to: the state of the scanner, the location of the token before
the one read last, the stack, the buffered token and the counters. -/
structure Account (σ V S : Type) where
  scanner : σ
  lastSpan : S
  frames : List (Frame V S)
  lookahead : Option Terminal := none
  stats : Stats := {}

namespace Machine

variable {σ α V S φ : Type}

theorem callbacks_notes (c : Config σ α V S) (lines : List LogLine) :
    told Event.callback? (c.notes lines).trace = told Event.callback? c.trace := by
  induction lines generalizing c with
  | nil => rfl
  | cons l rest ih =>
    rw [Config.notes_cons, ih]
    simp [Event.callback?]

/-- How a parse ends is told last. -/
theorem trace_finish (h : Halt σ α V S φ) : (finish h).config.trace = h.config.trace ∨
    ∃ e, e.quiet = true ∧ (finish h).config.trace = e :: h.config.trace := by
  unfold finish
  split
  · exact Or.inr ⟨_, rfl, rfl⟩
  · exact Or.inr ⟨_, rfl, rfl⟩
  · exact Or.inl rfl
  · exact Or.inl rfl

/-- It involves neither a call nor a token. -/
theorem told_finish {β : Type} {tell : Event V S → Option β}
    (quiet : ∀ e, e.quiet = true → tell e = none) (h : Halt σ α V S φ) :
    told tell (finish h).config.trace = told tell h.config.trace := by
  rcases trace_finish h with htrace | ⟨e, he, htrace⟩
  · rw [htrace]
  · simp [htrace, quiet e he]

theorem callbacks_finish (h : Halt σ α V S φ) :
    told Event.callback? (finish h).config.trace = told Event.callback? h.config.trace :=
  told_finish (fun e he => by cases e <;> simp_all [Event.quiet, Event.callback?]) h

section Account

variable (m : Machine σ α V S φ)

/-- An account with one more event. An end terminal that is shifted stays buffered. -/
def enter (a : Account σ V S) : Event V S → Account σ V S
  | .fetched t => { a with
      scanner := (m.scanner.next a.scanner).2.1
      lastSpan := m.scanner.span a.scanner
      lookahead := some t
      stats := { a.stats with tokens := a.stats.tokens + 1 } }
  | .taken _ => { a with scanner := (m.scanner.value a.scanner).2 }
  | .shifted t f => { a with
      frames := f :: a.frames
      lookahead := if t = m.tables.endTerminal then a.lookahead else none
      stats := { a.stats with shifts := a.stats.shifts + 1 } }
  | .reduced .. => { a with stats := { a.stats with reductions := a.stats.reductions + 1 } }
  | .folded n f => { a with frames := f :: a.frames.drop n }
  | .stuck .. => { a with stats := { a.stats with errors := a.stats.errors + 1 } }
  | .reported message span => { a with
      scanner := (m.scanner.report message span a.scanner).1 }
  | .popped _ => { a with frames := a.frames.drop 1 }
  | .caught f => { a with frames := f :: a.frames }
  | .discarded _ => { a with
      lookahead := none
      stats := { a.stats with discarded := a.stats.discarded + 1 } }
  | _ => a

def bottom (c : Config σ α V S) : Frame V S :=
  ⟨.start, m.actions.blank, m.scanner.span c.scanner⟩

/-- The account of a parse that was started in `c` and has the given trace. -/
def account (m : Machine σ α V S φ) (c : Config σ α V S) : List (Event V S) → Account σ V S
  | [] => {
      scanner := c.scanner
      lastSpan := m.scanner.span c.scanner
      frames := m.bottom c :: c.stack.items }
  | e :: past => m.enter (m.account c past) e

variable {m} {c : Config σ α V S}

theorem account_cons (e : Event V S) (past : List (Event V S)) :
    m.account c (e :: past) = m.enter (m.account c past) e := rfl

theorem account_quiet {e : Event V S} (h : e.quiet = true) (past : List (Event V S)) :
    m.account c (e :: past) = m.account c past := by
  cases e <;> first | rfl | cases h

/-- Each counter is the number of the events that it counts. -/
theorem stats_account (trace : List (Event V S)) :
    (m.account c trace).stats.tokens = (told Event.read? trace).length ∧
      (m.account c trace).stats.shifts = (told Event.shift? trace).length ∧
      (m.account c trace).stats.errors = (told Event.error? trace).length ∧
      (m.account c trace).stats.discarded = (told Event.discard? trace).length := by
  induction trace with
  | nil => exact ⟨rfl, rfl, rfl, rfl⟩
  | cons e past ih =>
    rw [account_cons]
    cases e <;>
      simp [enter, ih, Event.read?, Event.shift?, Event.error?, Event.discard?]

end Account

section Chronicle

variable [Merge S] (m : Machine σ α V S φ) (c : Config σ α V S)

def gapIn (a : Account σ V S) : S := Merge.merge (m.scanner.span a.scanner) a.lastSpan

def offer (a : Account σ V S) (r : RuleId) (rule : Rule) (frames : List (Frame V S)) :
    Reduction V S :=
  ⟨r, rule, frames.map Frame.value, frames.map Frame.span, spread (m.gapIn a) frames⟩

/-- A history of a parse that was started in `c`: the scanner answers as it does when it is called
as the events tell, each token is read, shifted, discarded and complained about in its turn, and
each reduction takes what is on top of the stack. -/
inductive Chronicle : List (Event V S) → Prop
  | empty : Chronicle []
  | fetched {past : List (Event V S)} (history : Chronicle past)
      (free : (m.account c past).lookahead = none) :
      Chronicle (.fetched (m.scanner.next (m.account c past).scanner).1 :: past)
  | attempted {past : List (Event V S)} {t : Terminal} (target : StateId)
      (history : Chronicle past) (ready : (m.account c past).lookahead = some t) :
      Chronicle (.taken (m.scanner.value (m.account c past).scanner).1 ::
        .shifting t target :: past)
  | shifted {past : List (Event V S)} {t : Terminal} (target : StateId)
      (history : Chronicle past) (ready : (m.account c past).lookahead = some t)
      (room : (m.account c past).frames.length < m.maxDepth) :
      Chronicle (.shifted t ⟨target, (m.scanner.value (m.account c past).scanner).1,
          m.scanner.span (m.scanner.value (m.account c past).scanner).2⟩ ::
        .taken (m.scanner.value (m.account c past).scanner).1 :: .shifting t target :: past)
  | reduced {past : List (Event V S)} {rule : Rule} {frames below : List (Frame V S)}
      (r : RuleId) (made : V) (control : Control) (history : Chronicle past)
      (items : (m.account c past).frames = frames.reverse ++ below)
      (length : frames.length = rule.length)
      (known : frames = [] → (m.account c past).lookahead ≠ none) :
      Chronicle (.reduced (m.offer (m.account c past) r rule frames) (m.given frames) made
        control :: past)
  | folded {past : List (Event V S)} {r : Reduction V S} {given made : V} (state : StateId)
      (history : Chronicle (.reduced r given made .proceed :: past))
      (proper : r.rule.length < (m.account c past).frames.length)
      (room : (m.account c past).frames.length - r.rule.length < m.maxDepth) :
      Chronicle (.folded r.rule.length ⟨state, made, r.span⟩ ::
        .reduced r given made .proceed :: past)
  | muted {past : List (Event V S)} {t : Terminal} (history : Chronicle past)
      (ready : (m.account c past).lookahead = some t) (known : ¬Due past) :
      Chronicle (.stuck t (m.scanner.span (m.account c past).scanner) :: past)
  | complained {past : List (Event V S)} {t : Terminal} (message : String)
      (history : Chronicle past) (ready : (m.account c past).lookahead = some t)
      (due : Due past) :
      Chronicle (.reported message (m.scanner.span (m.account c past).scanner) ::
        .stuck t (m.scanner.span (m.account c past).scanner) :: past)
  | popped {past : List (Event V S)} (state : StateId) (history : Chronicle past)
      (hurt : shiftsSinceError past ≠ none) : Chronicle (.popped state :: past)
  | caught {past : List (Event V S)} (f : Frame V S) (history : Chronicle past)
      (hurt : shiftsSinceError past ≠ none)
      (room : (m.account c past).frames.length < m.maxDepth) : Chronicle (.caught f :: past)
  | discarded {past : List (Event V S)} {t : Terminal} (history : Chronicle past)
      (hurt : shiftsSinceError past ≠ none) (ready : (m.account c past).lookahead = some t)
      (more : t ≠ m.tables.endTerminal) : Chronicle (.discarded t :: past)
  | quiet {past : List (Event V S)} {e : Event V S} (history : Chronicle past)
      (quiet : e.quiet = true) : Chronicle (e :: past)

def Follows : Event V S → List (Event V S) → Prop
  | .fetched t, past => (m.account c past).lookahead = none ∧
      t = (m.scanner.next (m.account c past).scanner).1
  | .shifting t _, past => (m.account c past).lookahead = some t
  | .taken v, past => ∃ t target past', past = .shifting t target :: past' ∧
      v = (m.scanner.value (m.account c past').scanner).1
  | .shifted t f, past => ∃ past', past = .taken f.value :: .shifting t f.state :: past' ∧
      (m.account c past').lookahead = some t ∧
      f.value = (m.scanner.value (m.account c past').scanner).1 ∧
      f.span = m.scanner.span (m.account c past).scanner ∧
      (m.account c past').frames.length < m.maxDepth
  | .reduced r given _ _, past => ∃ frames below,
      (m.account c past).frames = frames.reverse ++ below ∧
      frames.length = r.rule.length ∧ (frames = [] → (m.account c past).lookahead ≠ none) ∧
      r = m.offer (m.account c past) r.ruleId r.rule frames ∧ given = m.given frames
  | .folded n f, past => ∃ r given past', past = .reduced r given f.value .proceed :: past' ∧
      n = r.rule.length ∧ f.span = r.span ∧ n < (m.account c past').frames.length ∧
      (m.account c past').frames.length - n < m.maxDepth
  | .stuck t span, past => (m.account c past).lookahead = some t ∧
      span = m.scanner.span (m.account c past).scanner
  | .reported _ span, past => ∃ t past', past = .stuck t span :: past' ∧ Due past'
  | .popped _, past => shiftsSinceError past ≠ none
  | .caught _, past => shiftsSinceError past ≠ none ∧
      (m.account c past).frames.length < m.maxDepth
  | .discarded t, past => shiftsSinceError past ≠ none ∧
      (m.account c past).lookahead = some t ∧ t ≠ m.tables.endTerminal
  | _, _ => True

/-- Each event of a trace comes of what was before it. -/
def Lawful (trace : List (Event V S)) : Prop :=
  ∀ ⦃e past⦄, e :: past <:+ trace → m.Follows c e past

variable {m c} {trace past : List (Event V S)} {e : Event V S}

theorem follows_of_quiet (h : e.quiet = true) (past : List (Event V S)) :
    m.Follows c e past := by
  cases e <;> trivial

theorem Lawful.cons (h : m.Lawful c past) (he : m.Follows c e past) : m.Lawful c (e :: past) := by
  intro e' past' hs
  rcases List.suffix_cons_iff.1 hs with hs | hs
  · obtain ⟨rfl, rfl⟩ := List.cons.inj hs
    exact he
  · exact h hs

theorem Lawful.of_suffix (h : m.Lawful c trace) (hs : past <:+ trace) : m.Lawful c past :=
  fun _ _ he => h (he.trans hs)

theorem Lawful.tail (h : m.Lawful c (e :: past)) : m.Lawful c past :=
  h.of_suffix (List.suffix_cons e past)

theorem Lawful.head (h : m.Lawful c (e :: past)) : m.Follows c e past :=
  h (List.suffix_refl _)

theorem Chronicle.lawful (h : m.Chronicle c trace) : m.Lawful c trace := by
  induction h with
  | empty => exact fun e past he => by simp at he
  | fetched _ free ih => exact ih.cons ⟨free, rfl⟩
  | attempted target _ ready ih =>
    have hshifting := ih.cons (e := .shifting _ target) ready
    exact hshifting.cons ⟨_, target, _, rfl, rfl⟩
  | shifted target _ ready room ih =>
    have hshifting := ih.cons (e := .shifting _ target) ready
    have htaken := hshifting.cons (e := .taken _) ⟨_, target, _, rfl, rfl⟩
    exact htaken.cons ⟨_, rfl, ready, rfl, rfl, room⟩
  | reduced r made control _ items length known ih =>
    exact ih.cons ⟨_, _, items, length, known, rfl, rfl⟩
  | folded state _ proper room ih => exact ih.cons ⟨_, _, _, rfl, rfl, rfl, proper, room⟩
  | muted _ ready _ ih => exact ih.cons ⟨ready, rfl⟩
  | complained message _ ready due ih =>
    have hstuck := ih.cons (e := .stuck _ _) ⟨ready, rfl⟩
    exact hstuck.cons ⟨_, _, rfl, due⟩
  | popped state _ hurt ih => exact ih.cons hurt
  | caught f _ hurt room ih => exact ih.cons ⟨hurt, room⟩
  | discarded _ hurt ready more ih => exact ih.cons ⟨hurt, ready, more⟩
  | quiet _ quiet ih => exact ih.cons (follows_of_quiet quiet _)

end Chronicle

section Settled

variable {trace past : List (Event V S)} {e e' : Event V S}

def Asks : Event V S → List (Event V S) → Prop
  | .shifting .., _ => True
  | .stuck .., past => Due past
  | _, _ => False

def Answers : Event V S → Event V S → Prop
  | .shifting .., .taken _ => True
  | .stuck _ span, .reported _ span' => span' = span
  | _, _ => False

/-- Each event of a trace that calls for another one is followed by it. -/
def Settled (trace : List (Event V S)) : Prop :=
  ∀ ⦃e past⦄, e :: past <:+ trace → Asks e past →
    ∃ e', Answers e e' ∧ e' :: e :: past <:+ trace

theorem not_asks_of_quiet (h : e.quiet = true) (past : List (Event V S)) : ¬Asks e past := by
  cases e <;> first | exact id | cases h

theorem Settled.cons (h : Settled past) (he : ¬Asks e past) : Settled (e :: past) := by
  intro f earlier hs hf
  rcases List.suffix_cons_iff.1 hs with hs | hs
  · obtain ⟨rfl, rfl⟩ := List.cons.inj hs
    exact absurd hf he
  · obtain ⟨f', hf', hs'⟩ := h hs hf
    exact ⟨f', hf', hs'.trans (List.suffix_cons e past)⟩

/-- An event comes together with the one that it calls for. -/
theorem Settled.pair (h : Settled past) (hanswers : Answers e e')
    (he' : ¬Asks e' (e :: past)) : Settled (e' :: e :: past) := by
  intro f earlier hs hf
  rcases List.suffix_cons_iff.1 hs with hs | hs
  · obtain ⟨rfl, rfl⟩ := List.cons.inj hs
    exact absurd hf he'
  · rcases List.suffix_cons_iff.1 hs with hs | hs
    · obtain ⟨rfl, rfl⟩ := List.cons.inj hs
      exact ⟨e', hanswers, List.suffix_refl _⟩
    · obtain ⟨f', hf', hs'⟩ := h hs hf
      exact ⟨f', hf', hs'.trans ((List.suffix_cons e past).trans (List.suffix_cons e' _))⟩

theorem Chronicle.settled [Merge S] {m : Machine σ α V S φ} {c : Config σ α V S}
    (h : m.Chronicle c trace) : Settled trace := by
  induction h with
  | empty => exact fun e past he => by simp at he
  | attempted _ _ _ ih => exact ih.pair (by trivial) id
  | shifted _ _ _ _ ih => exact .cons (ih.pair (by trivial) id) id
  | muted _ _ known ih => exact ih.cons known
  | complained _ _ _ _ ih => exact ih.pair rfl id
  | fetched _ _ ih => exact ih.cons id
  | reduced _ _ _ _ _ _ _ ih => exact ih.cons id
  | folded _ _ _ _ ih => exact ih.cons id
  | popped _ _ _ ih => exact ih.cons id
  | caught _ _ _ _ ih => exact ih.cons id
  | discarded _ _ _ _ ih => exact ih.cons id
  | quiet _ quiet ih => exact ih.cons (not_asks_of_quiet quiet _)

end Settled

end Machine

end ShiftReduce
