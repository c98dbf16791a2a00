import ShiftReduce.Proofs.Machine.Exits
import ShiftReduce.Proofs.Machine.History

namespace ShiftReduce

/-- An event that tells of an error, of its report or of a shifted token. -/
def Event.incident? {V S : Type} : Event V S → Option (Event V S)
  | .stuck t span => some (.stuck t span)
  | .reported message span => some (.reported message span)
  | .shifted t f => some (.shifted t f)
  | _ => none

/-- The incidents tell all that comes of nothing but incidents. -/
theorem told_eq_filterMap {V S β : Type} {tell : Event V S → Option β}
    (h : ∀ e, e.incident? = none → tell e = none) (trace : List (Event V S)) :
    told tell trace = (told Event.incident? trace).filterMap tell := by
  induction trace with
  | nil => rfl
  | cons e past ih =>
    rw [told_cons, told_cons, List.filterMap_append, ih]
    cases e with
    | stuck t span => cases ht : tell (.stuck t span) <;> simp [Event.incident?, ht]
    | reported message span =>
      cases ht : tell (.reported message span) <;> simp [Event.incident?, ht]
    | shifted t f => cases ht : tell (.shifted t f) <;> simp [Event.incident?, ht]
    | _ => rw [h _ rfl]; rfl

theorem Event.report?_eq_none {V S : Type} {e : Event V S} (h : e.incident? = none) :
    e.report? = none := by
  cases e <;> simp_all [incident?, report?]

namespace Machine

variable {σ α V S φ : Type} {m : Machine σ α V S φ} {c d : Config σ α V S}
  {l : List (Event V S)}

def Tells (l : List (Event V S)) (d : Config σ α V S) : Prop := told Event.incident? d.trace = l

theorem Tells.told_eq {β : Type} {tell : Event V S → Option β}
    (htell : ∀ {e}, e.incident? = none → tell e = none) (h : Tells l d) :
    told tell d.trace = l.filterMap tell := by
  rw [told_eq_filterMap (fun _ => htell), h]

/-- What is told beyond that of `c`. -/
theorem Tells.told_eq_append {β : Type} {tell : Event V S → Option β}
    (htell : ∀ {e}, e.incident? = none → tell e = none)
    (h : Tells (told Event.incident? c.trace ++ l) d) :
    told tell d.trace = told tell c.trace ++ l.filterMap tell := by
  rw [h.told_eq htell, List.filterMap_append, told_eq_filterMap (fun _ => htell)]

theorem Tells.reportsIn_eq (h : Tells (told Event.incident? c.trace ++ l) d) :
    reportsIn d.trace = reportsIn c.trace ++ l.filterMap Event.report? :=
  h.told_eq_append Event.report?_eq_none

theorem Tells.emit (h : Tells l d) {e : Event V S} (he : e.incident? = none) :
    Tells l (d.emit e) := by
  rw [Tells, Config.trace_emit, told_cons, he, h]
  simp

theorem Tells.of_trace (h : Tells l c) (hd : d.trace = c.trace) : Tells l d := by
  rw [Tells, hd]
  exact h

theorem Tells.notes (h : Tells l d) (lines : List LogLine) : Tells l (d.notes lines) := by
  induction lines generalizing d with
  | nil => exact h
  | cons line rest ih => exact ih (h.emit (e := .note line) rfl)

theorem Tells.fetched (h : Tells l d) : Tells l (m.fetched d) := by
  cases hl : d.lookahead with
  | some t => rwa [fetched_of_some hl]
  | none =>
    have hnotes := h.notes (m.scanner.next d.scanner).2.2
    have hread := hnotes.emit (e := .fetched (m.scanner.next d.scanner).1) rfl
    simpa [Machine.fetched, fetch, hl, Tells, Config.trace_notes] using hread

section Parts

theorem unwind_tells (h : Tells l d) (frames : List (Frame V S)) :
    Keeps (fun x => Tells l x.2) (Tells l) (m.unwind d frames) := by
  induction frames generalizing d with
  | nil => exact h.emit rfl
  | cons f rest ih =>
    unfold unwind
    refine .bind (.demand .index _ h) fun s _ => ?_
    cases s.shiftTarget? m.tables.errorTerminal with
    | some target => exact h
    | none => exact ih ((h.of_trace rfl).emit rfl)

theorem push_tells (h : Tells l d) (f : Frame V S) :
    Keeps (Tells l) (Tells l) (m.push d f) :=
  (m.push_keeps d f fun _ => h).imp (fun _ hd => hd.1 ▸ h) fun _ => id

theorem start_tells (m : Machine σ α V S φ) (c : Config σ α V S) :
    Keeps (Tells []) (Tells []) (m.start c) := by
  rw [start_eq]
  exact push_tells rfl _

theorem goto_tells (h : Tells l d) (n : Nat) (lhs : Nonterminal) (v : V) (span : S) :
    Keeps (Tells l) (Tells l) (m.goto d n lhs v span) := by
  unfold goto
  refine .bind (.demand .stack _ h) fun k _ => ?_
  have hdropped : Tells l { d with stack := k } := h.of_trace rfl
  refine .bind (.demand .stack _ hdropped) fun f _ => .bind (.demand .index _ hdropped) fun s _ => ?_
  exact .bind (push_tells hdropped _) fun e he => (he.emit rfl).emit rfl

theorem skip_tells (h : Tells l d) (force : Bool) :
    Keeps (Tells l) (Tells l) (m.skip d force) := by
  have resumes {e : Config σ α V S} (he : Tells l e) (s : StateId) :
      Tells l (resynchronized e s) := ((he.of_trace rfl).emit (e := .resynchronized s) rfl).emit rfl
  unfold skip
  refine .bind (.demand .stack _ h) fun f _ => .bind (.demand .index _ h) fun s _ => ?_
  rw [fetch_eq]
  dsimp only
  split
  · exact resumes h _
  · split
    · exact resumes h.fetched _
    · split
      · exact h.fetched.emit rfl
      · exact Tells.emit (h.fetched.of_trace rfl) rfl

theorem countShift_tells (h : Tells l d) : Tells l (countShift d) := by
  unfold countShift
  split
  · exact h
  · split
    · exact (h.of_trace (d := { d with mode := .normal }) rfl).emit rfl
    · exact h.of_trace rfl

def arriving (m : Machine σ α V S φ) (c : Config σ α V S) (target : StateId) : Frame V S :=
  ⟨target, (m.scanner.value (m.fetched c).scanner).1,
    m.scanner.span (m.scanner.value (m.fetched c).scanner).2⟩

/-- A token that finds room is told of. -/
theorem shift_tells (h : Tells l d) (target : StateId) :
    Keeps (Tells (l ++ [.shifted (m.ahead d) (m.arriving d target)])) (Tells l)
      (m.shift d target) := by
  simp only [shift, fetch_eq]
  have htaken : Tells l ({ (m.fetched d).emit (.shifting (m.ahead d) target) with
      scanner := (m.scanner.value (m.fetched d).scanner).2 }.emit
      (.taken (m.scanner.value (m.fetched d).scanner).1)) :=
    ((h.fetched.emit rfl).of_trace rfl).emit rfl
  refine .bind (push_tells htaken _) fun e he => Tells.emit (countShift_tells ?_) rfl
  have hincidents : told Event.incident? e.trace = l := he
  simp [Tells, Event.incident?, arriving, hincidents]

variable (m c) in
/-- What is told about an error that is met at the next token, when the actions are in the state
`a`. -/
def outcry (a : α) (expected : List Terminal) : List (Event V S) :=
  .stuck (m.ahead c) (m.scanner.span (m.fetched c).scanner) ::
    if c.mode = .normal then
      [.reported (m.describe a (m.ahead c) expected) (m.scanner.span (m.fetched c).scanner)]
    else []

theorem complained_tells (h : Tells l d) (expected : List Terminal) :
    Tells (l ++ m.outcry d d.actions expected) (m.complained d expected) := by
  have hfetched : told Event.incident? (m.fetched d).trace = l := h.fetched
  unfold complained report outcry
  simp only [Config.mode_emit, mode_fetched, Config.actions_emit, actions_fetched]
  split
  · refine Tells.notes ?_ _
    simp [Tells, Event.incident?, hfetched]
  · simp [Tells, Event.incident?, hfetched]

/-- Once an error has been complained about, nothing more is said about it. -/
theorem recover_tells (h : Tells l d) (expected : List Terminal) :
    Keeps (Tells (l ++ m.outcry d d.actions expected)) (Tells (l ++ m.outcry d d.actions expected))
      (m.recover d expected) := by
  rw [recover_eq]
  refine .bind (unwind_tells (complained_tells h expected) _) fun x hx => ?_
  exact .bind (push_tells (hx.emit rfl) _) fun e he => he.emit (e := .caught _) rfl

theorem follow_tells {reply : Reply α V} (h : Tells l d)
    (hraise : reply.control ≠ .raise) (r : RuleId) (rule : Rule) (span : S) :
    Keeps (Tells l) (Tells l) (m.follow r rule span reply d) := by
  unfold follow
  cases hc : reply.control with
  | accept => exact h
  | abort => exact h
  | raise => exact absurd hc hraise
  | proceed =>
    dsimp only
    split
    · exact h
    · exact goto_tells h _ _ _ _

end Parts

section Step

variable [Merge S] {f : Frame V S} {s : State} {r : RuleId} {rule : Rule}
  {frames below : List (Frame V S)} {reply : Reply α V}

variable (m c) in
/-- A turn in which an error is met: the state has no action for the next token, or a semantic
action raises one. -/
inductive Stuck : Prop
  | unexpected {f : Frame V S} {s : State} (decides : m.Decides c f s .error) : Stuck
  | raised {f : Frame V S} {s : State} {r : RuleId} {rule : Rule}
      {frames below : List (Frame V S)} {reply : Reply α V} (decides : m.Decides c f s (.reduce r))
      (reduces : m.Reduces c r rule frames below (.ok reply)) (raises : reply.control = .raise) :
      Stuck

variable (m c) in
/-- How an error is met: the state that the actions are in then, and the terminals that would have
done. Of these nothing is known if an action raises the error. -/
inductive Meets : α → List Terminal → Prop
  | unexpected {f : Frame V S} {s : State} (decides : m.Decides c f s .error) :
      Meets c.actions (s.expected m.tables.errorTerminal)
  | raised {f : Frame V S} {s : State} {r : RuleId} {rule : Rule}
      {frames below : List (Frame V S)} {reply : Reply α V} (decides : m.Decides c f s (.reduce r))
      (reduces : m.Reduces c r rule frames below (.ok reply)) (raises : reply.control = .raise) :
      Meets reply.state []

variable (m c) in
/-- The incidents that one step adds: those of an error that is met, or a token that is shifted and
finds room on the stack, or none. -/
inductive Incurs : List (Event V S) → Prop
  | met {a : α} {expected : List Terminal} (meets : m.Meets c a expected) :
      Incurs (m.outcry c a expected)
  | shifted {f : Frame V S} {s : State} {target : StateId} (calm : ¬m.Stuck c)
      (decides : m.Decides c f s (.shift target)) (room : c.stack.items.length < m.maxDepth) :
      Incurs [.shifted (m.ahead c) (m.arriving c target)]
  | nothing (calm : ¬m.Stuck c) (still : ∀ f s target, m.Decides c f s (.shift target) →
      m.maxDepth ≤ c.stack.items.length) : Incurs []

theorem called_tells (h : Tells l c) (s : State) (r : RuleId) (rule : Rule)
    (frames : List (Frame V S)) : Tells l (m.called c s r rule frames) := by
  have hpoised : Tells l (if s.hasLookahead then m.fetched c else c) := by
    split
    · exact h.fetched
    · exact h
  rw [called_eq]
  split
  · exact (hpoised.emit rfl).fetched
  · exact hpoised.emit rfl

theorem answered_tells (h : Tells l c) (s : State) (r : RuleId) (rule : Rule)
    (frames : List (Frame V S)) (reply : Reply α V) :
    Tells l (m.answered c s r rule frames reply) := by
  have hcalled : Tells l (m.called c s r rule frames) := called_tells h s r rule frames
  refine Tells.emit (Tells.notes ?_ _) rfl
  exact hcalled.of_trace rfl

/-- A step that meets an error tells of it, and of its report if there is one. -/
theorem Stuck.tells (h : m.Stuck c) : ∃ a expected, m.Meets c a expected ∧
    Keeps (Tells (told Event.incident? c.trace ++ m.outcry c a expected))
      (Tells (told Event.incident? c.trace ++ m.outcry c a expected)) (m.step c) := by
  cases h with
  | unexpected decides =>
    refine ⟨_, _, .unexpected decides, ?_⟩
    rw [step_of_decides decides]
    exact recover_tells rfl _
  | @raised f s r rule frames below reply decides reduces raises =>
    refine ⟨_, _, .raised decides reduces raises, ?_⟩
    have acted : m.Acted c s r frames reply (m.answered c s r rule frames reply) :=
      acted_called m c s r rule frames reply
    have houtcry : m.outcry (m.answered c s r rule frames reply) reply.state [] =
        m.outcry c reply.state [] := by
      rw [outcry, outcry, acted.ahead_eq, acted.scanner_fetched, acted.mode]
    have hanswered : Tells (told Event.incident? c.trace) (m.answered c s r rule frames reply) :=
      answered_tells rfl s r rule frames reply
    have hsaid := recover_tells (m := m) hanswered []
    rw [acted.actions, houtcry] at hsaid
    rw [step_of_answer_eq decides reduces, follow, raises]
    exact hsaid

/-- A step that shifts a token tells of it. -/
theorem Decides.tells {target : StateId} (h : m.Decides c f s (.shift target))
    (hroom : c.stack.items.length < m.maxDepth) :
    Keeps (Tells (told Event.incident? c.trace ++ [.shifted (m.ahead c) (m.arriving c target)]))
      (Tells (told Event.incident? c.trace ++ [.shifted (m.ahead c) (m.arriving c target)]))
      (m.step c) := by
  obtain ⟨d, hd, -⟩ := shift_of_lt m c target hroom
  have hkeeps := shift_tells (m := m) (d := c) rfl target
  rw [step_of_decides h, perform, hd]
  rwa [hd] at hkeeps

/-- A reduction whose action raises no error tells nothing. -/
theorem reduce_tells (decides : m.Decides c f s (.reduce r)) (hstuck : ¬m.Stuck c) :
    Keeps (Tells (told Event.incident? c.trace)) (Tells (told Event.incident? c.trace))
      (m.reduce (if s.hasLookahead then m.fetched c else c) r) := by
  have hpoised : Tells (told Event.incident? c.trace)
      (if s.hasLookahead then m.fetched c else c) := by
    split
    · exact Tells.fetched rfl
    · rfl
  cases hr : m.tables.rule r with
  | error e =>
    rw [reduce, hr]
    exact hpoised
  | ok rule =>
    by_cases hlen : rule.length ≤ c.stack.items.length
    · obtain ⟨frames, below, reply, reduces, heq⟩ := exists_reduces (s := s) hr hlen
      rw [heq]
      cases reply with
      | error e => exact called_tells rfl s r rule frames
      | ok reply =>
        exact follow_tells (answered_tells rfl s r rule frames reply)
          (fun hraise => hstuck (.raised decides reduces hraise)) r rule _
    · rw [reduce_of_lt hr (Nat.not_le.1 hlen)]
      exact hpoised.emit rfl

/-- A step that meets no error and has no token to shift, or no room for it, tells of neither. -/
theorem calm_tells (hstuck : ¬m.Stuck c)
    (hshift : ∀ f s target, m.Decides c f s (.shift target) → m.maxDepth ≤ c.stack.items.length) :
    Keeps (Tells (told Event.incident? c.trace)) (Tells (told Event.incident? c.trace))
      (m.step c) := by
  have hc : Tells (told Event.incident? c.trace) c := rfl
  cases phase : c.phase with
  | skipping force =>
    rw [step, phase]
    exact skip_tells hc force
  | deciding =>
    cases hi : c.stack.items with
    | nil =>
      simp only [step, phase, FrameStack.peek_of_nil hi, Config.demand, bind, Except.bind]
      exact hc
    | cons f rest =>
      have htop : c.stack.items.head? = some f := by simp [hi]
      cases hs : m.tables.state f.state with
      | error e =>
        simp only [step, phase, FrameStack.peek_of_cons hi, Config.demand, bind, Except.bind, hs]
        exact hc
      | ok s =>
        have decides : m.Decides c f s (Action.decode (s.lookup (m.ahead c))) :=
          ⟨phase, htop, hs, rfl⟩
        rw [step_of_decides decides]
        generalize Action.decode (s.lookup (m.ahead c)) = action at decides
        cases action with
        | shift target =>
          obtain ⟨h, hh, -⟩ := shift_of_le m c target (hshift f s target decides)
          have hkeeps := shift_tells hc (m := m) target
          rw [perform, hh]
          rwa [hh] at hkeeps
        | reduce r => exact reduce_tells decides hstuck
        | error => exact absurd (.unexpected decides) hstuck

theorem step_incurs (m : Machine σ α V S φ) (c : Config σ α V S) : ∃ l, m.Incurs c l ∧
    Keeps (Tells (told Event.incident? c.trace ++ l)) (Tells (told Event.incident? c.trace ++ l))
      (m.step c) := by
  by_cases hstuck : m.Stuck c
  · obtain ⟨a, expected, hmeets, hkeeps⟩ := hstuck.tells
    exact ⟨_, .met hmeets, hkeeps⟩
  · by_cases hshift : ∃ f s target, m.Decides c f s (.shift target) ∧
      c.stack.items.length < m.maxDepth
    · obtain ⟨f, s, target, decides, hroom⟩ := hshift
      exact ⟨_, .shifted hstuck decides hroom, decides.tells hroom⟩
    · have hstill (f : Frame V S) (s : State) (target : StateId)
          (decides : m.Decides c f s (.shift target)) : m.maxDepth ≤ c.stack.items.length :=
        Nat.not_lt.1 fun hroom => hshift ⟨f, s, target, decides, hroom⟩
      refine ⟨[], .nothing hstuck hstill, ?_⟩
      rw [List.append_nil]
      exact calm_tells hstuck hstill

end Step

end Machine

end ShiftReduce
