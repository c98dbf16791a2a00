import ShiftReduce.Proofs.Machine.Fetch

namespace ShiftReduce

def Mode.counted : Mode → Mode
  | normal => normal
  | recovering shifted =>
    if Machine.recoveryShifts ≤ shifted + 1 then normal else recovering (shifted + 1)

/-- A state without entries of its own decides by its default cell, whatever comes next. -/
theorem State.lookup_of_not_hasLookahead {s : State} (h : s.hasLookahead = false)
    (t : Terminal) : s.lookup t = s.fallback := by
  have he : s.actions.entries = [] := by
    simpa [State.hasLookahead, OrderedMap.isEmpty] using h
  simp [State.lookup, State.entry, OrderedMap.get?, he, OrderedMap.find]

/-- The location of a phrase from those of its parts, where an empty phrase lies at `e`. -/
def stretch {S : Type} [Merge S] (e : S) : List S → S
  | [] => e
  | [s] => s
  | s :: t :: rest => Merge.merge s ((t :: rest).getLast (List.cons_ne_nil t rest))

namespace Machine

variable {σ α V S φ : Type} (m : Machine σ α V S φ) (c : Config σ α V S)

theorem nextAction_eq (s : State) :
    m.nextAction c s = (Action.decode (s.lookup (m.ahead c)),
      if s.hasLookahead then m.fetched c else c) := by
  cases h : s.hasLookahead with
  | true => simp [nextAction, h, fetch_eq]
  | false => simp [nextAction, h, State.lookup_of_not_hasLookahead h]

def given (frames : List (Frame V S)) : V :=
  (frames.head?.map Frame.value).getD m.actions.blank

def spread [Merge S] (gap : S) : List (Frame V S) → S
  | [] => gap
  | [f] => f.span
  | f :: g :: rest => Merge.merge f.span ((g :: rest).getLast (List.cons_ne_nil g rest)).span

theorem spread_eq [Merge S] (e : S) (frames : List (Frame V S)) :
    spread e frames = stretch e (frames.map Frame.span) := by
  match frames with
  | [] => rfl
  | [f] => rfl
  | f :: g :: rest =>
    simp only [spread, stretch, List.map_cons]
    congr 1
    exact (List.getLast_map (f := Frame.span) (l := g :: rest) (by simp)).symm

/-- The location of an empty phrase in front of the next token. -/
def gap [Merge S] : S :=
  Merge.merge (m.scanner.span (m.fetched c).scanner) (m.fetched c).lastSpan

def reduction [Merge S] (r : RuleId) (rule : Rule) (frames : List (Frame V S)) :
    Reduction V S :=
  ⟨r, rule, frames.map Frame.value, frames.map Frame.span, spread (m.gap c) frames⟩

/-- The next token has been read if the state looks at it or if the phrase is empty. -/
def poised (s : State) (frames : List (Frame V S)) : Config σ α V S :=
  if s.hasLookahead || frames.isEmpty then m.fetched c else c

theorem poised_cases (s : State) (frames : List (Frame V S)) :
    m.poised c s frames = m.fetched c ∨
      m.poised c s frames = c ∧ s.hasLookahead = false ∧ frames ≠ [] := by
  unfold poised
  split
  · exact Or.inl rfl
  · rename_i h
    simp only [Bool.or_eq_true, List.isEmpty_iff, not_or, Bool.not_eq_true] at h
    exact Or.inr ⟨rfl, h.1, h.2⟩

section Poised

variable (s : State) (frames : List (Frame V S))

@[simp] theorem errors_poised : (m.poised c s frames).stats.errors = c.stats.errors := by
  rcases poised_cases m c s frames with h | ⟨h, -, -⟩ <;> simp [h]

@[simp] theorem shifts_poised : (m.poised c s frames).stats.shifts = c.stats.shifts := by
  rcases poised_cases m c s frames with h | ⟨h, -, -⟩ <;> simp [h]

@[simp] theorem discarded_poised :
    (m.poised c s frames).stats.discarded = c.stats.discarded := by
  rcases poised_cases m c s frames with h | ⟨h, -, -⟩ <;> simp [h]

@[simp] theorem stack_poised : (m.poised c s frames).stack = c.stack := by
  rcases poised_cases m c s frames with h | ⟨h, -, -⟩ <;> simp [h]

@[simp] theorem mode_poised : (m.poised c s frames).mode = c.mode := by
  rcases poised_cases m c s frames with h | ⟨h, -, -⟩ <;> simp [h]

@[simp] theorem phase_poised : (m.poised c s frames).phase = c.phase := by
  rcases poised_cases m c s frames with h | ⟨h, -, -⟩ <;> simp [h]

@[simp] theorem ahead_poised : m.ahead (m.poised c s frames) = m.ahead c := by
  rcases poised_cases m c s frames with h | ⟨h, -, -⟩ <;> simp [h]

@[simp] theorem fetched_poised : m.fetched (m.poised c s frames) = m.fetched c := by
  rcases poised_cases m c s frames with h | ⟨h, -, -⟩ <;> simp [h]

end Poised

theorem synthesize_eq [Merge S] (frames : List (Frame V S)) :
    m.synthesize c frames = (m.given frames, spread (m.gap c) frames,
      if frames.isEmpty then m.fetched c else c) := by
  match frames with
  | [] => rfl
  | [f] => rfl
  | f :: g :: rest => rfl

/-- The top state on the stack, its row in the table and the action that it takes. -/
structure Decides (f : Frame V S) (s : State) (a : Action) : Prop where
  phase : c.phase = .deciding
  top : c.stack.items.head? = some f
  state : m.tables.state f.state = .ok s
  action : Action.decode (s.lookup (m.ahead c)) = a

/-- A rule with the frames of its right-hand side, the first one first, the frames below them and
the answer of the semantic action. -/
structure Reduces [Merge S] (r : RuleId) (rule : Rule) (frames below : List (Frame V S))
    (reply : Except φ (Reply α V)) : Prop where
  known : m.tables.rule r = .ok rule
  items : c.stack.items = frames.reverse ++ below
  length : frames.length = rule.length
  reply : m.actions.reduce (m.reduction c r rule frames) (m.given frames) c.actions = reply

structure Acted (s : State) (r : RuleId) (frames : List (Frame V S)) (reply : Reply α V)
    (d : Config σ α V S) : Prop where
  scanner : d.scanner = (m.poised c s frames).scanner
  lookahead : d.lookahead = (m.poised c s frames).lookahead
  actions : d.actions = reply.state
  stack : d.stack = c.stack
  mode : d.mode = c.mode
  phase : d.phase = c.phase
  stats : d.stats = { (m.poised c s frames).stats with
    reductions := c.stats.reductions + 1 }
  rules : rulesIn d.trace = rulesIn c.trace ++ [r]
  reports : reportsIn d.trace = reportsIn c.trace

structure Shifted (target : StateId) (c' : Config σ α V S) : Prop where
  scanner : c'.scanner = (m.scanner.value (m.fetched c).scanner).2
  items : c'.stack.items = ⟨target, (m.scanner.value (m.fetched c).scanner).1,
    m.scanner.span c'.scanner⟩ :: c.stack.items
  lookahead : c'.lookahead =
    if m.ahead c = m.tables.endTerminal then some (m.ahead c) else none
  actions : c'.actions = c.actions
  mode : c'.mode = c.mode.counted
  phase : c'.phase = c.phase
  stats : c'.stats = { (m.fetched c).stats with shifts := c.stats.shifts + 1 }
  rules : rulesIn c'.trace = rulesIn c.trace
  reports : reportsIn c'.trace = reportsIn c.trace

structure Recovered (expected : List Terminal) (kept : List (Frame V S)) (target : StateId)
    (c' : Config σ α V S) : Prop where
  scanner : c'.scanner =
    if c.mode = .normal then (m.scanner.report (m.describe c.actions (m.ahead c) expected)
      (m.scanner.span (m.fetched c).scanner) (m.fetched c).scanner).1
    else (m.fetched c).scanner
  items : c'.stack.items =
    ⟨target, m.actions.blank, m.scanner.span (m.fetched c).scanner⟩ :: kept
  lookahead : c'.lookahead = some (m.ahead c)
  actions : c'.actions = c.actions
  mode : c'.mode = .recovering 0
  phase : c'.phase = .skipping (c.mode = .recovering 0)
  stats : c'.stats = { (m.fetched c).stats with errors := c.stats.errors + 1 }
  rules : rulesIn c'.trace = rulesIn c.trace
  reports : reportsIn c'.trace = reportsIn c.trace ++ if c.mode = .normal then
    [(m.describe c.actions (m.ahead c) expected, m.scanner.span (m.fetched c).scanner)] else []

/-- Whether a frame's state has an entry of its own that shifts the error terminal. -/
def Passes (f : Frame V S) : Prop :=
  ∃ s, m.tables.state f.state = .ok s ∧ s.shiftTarget? m.tables.errorTerminal = none

inductive Recovers (expected : List Terminal) :
    Except (Halt σ α V S φ) (Config σ α V S) → Prop
  | recovered {above below : List (Frame V S)} {g : Frame V S} {s : State} {target : StateId}
      {c' : Config σ α V S} (items : c.stack.items = above ++ g :: below)
      (passed : ∀ f ∈ above, m.Passes f) (state : m.tables.state g.state = .ok s)
      (catches : s.shiftTarget? m.tables.errorTerminal = some target)
      (room : below.length + 1 < m.maxDepth)
      (result : m.Recovered c expected (g :: below) target c') : Recovers expected (.ok c')
  | cornered {h : Halt σ α V S φ} (passed : ∀ f ∈ c.stack.items, m.Passes f)
      (verdict : h.verdict = .failed .unrecoverable) (actions : h.config.actions = c.actions) :
      Recovers expected (.error h)
  | overflow {above below : List (Frame V S)} {g : Frame V S} {h : Halt σ α V S φ}
      (items : c.stack.items = above ++ g :: below) (full : m.maxDepth ≤ below.length + 1)
      (verdict : h.verdict = .failed (.stackOverflow m.maxDepth))
      (actions : h.config.actions = c.actions) : Recovers expected (.error h)
  | lost {f : Frame V S} {e : IndexFault} {h : Halt σ α V S φ} (mem : f ∈ c.stack.items)
      (state : m.tables.state f.state = .error e) (verdict : h.verdict = .fault (.index e)) :
      Recovers expected (.error h)

/-- The ways in which a step can turn out. -/
inductive Turn [Merge S] : Except (Halt σ α V S φ) (Config σ α V S) → Prop
  | bare {h : Halt σ α V S φ} (items : c.stack.items = [])
      (verdict : h.verdict = .fault (.stack .peekEmpty)) : Turn (.error h)
  | lost {f : Frame V S} {e : IndexFault} {h : Halt σ α V S φ}
      (top : c.stack.items.head? = some f) (state : m.tables.state f.state = .error e)
      (verdict : h.verdict = .fault (.index e)) : Turn (.error h)
  | shifted {f : Frame V S} {s : State} {target : StateId} {c' : Config σ α V S}
      (decides : m.Decides c f s (.shift target)) (room : c.stack.items.length < m.maxDepth)
      (result : m.Shifted c target c') : Turn (.ok c')
  | shiftOverflow {f : Frame V S} {s : State} {target : StateId} {h : Halt σ α V S φ}
      (decides : m.Decides c f s (.shift target)) (full : m.maxDepth ≤ c.stack.items.length)
      (verdict : h.verdict = .failed (.stackOverflow m.maxDepth))
      (actions : h.config.actions = c.actions) : Turn (.error h)
  | lostRule {f : Frame V S} {s : State} {r : RuleId} {e : IndexFault} {h : Halt σ α V S φ}
      (decides : m.Decides c f s (.reduce r)) (rule : m.tables.rule r = .error e)
      (verdict : h.verdict = .fault (.index e)) : Turn (.error h)
  | shortStack {f : Frame V S} {s : State} {r : RuleId} {rule : Rule} {h : Halt σ α V S φ}
      (decides : m.Decides c f s (.reduce r)) (known : m.tables.rule r = .ok rule)
      (short : c.stack.items.length < rule.length)
      (verdict : h.verdict = .fault (.stack (.viewTooDeep rule.length c.stack.items.length))) :
      Turn (.error h)
  | actionFault {f : Frame V S} {s : State} {r : RuleId} {rule : Rule}
      {frames below : List (Frame V S)} {e : φ} {h : Halt σ α V S φ}
      (decides : m.Decides c f s (.reduce r))
      (reduces : m.Reduces c r rule frames below (.error e))
      (verdict : h.verdict = .fault (.action e)) : Turn (.error h)
  | accepted {f : Frame V S} {s : State} {r : RuleId} {rule : Rule}
      {frames below : List (Frame V S)} {reply : Reply α V} {d : Config σ α V S}
      (decides : m.Decides c f s (.reduce r))
      (reduces : m.Reduces c r rule frames below (.ok reply))
      (acted : m.Acted c s r frames reply d)
      (accepts : reply.control = .accept ∨ reply.control = .proceed ∧ r = m.tables.acceptRule) :
      Turn (.error ⟨.accepted reply.value, d⟩)
  | aborted {f : Frame V S} {s : State} {r : RuleId} {rule : Rule}
      {frames below : List (Frame V S)} {reply : Reply α V} {d : Config σ α V S}
      (decides : m.Decides c f s (.reduce r))
      (reduces : m.Reduces c r rule frames below (.ok reply))
      (acted : m.Acted c s r frames reply d) (aborts : reply.control = .abort) :
      Turn (.error ⟨.failed .aborted, d⟩)
  | reduced {f g : Frame V S} {s s' : State} {r : RuleId} {rule : Rule}
      {frames below : List (Frame V S)} {reply : Reply α V} (d : Config σ α V S)
      (st : FrameStack V S) (decides : m.Decides c f s (.reduce r))
      (reduces : m.Reduces c r rule frames (g :: below) (.ok reply))
      (acted : m.Acted c s r frames reply d) (proceeds : reply.control = .proceed)
      (other : r ≠ m.tables.acceptRule) (state : m.tables.state g.state = .ok s')
      (room : below.length + 1 < m.maxDepth)
      (items : st.items = ⟨(s'.gotoFor rule.lhs).getD g.state, reply.value,
        spread (m.gap c) frames⟩ :: g :: below) :
      Turn (.ok (turned { d with stack := st }))
  | gotoBare {f : Frame V S} {s : State} {r : RuleId} {rule : Rule}
      {frames : List (Frame V S)} {reply : Reply α V} {h : Halt σ α V S φ}
      (decides : m.Decides c f s (.reduce r))
      (reduces : m.Reduces c r rule frames [] (.ok reply))
      (verdict : h.verdict = .fault (.stack .peekEmpty)) : Turn (.error h)
  | gotoLost {f g : Frame V S} {s : State} {r : RuleId} {rule : Rule} {e : IndexFault}
      {frames below : List (Frame V S)} {reply : Reply α V} {h : Halt σ α V S φ}
      (decides : m.Decides c f s (.reduce r))
      (reduces : m.Reduces c r rule frames (g :: below) (.ok reply))
      (state : m.tables.state g.state = .error e)
      (verdict : h.verdict = .fault (.index e)) : Turn (.error h)
  | gotoOverflow {f g : Frame V S} {s : State} {r : RuleId} {rule : Rule}
      {frames below : List (Frame V S)} {reply : Reply α V} {h : Halt σ α V S φ}
      (decides : m.Decides c f s (.reduce r))
      (reduces : m.Reduces c r rule frames (g :: below) (.ok reply))
      (full : m.maxDepth ≤ below.length + 1)
      (verdict : h.verdict = .failed (.stackOverflow m.maxDepth))
      (actions : h.config.actions = reply.state) : Turn (.error h)
  | failed {f : Frame V S} {s : State} {x : Except (Halt σ α V S φ) (Config σ α V S)}
      (decides : m.Decides c f s .error)
      (recovers : m.Recovers c (s.expected m.tables.errorTerminal) x) : Turn x
  | raised {f : Frame V S} {s : State} {r : RuleId} {rule : Rule}
      {frames below : List (Frame V S)} {reply : Reply α V} {d : Config σ α V S}
      {x : Except (Halt σ α V S φ) (Config σ α V S)} (decides : m.Decides c f s (.reduce r))
      (reduces : m.Reduces c r rule frames below (.ok reply))
      (acted : m.Acted c s r frames reply d) (raises : reply.control = .raise)
      (recovers : m.Recovers d [] x) : Turn x
  | resumed {f : Frame V S} {s : State} {force : Bool} (phase : c.phase = .skipping force)
      (top : c.stack.items.head? = some f) (state : m.tables.state f.state = .ok s)
      (careful : force = false) (fits : s.hasLookahead = true → s.lookup (m.ahead c) ≠ 0) :
      Turn (.ok (resynchronized (if s.hasLookahead then m.fetched c else c) f.state))
  | discarded {f : Frame V S} {s : State} {force : Bool} (phase : c.phase = .skipping force)
      (top : c.stack.items.head? = some f) (state : m.tables.state f.state = .ok s)
      (unfit : force = false → s.hasLookahead = true ∧ s.lookup (m.ahead c) = 0)
      (more : m.ahead c ≠ m.tables.endTerminal) :
      Turn (.ok ({ m.fetched c with
        lookahead := none
        phase := .skipping false
        stats := { (m.fetched c).stats with
          discarded := c.stats.discarded + 1 } }.emit (.discarded (m.ahead c))))
  | outOfInput {f : Frame V S} {s : State} {force : Bool} {h : Halt σ α V S φ}
      (phase : c.phase = .skipping force) (top : c.stack.items.head? = some f)
      (state : m.tables.state f.state = .ok s)
      (unfit : force = false → s.hasLookahead = true ∧ s.lookup (m.ahead c) = 0)
      (last : m.ahead c = m.tables.endTerminal) (verdict : h.verdict = .failed .unexpectedEnd)
      (actions : h.config.actions = c.actions) : Turn (.error h)

/-- Two configurations that differ in the stack and in the wording of the trace only. -/
structure Alike (c d : Config σ α V S) : Prop where
  scanner : d.scanner = c.scanner
  lookahead : d.lookahead = c.lookahead
  actions : d.actions = c.actions
  mode : d.mode = c.mode
  phase : d.phase = c.phase
  stats : d.stats = c.stats
  rules : rulesIn d.trace = rulesIn c.trace
  reports : reportsIn d.trace = reportsIn c.trace

inductive Unwinds : List (Frame V S) →
    Except (Halt σ α V S φ) (StateId × Config σ α V S) → Prop
  | caught (above : List (Frame V S)) {below : List (Frame V S)} {g : Frame V S} {s : State}
      {target : StateId} {d : Config σ α V S} (passed : ∀ f ∈ above, m.Passes f)
      (state : m.tables.state g.state = .ok s)
      (catches : s.shiftTarget? m.tables.errorTerminal = some target)
      (items : d.stack.items = g :: below) (alike : Alike c d) :
      Unwinds (above ++ g :: below) (.ok (target, d))
  | cornered {frames : List (Frame V S)} {h : Halt σ α V S φ}
      (passed : ∀ f ∈ frames, m.Passes f) (verdict : h.verdict = .failed .unrecoverable)
      (actions : h.config.actions = c.actions) : Unwinds frames (.error h)
  | lost {frames : List (Frame V S)} {f : Frame V S} {e : IndexFault} {h : Halt σ α V S φ}
      (mem : f ∈ frames) (state : m.tables.state f.state = .error e)
      (verdict : h.verdict = .fault (.index e)) : Unwinds frames (.error h)

variable {m c}

theorem Alike.trans {d e : Config σ α V S} (h : Alike c d) (h' : Alike d e) : Alike c e :=
  ⟨h'.scanner.trans h.scanner, h'.lookahead.trans h.lookahead, h'.actions.trans h.actions,
    h'.mode.trans h.mode, h'.phase.trans h.phase, h'.stats.trans h.stats,
    h'.rules.trans h.rules, h'.reports.trans h.reports⟩

theorem Alike.refl (c : Config σ α V S) : Alike c c := ⟨rfl, rfl, rfl, rfl, rfl, rfl, rfl, rfl⟩

theorem Alike.pop (c : Config σ α V S) (st : FrameStack V S) (s : StateId) :
    Alike c ({ c with stack := st }.emit (.popped s)) :=
  ⟨rfl, rfl, rfl, rfl, rfl, rfl, by simp [Event.rule?], by simp [Event.report?]⟩

theorem Unwinds.cons {d : Config σ α V S} {f : Frame V S} {rest : List (Frame V S)}
    {x : Except (Halt σ α V S φ) (StateId × Config σ α V S)} (hf : m.Passes f)
    (hd : Alike c d) (h : m.Unwinds d rest x) : m.Unwinds c (f :: rest) x := by
  have hcons {above : List (Frame V S)} (ha : ∀ g ∈ above, m.Passes g) :
      ∀ g ∈ f :: above, m.Passes g := by
    intro g hg
    rcases List.mem_cons.1 hg with rfl | hg
    · exact hf
    · exact ha g hg
  cases h with
  | caught above passed state catches items alike =>
    exact Unwinds.caught (f :: _) (hcons passed) state catches items (hd.trans alike)
  | cornered passed verdict actions =>
    exact .cornered (hcons passed) verdict (actions.trans hd.actions)
  | lost mem state verdict => exact .lost (List.mem_cons_of_mem f mem) state verdict

theorem unwind_unwinds (c : Config σ α V S) (frames : List (Frame V S))
    (h : c.stack.items = frames) : m.Unwinds c frames (m.unwind c frames) := by
  induction frames generalizing c with
  | nil => exact .cornered (by simp) rfl rfl
  | cons f rest ih =>
    unfold unwind
    cases hs : m.tables.state f.state with
    | error e => exact .lost List.mem_cons_self hs rfl
    | ok s =>
      simp only [Config.demand, bind, Except.bind]
      cases ht : s.shiftTarget? m.tables.errorTerminal with
      | some target =>
        exact Unwinds.caught [] (by simp) hs ht h (.refl c)
      | none =>
        refine Unwinds.cons ⟨s, hs, ht⟩ (.pop c _ _) (ih _ ?_)
        simp [h]

theorem push_of_lt {d : Config σ α V S} (f : Frame V S)
    (h : d.stack.items.length < m.maxDepth) :
    m.push d f = .ok { d with stack := d.stack.push f } := by
  unfold push
  rw [if_neg (by rw [d.stack.depth_eq]; omega)]

theorem push_of_le {d : Config σ α V S} (f : Frame V S)
    (h : m.maxDepth ≤ d.stack.items.length) :
    m.push d f = .error ⟨.failed (.stackOverflow m.maxDepth), d⟩ := by
  unfold push
  rw [if_pos (by rw [d.stack.depth_eq]; omega)]
  rfl

variable (m c)

def complained (expected : List Terminal) : Config σ α V S :=
  m.report ({ m.fetched c with
      stats := { (m.fetched c).stats with errors := (m.fetched c).stats.errors + 1 } }.emit
    (.stuck (m.ahead c) (m.scanner.span (m.fetched c).scanner)))
    (m.ahead c) (m.scanner.span (m.fetched c).scanner) expected

section Complained

variable (expected : List Terminal)

theorem recover_eq : m.recover c expected = (do
    let (target, d) ← m.unwind (m.complained c expected) (m.complained c expected).stack.items
    let frame : Frame V S := ⟨target, m.actions.blank, m.scanner.span (m.fetched c).scanner⟩
    let d ← m.push (d.emit (.catching target)) frame
    .ok { d.emit (.caught frame) with
      mode := .recovering 0
      phase := .skipping (decide ((m.fetched c).mode = .recovering 0)) }) := rfl

@[simp] theorem stack_complained : (m.complained c expected).stack = c.stack := by
  unfold complained report
  split <;> simp

@[simp] theorem lookahead_complained :
    (m.complained c expected).lookahead = some (m.ahead c) := by
  unfold complained report
  split <;> simp

@[simp] theorem actions_complained : (m.complained c expected).actions = c.actions := by
  unfold complained report
  split <;> simp

theorem stats_complained : (m.complained c expected).stats =
    { (m.fetched c).stats with errors := c.stats.errors + 1 } := by
  unfold complained report
  split <;> simp

@[simp] theorem rulesIn_complained :
    rulesIn (m.complained c expected).trace = rulesIn c.trace := by
  unfold complained report
  split <;> simp [Event.rule?]

theorem scanner_complained : (m.complained c expected).scanner =
    if c.mode = .normal then (m.scanner.report (m.describe c.actions (m.ahead c) expected)
      (m.scanner.span (m.fetched c).scanner) (m.fetched c).scanner).1
    else (m.fetched c).scanner := by
  unfold complained report
  split <;> simp_all

theorem reportsIn_complained : reportsIn (m.complained c expected).trace =
    reportsIn c.trace ++ if c.mode = .normal then
      [(m.describe c.actions (m.ahead c) expected, m.scanner.span (m.fetched c).scanner)]
    else [] := by
  unfold complained report
  split <;> simp_all [Event.report?]

end Complained

variable {m c} in
/-- The configuration in which the error terminal has been shifted, from the one that the unwinding
leads to. -/
theorem Alike.recovered {expected : List Terminal} {d : Config σ α V S} {kept : List (Frame V S)}
    (alike : Alike (m.complained c expected) d) (items : d.stack.items = kept)
    (target : StateId) (frame : Frame V S)
    (hframe : frame = ⟨target, m.actions.blank, m.scanner.span (m.fetched c).scanner⟩) :
    m.Recovered c expected kept target
      { Config.emit { d.emit (.catching target) with stack := d.stack.push frame }
          (.caught frame) with
        mode := .recovering 0
        phase := .skipping (decide ((m.fetched c).mode = .recovering 0)) } := by
  subst hframe
  constructor
  · simpa using alike.scanner.trans (scanner_complained m c expected)
  · simp [items]
  · simpa using alike.lookahead
  · simpa using alike.actions
  · rfl
  · simp
  · simpa using alike.stats.trans (stats_complained m c expected)
  · simpa [Event.rule?] using alike.rules
  · simpa [Event.report?] using alike.reports.trans (reportsIn_complained m c expected)

theorem recover_recovers (expected : List Terminal) :
    m.Recovers c expected (m.recover c expected) := by
  have hunwind := unwind_unwinds (m := m) (m.complained c expected) _ rfl
  rw [recover_eq]
  generalize m.unwind (m.complained c expected) (m.complained c expected).stack.items = x
    at hunwind ⊢
  rw [stack_complained] at hunwind
  generalize hframes : c.stack.items = frames at hunwind
  cases hunwind with
  | cornered passed verdict actions =>
    refine .cornered (by rwa [hframes]) verdict ?_
    rw [actions, actions_complained]
  | lost mem state verdict => exact .lost (by rwa [hframes]) state verdict
  | @caught above below g s target d passed state catches items alike =>
    simp only [bind, Except.bind]
    by_cases hroom : below.length + 1 < m.maxDepth
    · rw [push_of_lt _ (by simpa [items] using hroom)]
      exact .recovered hframes passed state catches hroom (alike.recovered items target _ rfl)
    · rw [push_of_le _ (by simpa [items] using hroom)]
      refine .overflow hframes (by omega) rfl ?_
      simpa using alike.actions

theorem Recovers.errors_ne_zero {expected : List Terminal} {c' : Config σ α V S}
    (h : m.Recovers c expected (.ok c')) : c'.stats.errors ≠ 0 := by
  cases h with
  | recovered items passed state catches room result =>
    rw [result.stats]
    exact Nat.succ_ne_zero _

theorem mode_countShift (d : Config σ α V S) : (countShift d).mode = d.mode.counted := by
  cases h : d.mode with
  | normal => simp [countShift, Mode.counted, h]
  | recovering shifted =>
    simp only [countShift, Mode.counted, h]
    split <;> rfl

theorem countShift_alike (d : Config σ α V S) :
    (countShift d).scanner = d.scanner ∧ (countShift d).stack = d.stack ∧
    (countShift d).lookahead = d.lookahead ∧ (countShift d).actions = d.actions ∧
    (countShift d).phase = d.phase ∧ (countShift d).stats = d.stats ∧
    rulesIn (countShift d).trace = rulesIn d.trace ∧
    reportsIn (countShift d).trace = reportsIn d.trace := by
  unfold countShift
  split
  · simp
  · split <;> simp [Event.rule?, Event.report?]

/-- Shifting does not care whether the next token has been read. -/
theorem shift_fetched (target : StateId) : m.shift (m.fetched c) target = m.shift c target := by
  simp only [shift, fetch_eq, ahead_fetched, fetched_fetched]
  rfl

theorem shift_of_lt (target : StateId) (h : c.stack.items.length < m.maxDepth) :
    ∃ c', m.shift c target = .ok c' ∧ m.Shifted c target c' := by
  simp only [shift, fetch_eq, bind, Except.bind]
  rw [push_of_lt _ (by simpa using h)]
  refine ⟨_, rfl, ?_⟩
  constructor
  all_goals simp [turned, countShift_alike, mode_countShift, Event.rule?, Event.report?]

theorem shift_of_le (target : StateId) (h : m.maxDepth ≤ c.stack.items.length) :
    ∃ h : Halt σ α V S φ, m.shift c target = .error h ∧
      h.verdict = .failed (.stackOverflow m.maxDepth) ∧ h.config.actions = c.actions ∧
      h.config.scanner = (m.scanner.value (m.fetched c).scanner).2 := by
  simp only [shift, fetch_eq, bind, Except.bind]
  rw [push_of_le _ (by simpa using h)]
  exact ⟨_, rfl, rfl, by simp, rfl⟩

/-- Neither does an error. -/
theorem recover_fetched (expected : List Terminal) :
    m.recover (m.fetched c) expected = m.recover c expected := by
  have h : m.complained (m.fetched c) expected = m.complained c expected := by
    simp [complained]
  rw [recover_eq, recover_eq, h, fetched_fetched]

def called [Merge S] (s : State) (r : RuleId) (rule : Rule) (frames : List (Frame V S)) :
    Config σ α V S :=
  (m.synthesize ((if s.hasLookahead then m.fetched c else c).emit (.reducing r rule)) frames).2.2

section Called

variable [Merge S] (s : State) (r : RuleId) (rule : Rule) (frames : List (Frame V S))

theorem called_eq : m.called c s r rule frames = if frames.isEmpty then
    m.fetched ((if s.hasLookahead then m.fetched c else c).emit (.reducing r rule))
    else (if s.hasLookahead then m.fetched c else c).emit (.reducing r rule) := by
  rw [called, synthesize_eq]

theorem called_facts : (m.called c s r rule frames).scanner = (m.poised c s frames).scanner ∧
    (m.called c s r rule frames).lookahead = (m.poised c s frames).lookahead ∧
    (m.called c s r rule frames).stats = (m.poised c s frames).stats ∧
    (m.called c s r rule frames).actions = c.actions ∧
    (m.called c s r rule frames).stack = c.stack ∧
    (m.called c s r rule frames).mode = c.mode ∧
    (m.called c s r rule frames).phase = c.phase ∧
    rulesIn (m.called c s r rule frames).trace = rulesIn c.trace ∧
    reportsIn (m.called c s r rule frames).trace = reportsIn c.trace := by
  rw [called_eq, poised]
  cases s.hasLookahead <;> cases frames.isEmpty <;> simp [Event.rule?, Event.report?]

theorem acted_called (reply : Reply α V) : m.Acted c s r frames reply
    (({ m.called c s r rule frames with
      actions := reply.state
      stats := { (m.called c s r rule frames).stats with
        reductions := (m.called c s r rule frames).stats.reductions + 1 } }.notes reply.log).emit
      (.reduced (m.reduction c r rule frames) (m.given frames) reply.value reply.control)) := by
  obtain ⟨hsc, hla, hst, hac, hstack, hmode, hphase, hrules, hreports⟩ :=
    called_facts m c s r rule frames
  have hred : (m.poised c s frames).stats.reductions = c.stats.reductions := by
    rcases poised_cases m c s frames with hp | ⟨hp, -, -⟩ <;> simp [hp]
  constructor
  all_goals simp [hsc, hla, hst, hstack, hmode, hphase, hrules, hreports, hred, Event.rule?,
    Event.report?, reduction]

end Called

section Acted

variable {m c} {s : State} {r : RuleId} {frames : List (Frame V S)} {reply : Reply α V}
  {d : Config σ α V S}

/-- A semantic action does not change what comes next. -/
theorem Acted.ahead_eq (h : m.Acted c s r frames reply d) : m.ahead d = m.ahead c :=
  (ahead_congr h.scanner h.lookahead).trans (ahead_poised m c s frames)

/-- The same of the configuration that the folding of the right-hand side is noted in. -/
theorem Acted.folded {n : Nat} {f : Frame V S} (h : m.Acted c s r frames reply d) :
    m.Acted c s r frames reply (d.emit (.folded n f)) :=
  ⟨h.scanner, h.lookahead, h.actions, h.stack, h.mode, h.phase, h.stats,
    by simpa [Event.rule?] using h.rules, by simpa [Event.report?] using h.reports⟩

theorem Acted.scanner_fetched (h : m.Acted c s r frames reply d) :
    (m.fetched d).scanner = (m.fetched c).scanner := by
  rw [scanner_fetched_congr h.scanner h.lookahead, fetched_poised]

end Acted

section Goto

variable {m c}

/-- The frames of a right-hand side, taken off the stack of a configuration. -/
theorem discard_frames {d : Config σ α V S} {frames below : List (Frame V S)}
    (h : d.stack.items = frames.reverse ++ below) :
    (d.stack.drop frames.length).items = below ∧
      d.stack.discard frames.length = .ok (d.stack.drop frames.length) := by
  have hlen : frames.length = frames.reverse.length := by rw [List.length_reverse]
  constructor
  · rw [FrameStack.items_drop, h, hlen, List.drop_left]
  · refine FrameStack.discard_of_le ?_
    rw [h, List.length_append]
    omega

theorem goto_of_lt {d : Config σ α V S} {frames below : List (Frame V S)} {g : Frame V S}
    {s : State} (h : d.stack.items = frames.reverse ++ g :: below)
    (hs : m.tables.state g.state = .ok s) (hroom : below.length + 1 < m.maxDepth)
    (lhs : Nonterminal) (v : V) (span : S) : m.goto d frames.length lhs v span =
      .ok (turned { d.emit (.folded frames.length ⟨(s.gotoFor lhs).getD g.state, v, span⟩) with
        stack := (d.stack.drop frames.length).push ⟨(s.gotoFor lhs).getD g.state, v, span⟩ }) := by
  obtain ⟨hdrop, hdiscard⟩ := discard_frames h
  simp only [goto, hdiscard, Config.demand, bind, Except.bind, FrameStack.peek_of_cons hdrop, hs]
  rw [push_of_lt _ (by simpa [hdrop] using hroom)]
  rfl

theorem goto_of_le {d : Config σ α V S} {frames below : List (Frame V S)} {g : Frame V S}
    {s : State} (h : d.stack.items = frames.reverse ++ g :: below)
    (hs : m.tables.state g.state = .ok s) (hfull : m.maxDepth ≤ below.length + 1)
    (lhs : Nonterminal) (v : V) (span : S) : m.goto d frames.length lhs v span =
      .error ⟨.failed (.stackOverflow m.maxDepth),
        { d with stack := d.stack.drop frames.length }⟩ := by
  obtain ⟨hdrop, hdiscard⟩ := discard_frames h
  simp only [goto, hdiscard, Config.demand, bind, Except.bind, FrameStack.peek_of_cons hdrop, hs]
  rw [push_of_le _ (by simpa [hdrop] using hfull)]

end Goto

section Step

variable [Merge S]

def answered (s : State) (r : RuleId) (rule : Rule) (frames : List (Frame V S))
    (reply : Reply α V) : Config σ α V S :=
  ({ m.called c s r rule frames with
    actions := reply.state
    stats := { (m.called c s r rule frames).stats with
      reductions := (m.called c s r rule frames).stats.reductions + 1 } }.notes reply.log).emit
    (.reduced (m.reduction c r rule frames) (m.given frames) reply.value reply.control)

def follow (r : RuleId) (rule : Rule) (span : S) (reply : Reply α V) (d : Config σ α V S) :
    Except (Halt σ α V S φ) (Config σ α V S) :=
  match reply.control with
  | .accept => d.halt (.accepted reply.value)
  | .abort => d.halt (.failed .aborted)
  | .raise => m.recover d []
  | .proceed =>
    if r = m.tables.acceptRule then d.halt (.accepted reply.value)
    else m.goto d rule.length rule.lhs reply.value span

variable {m c}

theorem gap_poised (s : State) (e : Event V S) :
    m.gap ((if s.hasLookahead then m.fetched c else c).emit e) = m.gap c := by
  cases s.hasLookahead <;> simp [gap]

/-- A reduction with its rule and the frames of the right-hand side at hand. -/
theorem reduce_eq {s : State} {r : RuleId} {rule : Rule} (hr : m.tables.rule r = .ok rule)
    (hlen : rule.length ≤ c.stack.items.length) :
    m.reduce (if s.hasLookahead then m.fetched c else c) r =
      match m.actions.reduce (m.reduction c r rule (c.stack.items.take rule.length).reverse)
        (m.given (c.stack.items.take rule.length).reverse) c.actions with
      | .error f => (m.called c s r rule (c.stack.items.take rule.length).reverse).halt
          (.fault (.action f))
      | .ok reply => m.follow r rule
          (spread (m.gap c) (c.stack.items.take rule.length).reverse) reply
          (m.answered c s r rule (c.stack.items.take rule.length).reverse reply) := by
  have hstack : (if s.hasLookahead then m.fetched c else c).stack = c.stack := by
    split <;> simp
  have htop := FrameStack.top_of_le hlen
  have hact := (called_facts m c s r rule (c.stack.items.take rule.length).reverse).2.2.2.1
  unfold reduce
  simp only [hr, Config.demand, bind, Except.bind, Config.stack_emit, hstack, htop,
    synthesize_eq, gap_poised]
  rw [← called_eq, hact]
  unfold reduction
  generalize m.actions.reduce _ _ c.actions = x
  cases x with
  | error f => rfl
  | ok reply => rfl

/-- The stack is deep enough for the rule: its semantic action is called. -/
theorem exists_reduces {s : State} {r : RuleId} {rule : Rule} (hr : m.tables.rule r = .ok rule)
    (hlen : rule.length ≤ c.stack.items.length) :
    ∃ frames below reply, m.Reduces c r rule frames below reply ∧
      m.reduce (if s.hasLookahead then m.fetched c else c) r =
        match reply with
        | .error f => (m.called c s r rule frames).halt (.fault (.action f))
        | .ok reply => m.follow r rule (spread (m.gap c) frames) reply
            (m.answered c s r rule frames reply) := by
  have hcut : c.stack.items = (c.stack.items.take rule.length).reverse.reverse ++
      c.stack.items.drop rule.length := by simp
  have hcount : (c.stack.items.take rule.length).reverse.length = rule.length := by
    rw [List.length_reverse, List.length_take, Nat.min_eq_left hlen]
  exact ⟨_, _, _, ⟨hr, hcut, hcount, rfl⟩, reduce_eq hr hlen⟩

theorem reduce_of_lt {s : State} {r : RuleId} {rule : Rule} (hr : m.tables.rule r = .ok rule)
    (hlen : c.stack.items.length < rule.length) :
    m.reduce (if s.hasLookahead then m.fetched c else c) r =
      .error ⟨.fault (.stack (.viewTooDeep rule.length c.stack.items.length)),
        (if s.hasLookahead then m.fetched c else c).emit (.reducing r rule)⟩ := by
  have hstack : (if s.hasLookahead then m.fetched c else c).stack = c.stack := by
    split <;> simp
  have htop := FrameStack.top_of_lt hlen
  simp only [reduce, hr, Config.demand, bind, Except.bind, Config.stack_emit, hstack, htop]
  rfl

theorem follow_turn {f : Frame V S} {s : State} {r : RuleId} {rule : Rule}
    {frames below : List (Frame V S)} {reply : Reply α V} {d : Config σ α V S}
    (decides : m.Decides c f s (.reduce r))
    (reduces : m.Reduces c r rule frames below (.ok reply))
    (acted : m.Acted c s r frames reply d) :
    m.Turn c (m.follow r rule (spread (m.gap c) frames) reply d) := by
  unfold follow
  cases hc : reply.control with
  | accept => exact .accepted decides reduces acted (Or.inl hc)
  | abort => exact .aborted decides reduces acted hc
  | raise => exact .raised decides reduces acted hc (recover_recovers m d [])
  | proceed =>
    dsimp only
    split
    · rename_i hr
      exact .accepted decides reduces acted (Or.inr ⟨hc, hr⟩)
    · rename_i hr
      have hitems : d.stack.items = frames.reverse ++ below := by
        rw [acted.stack, reduces.items]
      rw [← reduces.length]
      obtain ⟨hdrop, hdiscard⟩ := discard_frames hitems
      cases below with
      | nil =>
        simp only [goto, hdiscard, Config.demand, bind, Except.bind, FrameStack.peek_of_nil hdrop]
        exact .gotoBare decides reduces rfl
      | cons g below =>
        cases hs : m.tables.state g.state with
        | error e =>
          simp only [goto, hdiscard, Config.demand, bind, Except.bind,
            FrameStack.peek_of_cons hdrop, hs]
          exact .gotoLost decides reduces hs rfl
        | ok s' =>
          by_cases hroom : below.length + 1 < m.maxDepth
          · rw [goto_of_lt hitems hs hroom]
            exact Turn.reduced (d.emit _) ((d.stack.drop frames.length).push _) decides reduces
              acted.folded hc hr hs hroom (by rw [FrameStack.items_push, hdrop])
          · rw [goto_of_le hitems hs (by omega)]
            exact .gotoOverflow decides reduces (by omega) rfl acted.actions

theorem reduce_turn {f : Frame V S} {s : State} {r : RuleId}
    (decides : m.Decides c f s (.reduce r)) :
    m.Turn c (m.reduce (if s.hasLookahead then m.fetched c else c) r) := by
  cases hr : m.tables.rule r with
  | error e =>
    rw [reduce, hr]
    exact .lostRule decides hr rfl
  | ok rule =>
    by_cases hlen : rule.length ≤ c.stack.items.length
    · obtain ⟨frames, below, reply, reduces, heq⟩ := exists_reduces (s := s) hr hlen
      rw [heq]
      cases reply with
      | error e => exact .actionFault decides reduces rfl
      | ok reply => exact follow_turn decides reduces (acted_called m c s r rule frames reply)
    · rw [reduce_of_lt hr (Nat.not_le.1 hlen)]
      exact .shortStack decides hr (Nat.not_le.1 hlen) rfl

theorem skip_turn {force : Bool} (phase : c.phase = .skipping force) :
    m.Turn c (m.skip c force) := by
  unfold skip
  simp only [Config.demand, bind, Except.bind]
  cases hi : c.stack.items with
  | nil =>
    rw [FrameStack.peek_of_nil hi]
    exact .bare hi rfl
  | cons f rest =>
    have htop : c.stack.items.head? = some f := by simp [hi]
    rw [FrameStack.peek_of_cons hi]
    dsimp only
    cases hs : m.tables.state f.state with
    | error e => exact .lost htop hs rfl
    | ok s =>
      dsimp only
      simp only [fetch_eq]
      by_cases hfree : force = false ∧ s.hasLookahead = false
      · obtain ⟨rfl, hs'⟩ := hfree
        have h := Turn.resumed (m := m) phase htop hs rfl (by simp [hs'])
        simpa [hs'] using h
      · have hfree' : (!force && !s.hasLookahead) = false := by
          cases force <;> simp_all
        rw [hfree', if_neg (by simp)]
        by_cases hfit : force = false ∧ s.lookup (m.ahead c) ≠ 0
        · obtain ⟨rfl, hne⟩ := hfit
          have hs' : s.hasLookahead = true := by simpa using hfree
          have h := Turn.resumed (m := m) phase htop hs rfl fun _ => hne
          simpa [hs', hne] using h
        · have hfit' : (!force && s.lookup (m.ahead c) != 0) = false := by
            cases force <;> simp_all
          have unfit : force = false → s.hasLookahead = true ∧ s.lookup (m.ahead c) = 0 := by
            rintro rfl
            exact ⟨by simpa using hfree, by simpa using hfit⟩
          simp only [hfit', Bool.false_eq_true, if_false]
          by_cases hlast : m.ahead c = m.tables.endTerminal
          · simp only [hlast, if_true]
            exact .outOfInput phase htop hs unfit hlast rfl (by simp)
          · simp only [hlast, if_false]
            simpa using Turn.discarded (m := m) phase htop hs unfit hlast

variable (m c) in
/-- Takes an action of a state. Shifting and answering an error do not care whether the next token
has been read to decide. -/
def perform (s : State) : Action → Except (Halt σ α V S φ) (Config σ α V S)
  | .shift target => m.shift c target
  | .reduce r => m.reduce (if s.hasLookahead then m.fetched c else c) r
  | .error => m.recover c (s.expected m.tables.errorTerminal)

theorem step_of_decides {f : Frame V S} {s : State} {a : Action} (h : m.Decides c f s a) :
    m.step c = m.perform c s a := by
  obtain ⟨rest, hrest⟩ := List.head?_eq_some_iff.1 h.top
  unfold step
  simp only [h.phase, FrameStack.peek_of_cons hrest, Config.demand, bind, Except.bind, h.state,
    nextAction_eq, h.action]
  cases a with
  | shift target =>
    dsimp only [perform]
    split
    · exact shift_fetched m c target
    · rfl
  | reduce r => rfl
  | error =>
    dsimp only [perform]
    split
    · exact recover_fetched m c _
    · rfl

/-- A state that looks at the next token does not care whether it has been read. -/
theorem step_fetched {f : Frame V S} {s : State} {a : Action} (h : m.Decides c f s a)
    (hs : s.hasLookahead = true) : m.step (m.fetched c) = m.step c := by
  have h' : m.Decides (m.fetched c) f s a :=
    ⟨by simpa using h.phase, by simpa using h.top, h.state, by simpa using h.action⟩
  rw [step_of_decides h, step_of_decides h']
  cases a with
  | shift target => exact shift_fetched m c target
  | reduce r => simp [perform, hs]
  | error => exact recover_fetched m c _

theorem step_of_shift {f : Frame V S} {s : State} {target : StateId}
    (h : m.Decides c f s (.shift target)) (hroom : c.stack.items.length < m.maxDepth) :
    ∃ c', m.step c = .ok c' ∧ m.Shifted c target c' := by
  rw [step_of_decides h, perform]
  exact shift_of_lt m c target hroom

section Reduce

variable {f g : Frame V S} {s s' : State} {r : RuleId} {rule : Rule}
  {frames below : List (Frame V S)} {reply : Reply α V}

theorem step_of_answer_eq (h : m.Decides c f s (.reduce r))
    (hr : m.Reduces c r rule frames below (.ok reply)) : m.step c =
      m.follow r rule (spread (m.gap c) frames) reply (m.answered c s r rule frames reply) := by
  have htake : (c.stack.items.take rule.length).reverse = frames := by
    have hlen : rule.length = frames.reverse.length := by rw [List.length_reverse, hr.length]
    rw [hr.items, hlen, List.take_left, List.reverse_reverse]
  have hle : rule.length ≤ c.stack.items.length := by
    rw [hr.items, List.length_append, List.length_reverse, hr.length]
    omega
  rw [step_of_decides h, perform, reduce_eq hr.known hle, htake, hr.reply]

theorem step_of_answer (h : m.Decides c f s (.reduce r))
    (hr : m.Reduces c r rule frames below (.ok reply)) : ∃ d, m.Acted c s r frames reply d ∧
      m.step c = m.follow r rule (spread (m.gap c) frames) reply d :=
  ⟨_, acted_called m c s r rule frames reply, step_of_answer_eq h hr⟩

theorem step_of_accept (h : m.Decides c f s (.reduce r))
    (hr : m.Reduces c r rule frames below (.ok reply)) (hc : reply.control = .proceed)
    (haccept : r = m.tables.acceptRule) :
    ∃ d, m.Acted c s r frames reply d ∧ m.step c = .error ⟨.accepted reply.value, d⟩ := by
  obtain ⟨d, hd, hstep⟩ := step_of_answer h hr
  refine ⟨d, hd, ?_⟩
  rw [hstep, follow, hc]
  simp only [haccept, if_true]
  rfl

theorem step_of_reduce (h : m.Decides c f s (.reduce r))
    (hr : m.Reduces c r rule frames (g :: below) (.ok reply)) (hc : reply.control = .proceed)
    (hother : r ≠ m.tables.acceptRule) (hs : m.tables.state g.state = .ok s')
    (hroom : below.length + 1 < m.maxDepth) : ∃ d st, m.Acted c s r frames reply d ∧
      m.step c = .ok (turned { d with stack := st }) ∧
      st.items = ⟨(s'.gotoFor rule.lhs).getD g.state, reply.value, spread (m.gap c) frames⟩ ::
        g :: below := by
  obtain ⟨d, hd, hstep⟩ := step_of_answer h hr
  have hitems : d.stack.items = frames.reverse ++ g :: below := by rw [hd.stack, hr.items]
  refine ⟨d.emit (.folded frames.length ⟨(s'.gotoFor rule.lhs).getD g.state, reply.value,
    spread (m.gap c) frames⟩), (d.stack.drop frames.length).push
      ⟨(s'.gotoFor rule.lhs).getD g.state, reply.value, spread (m.gap c) frames⟩, hd.folded, ?_, ?_⟩
  · rw [hstep, follow, hc]
    simp only [if_neg hother]
    rw [← hr.length, goto_of_lt hitems hs hroom]
  · rw [FrameStack.items_push, (discard_frames hitems).1]

end Reduce

/-- What one step of a parse does, whatever the tables, the scanner and the actions are. -/
theorem step_turn (m : Machine σ α V S φ) (c : Config σ α V S) : m.Turn c (m.step c) := by
  cases phase : c.phase with
  | skipping force =>
    rw [step, phase]
    exact skip_turn phase
  | deciding =>
    cases hi : c.stack.items with
    | nil =>
      simp only [step, phase, FrameStack.peek_of_nil hi, Config.demand, bind, Except.bind]
      exact .bare hi rfl
    | cons f rest =>
      have htop : c.stack.items.head? = some f := by simp [hi]
      cases hs : m.tables.state f.state with
      | error e =>
        simp only [step, phase, FrameStack.peek_of_cons hi, Config.demand, bind, Except.bind, hs]
        exact .lost htop hs rfl
      | ok s =>
        have decides : m.Decides c f s (Action.decode (s.lookup (m.ahead c))) :=
          ⟨phase, htop, hs, rfl⟩
        rw [step_of_decides decides]
        generalize Action.decode (s.lookup (m.ahead c)) = action at decides
        cases action with
        | shift target =>
          rw [perform]
          by_cases hroom : c.stack.items.length < m.maxDepth
          · obtain ⟨c', hc, hres⟩ := shift_of_lt m c target hroom
            rw [hc]
            exact .shifted decides hroom hres
          · obtain ⟨h, hh, hv, hact, -⟩ := shift_of_le m c target (by omega)
            rw [hh]
            exact .shiftOverflow decides (by omega) hv hact
        | reduce r => exact reduce_turn decides
        | error => exact .failed decides (recover_recovers m c _)

end Step

end Machine

end ShiftReduce
