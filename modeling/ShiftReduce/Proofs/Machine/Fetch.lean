import ShiftReduce.Machine.Run

namespace ShiftReduce

namespace Event

variable {V S : Type}

def rule? : Event V S → Option RuleId
  | reduced r .. => some r.ruleId
  | _ => none

def report? : Event V S → Option (String × S)
  | reported message span => some (message, span)
  | _ => none

end Event

section Trace

variable {V S : Type}

/-- The rules that the semantic actions were called for, the oldest call first. -/
def rulesIn (trace : List (Event V S)) : List RuleId := trace.reverse.filterMap Event.rule?

def reportsIn (trace : List (Event V S)) : List (String × S) :=
  trace.reverse.filterMap Event.report?

@[simp] theorem rulesIn_cons (e : Event V S) (trace : List (Event V S)) :
    rulesIn (e :: trace) = rulesIn trace ++ e.rule?.toList := by
  cases h : e.rule? <;> simp [rulesIn, h]

@[simp] theorem reportsIn_cons (e : Event V S) (trace : List (Event V S)) :
    reportsIn (e :: trace) = reportsIn trace ++ e.report?.toList := by
  cases h : e.report? <;> simp [reportsIn, h]

end Trace

namespace Config

variable {σ α V S : Type}

@[simp] theorem trace_emit (c : Config σ α V S) (e : Event V S) :
    (c.emit e).trace = e :: c.trace := rfl

/-- Taking over log lines changes nothing but the trace. -/
theorem notes_eq (c : Config σ α V S) (lines : List LogLine) :
    c.notes lines = { c with trace := (c.notes lines).trace } := by
  induction lines generalizing c with
  | nil => rfl
  | cons l rest ih =>
    simp only [notes, List.foldl_cons] at ih ⊢
    rw [ih]
    rfl

theorem notes_cons (c : Config σ α V S) (l : LogLine) (rest : List LogLine) :
    c.notes (l :: rest) = (c.emit (.note l)).notes rest := rfl

theorem trace_notes (c : Config σ α V S) (lines : List LogLine) :
    (c.notes lines).trace = lines.reverse.map .note ++ c.trace := by
  induction lines generalizing c with
  | nil => rfl
  | cons l rest ih => rw [notes_cons, ih, trace_emit]; simp

@[simp] theorem rulesIn_notes (c : Config σ α V S) (lines : List LogLine) :
    rulesIn (c.notes lines).trace = rulesIn c.trace := by
  induction lines generalizing c with
  | nil => rfl
  | cons l rest ih => rw [notes_cons, ih, trace_emit, rulesIn_cons]; simp [Event.rule?]

@[simp] theorem reportsIn_notes (c : Config σ α V S) (lines : List LogLine) :
    reportsIn (c.notes lines).trace = reportsIn c.trace := by
  induction lines generalizing c with
  | nil => rfl
  | cons l rest ih => rw [notes_cons, ih, trace_emit, reportsIn_cons]; simp [Event.report?]

section Fields

variable (c : Config σ α V S) (lines : List LogLine) (e : Event V S)

@[simp] theorem scanner_notes : (c.notes lines).scanner = c.scanner := by rw [notes_eq]
@[simp] theorem actions_notes : (c.notes lines).actions = c.actions := by rw [notes_eq]
@[simp] theorem lastSpan_notes : (c.notes lines).lastSpan = c.lastSpan := by rw [notes_eq]
@[simp] theorem stack_notes : (c.notes lines).stack = c.stack := by rw [notes_eq]
@[simp] theorem lookahead_notes : (c.notes lines).lookahead = c.lookahead := by rw [notes_eq]
@[simp] theorem mode_notes : (c.notes lines).mode = c.mode := by rw [notes_eq]
@[simp] theorem phase_notes : (c.notes lines).phase = c.phase := by rw [notes_eq]
@[simp] theorem stats_notes : (c.notes lines).stats = c.stats := by rw [notes_eq]

@[simp] theorem scanner_emit : (c.emit e).scanner = c.scanner := rfl
@[simp] theorem actions_emit : (c.emit e).actions = c.actions := rfl
@[simp] theorem lastSpan_emit : (c.emit e).lastSpan = c.lastSpan := rfl
@[simp] theorem stack_emit : (c.emit e).stack = c.stack := rfl
@[simp] theorem lookahead_emit : (c.emit e).lookahead = c.lookahead := rfl
@[simp] theorem mode_emit : (c.emit e).mode = c.mode := rfl
@[simp] theorem phase_emit : (c.emit e).phase = c.phase := rfl
@[simp] theorem stats_emit : (c.emit e).stats = c.stats := rfl

end Fields

end Config

/-- Reads a list of terminals, at the places that they have in it, and after them the end terminal
of the tables. -/
def Scanner.reciting (T : Tables) (ts : List Terminal) (h : .reserved ∉ ts) :
    Scanner Nat Unit ByteRange where
  next x := (ts.getD x T.endTerminal, x + 1, [])
  value x := ((), x)
  span x := ⟨x, x⟩
  report _ _ x := (x, [])
  proper x := by
    rw [List.getD_eq_getElem?_getD]
    cases hx : ts[x]? with
    | none => exact T.endTerminal_ne_reserved
    | some t => exact fun ht => h (ht ▸ List.mem_of_getElem? hx)

namespace Machine

variable {σ α V S φ : Type} (m : Machine σ α V S φ) (c : Config σ α V S)

/-- The terminal that comes next, whether it has been read yet or not. -/
def ahead : Terminal := (m.fetch c).1

def fetched : Config σ α V S := (m.fetch c).2

theorem fetch_eq : m.fetch c = (m.ahead c, m.fetched c) := rfl

variable {m c}

theorem ahead_of_some {t : Terminal} (h : c.lookahead = some t) : m.ahead c = t := by
  simp [ahead, fetch, h]

theorem fetched_of_some {t : Terminal} (h : c.lookahead = some t) : m.fetched c = c := by
  simp [fetched, fetch, h]

theorem ahead_of_none (h : c.lookahead = none) :
    m.ahead c = (m.scanner.next c.scanner).1 := by
  simp [ahead, fetch, h]

theorem scanner_fetched_of_none (h : c.lookahead = none) :
    (m.fetched c).scanner = (m.scanner.next c.scanner).2.1 := by
  simp [fetched, fetch, h]

variable (m c)

@[simp] theorem lookahead_fetched : (m.fetched c).lookahead = some (m.ahead c) := by
  cases h : c.lookahead with
  | none => simp [ahead, fetched, fetch, h]
  | some t => rw [fetched_of_some h, ahead_of_some h, h]

@[simp] theorem ahead_fetched : m.ahead (m.fetched c) = m.ahead c :=
  ahead_of_some (lookahead_fetched m c)

@[simp] theorem fetched_fetched : m.fetched (m.fetched c) = m.fetched c :=
  fetched_of_some (lookahead_fetched m c)

@[simp] theorem stack_fetched : (m.fetched c).stack = c.stack := by
  cases h : c.lookahead <;> simp [fetched, fetch, h]

@[simp] theorem actions_fetched : (m.fetched c).actions = c.actions := by
  cases h : c.lookahead <;> simp [fetched, fetch, h]

@[simp] theorem mode_fetched : (m.fetched c).mode = c.mode := by
  cases h : c.lookahead <;> simp [fetched, fetch, h]

@[simp] theorem phase_fetched : (m.fetched c).phase = c.phase := by
  cases h : c.lookahead <;> simp [fetched, fetch, h]

@[simp] theorem shifts_fetched : (m.fetched c).stats.shifts = c.stats.shifts := by
  cases h : c.lookahead <;> simp [fetched, fetch, h]

@[simp] theorem reductions_fetched : (m.fetched c).stats.reductions = c.stats.reductions := by
  cases h : c.lookahead <;> simp [fetched, fetch, h]

@[simp] theorem errors_fetched : (m.fetched c).stats.errors = c.stats.errors := by
  cases h : c.lookahead <;> simp [fetched, fetch, h]

@[simp] theorem discarded_fetched : (m.fetched c).stats.discarded = c.stats.discarded := by
  cases h : c.lookahead <;> simp [fetched, fetch, h]

@[simp] theorem rulesIn_fetched : rulesIn (m.fetched c).trace = rulesIn c.trace := by
  cases h : c.lookahead <;> simp [fetched, fetch, h, Event.rule?]

@[simp] theorem reportsIn_fetched : reportsIn (m.fetched c).trace = reportsIn c.trace := by
  cases h : c.lookahead <;> simp [fetched, fetch, h, Event.report?]

variable {m c}

/-- What is read depends on the scanner and on the buffered token only. -/
theorem ahead_congr {d : Config σ α V S} (hs : d.scanner = c.scanner)
    (hl : d.lookahead = c.lookahead) : m.ahead d = m.ahead c := by
  cases h : c.lookahead with
  | none => rw [ahead_of_none h, ahead_of_none (hl.trans h), hs]
  | some t => rw [ahead_of_some h, ahead_of_some (hl.trans h)]

theorem scanner_fetched_congr {d : Config σ α V S} (hs : d.scanner = c.scanner)
    (hl : d.lookahead = c.lookahead) : (m.fetched d).scanner = (m.fetched c).scanner := by
  cases h : c.lookahead with
  | none => rw [scanner_fetched_of_none h, scanner_fetched_of_none (hl.trans h), hs]
  | some t => rw [fetched_of_some h, fetched_of_some (hl.trans h), hs]

section Emit

variable (m c) (e : Event V S)

@[simp] theorem ahead_emit : m.ahead (c.emit e) = m.ahead c := ahead_congr rfl rfl

@[simp] theorem scanner_fetched_emit :
    (m.fetched (c.emit e)).scanner = (m.fetched c).scanner := scanner_fetched_congr rfl rfl

@[simp] theorem lastSpan_fetched_emit :
    (m.fetched (c.emit e)).lastSpan = (m.fetched c).lastSpan := by
  cases h : c.lookahead <;> simp [fetched, fetch, h]

@[simp] theorem stats_fetched_emit : (m.fetched (c.emit e)).stats = (m.fetched c).stats := by
  cases h : c.lookahead <;> simp [fetched, fetch, h]

end Emit

section Turned

variable (c : Config σ α V S) (s : StateId)

@[simp] theorem scanner_turned : (turned c).scanner = c.scanner := rfl
@[simp] theorem actions_turned : (turned c).actions = c.actions := rfl
@[simp] theorem stack_turned : (turned c).stack = c.stack := rfl
@[simp] theorem lookahead_turned : (turned c).lookahead = c.lookahead := rfl
@[simp] theorem mode_turned : (turned c).mode = c.mode := rfl
@[simp] theorem phase_turned : (turned c).phase = c.phase := rfl
@[simp] theorem stats_turned : (turned c).stats = c.stats := rfl
@[simp] theorem rulesIn_turned : rulesIn (turned c).trace = rulesIn c.trace := by
  simp [turned, Event.rule?]
@[simp] theorem reportsIn_turned : reportsIn (turned c).trace = reportsIn c.trace := by
  simp [turned, Event.report?]

@[simp] theorem scanner_resynchronized : (resynchronized c s).scanner = c.scanner := rfl
@[simp] theorem actions_resynchronized : (resynchronized c s).actions = c.actions := rfl
@[simp] theorem stack_resynchronized : (resynchronized c s).stack = c.stack := rfl
@[simp] theorem lookahead_resynchronized : (resynchronized c s).lookahead = c.lookahead := rfl
@[simp] theorem mode_resynchronized : (resynchronized c s).mode = c.mode := rfl
@[simp] theorem phase_resynchronized : (resynchronized c s).phase = .deciding := rfl
@[simp] theorem stats_resynchronized : (resynchronized c s).stats = c.stats := rfl

@[simp] theorem ahead_turned : m.ahead (turned c) = m.ahead c := ahead_congr rfl rfl
@[simp] theorem ahead_resynchronized : m.ahead (resynchronized c s) = m.ahead c :=
  ahead_congr rfl rfl

end Turned

end Machine

end ShiftReduce
