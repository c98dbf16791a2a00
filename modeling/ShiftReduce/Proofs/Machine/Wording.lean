import ShiftReduce.Proofs.Machine.Incidents
import ShiftReduce.Proofs.Machine.Record
import ShiftReduce.Proofs.OrderedMap
import ShiftReduce.Proofs.Tables.Sound

namespace ShiftReduce

namespace State

variable {s : State} {t e : Terminal}

/-- The terminals in the state's table that it has a nonzero cell for, in table order. The terminal
`e` is left out. -/
def wanted (s : State) (e : Terminal) : List Terminal :=
  s.actions.keys.filter fun t => t ≠ e ∧ ∃ c ∈ s.entry t, c ≠ 0

theorem expected_eq_wanted (s : State) (e : Terminal) : s.expected e = s.wanted e := by
  rw [expected, wanted, OrderedMap.keys, List.filter_map]
  congr 1
  refine List.filter_congr fun p hp => ?_
  have hentry : s.entry p.1 = some p.2 := OrderedMap.get?_of_mem hp
  simp [hentry, and_comm]

/-- No terminal that is an error is among them. -/
theorem not_mem_wanted (h : Action.decode (s.lookup t) = .error) : t ∉ s.wanted e := by
  intro hmem
  obtain ⟨-, -, c, hc, hne⟩ : t ∈ s.actions.keys ∧ t ≠ e ∧ ∃ c ∈ s.entry t, c ≠ 0 := by
    simpa [wanted] using hmem
  have hlookup : s.lookup t = c := by rw [lookup, hc, Option.getD_some]
  exact hne (hlookup ▸ Action.decode_eq_error_iff.1 h)

end State

namespace Machine

/-- The names in a row, with commas between them but for `or` before the last one. -/
def choice (names : List String) : String :=
  ", ".intercalate names.dropLast ++ (if 2 ≤ names.length then " or " else "") ++
    names.getLast?.getD ""

def hint (names : List String) : String :=
  if 1 ≤ names.length ∧ names.length ≤ 6 then ", expecting " ++ choice names else ""

theorem choice_cons (a b c : String) (rest : List String) :
    choice (a :: b :: c :: rest) = a ++ ", " ++ choice (b :: c :: rest) := by
  simp [choice, String.append_assoc]

theorem alternatives_eq_choice (names : List String) : alternatives names = choice names := by
  fun_induction alternatives names with
  | case1 => rfl
  | case2 a => simp [choice]
  | case3 a b => simp [choice]
  | case4 a rest hnil hone ih =>
    obtain ⟨b, rest, rfl⟩ := List.exists_cons_of_ne_nil fun h => hnil (h ▸ rfl)
    obtain ⟨c, rest, rfl⟩ := List.exists_cons_of_ne_nil fun h => hone b (h ▸ rfl)
    rw [ih, choice_cons]

variable {σ α V S φ : Type} (m : Machine σ α V S φ) (c : Config σ α V S)

theorem describe_eq (a : α) (t : Terminal) (expected : List Terminal) :
    m.describe a t expected = "syntax error, unexpected " ++ m.terminalName a t ++
      hint (expected.map (m.terminalName a)) := by
  have hlength : (1 ≤ expected.length ∧ expected.length ≤ 6) ↔
      ¬(expected = [] ∨ maxListed < expected.length) := by
    rw [← List.length_eq_zero_iff, maxListed]
    omega
  simp only [describe, hint, List.length_map, hlength, alternatives_eq_choice]
  by_cases hnone : expected = [] ∨ maxListed < expected.length
  · simp [hnone]
  · simp [hnone, String.append_assoc]

section Complaint

variable [Merge S]

/-- What may be said about the token that is next, with the names that the actions have for
terminals at the time. Where the state has an error for it, the terminals that would have done are
named, and the token is none of them. -/
inductive Complaint : String → Prop
  | unexpected {f : Frame V S} {s : State} (decides : m.Decides c f s .error)
      (unwanted : m.ahead c ∉ s.wanted m.tables.errorTerminal) :
      Complaint ("syntax error, unexpected " ++ m.terminalName c.actions (m.ahead c) ++
        hint ((s.wanted m.tables.errorTerminal).map (m.terminalName c.actions)))
  | raised {f : Frame V S} {s : State} {r : RuleId} {rule : Rule} {frames below : List (Frame V S)}
      {reply : Reply α V} (decides : m.Decides c f s (.reduce r))
      (reduces : m.Reduces c r rule frames below (.ok reply)) (raises : reply.control = .raise) :
      Complaint ("syntax error, unexpected " ++ m.terminalName reply.state (m.ahead c))

structure Says (r : String × S) : Prop where
  complaint : m.Complaint c r.1
  span : r.2 = m.scanner.span (m.fetched c).scanner

def Voices (d : Config σ α V S) : Prop :=
  reportsIn d.trace = reportsIn c.trace ∨
    ∃ r, m.Says c r ∧ reportsIn d.trace = reportsIn c.trace ++ [r]

/-- A report that is made in one step of a run. The run is given by how far it has come after so
many steps. -/
structure Utters (walk : Nat → Halt σ α V S φ) (k : Nat) (d : Config σ α V S)
    (told : List (String × S)) (r : String × S) : Prop where
  reached : walk k = ⟨.exhausted, d⟩
  before : reportsIn d.trace = told
  after : reportsIn (walk (k + 1)).config.trace = told ++ [r]
  spoken : m.Says d r

/-- The reports that the first `n` steps from `c` add to those in `told`, each made in one of these
steps, after the ones before it. -/
def Justified (n : Nat) (told added : List (String × S)) : Prop :=
  ∀ before r, before ++ [r] <+: added →
    ∃ k d, k < n ∧ m.Utters (fun k => m.run k c) k d (told ++ before) r

variable {m c} {d : Config σ α V S}

theorem Meets.complaint {a : α} {expected : List Terminal} (h : m.Meets c a expected) :
    m.Complaint c (m.describe a (m.ahead c) expected) := by
  rw [describe_eq]
  cases h with
  | unexpected decides =>
    rw [State.expected_eq_wanted]
    exact .unexpected decides (State.not_mem_wanted decides.action)
  | raised decides reduces raises =>
    have hcomplaint : m.Complaint c _ := .raised decides reduces raises
    simpa [hint] using hcomplaint

/-- A step makes at most one report, about the token that is next. -/
theorem step_voices (m : Machine σ α V S φ) (c : Config σ α V S) :
    Keeps (m.Voices c) (m.Voices c) (m.step c) := by
  obtain ⟨l, hincurs, hkeeps⟩ := step_incurs m c
  have voices (d : Config σ α V S) (h : Tells (told Event.incident? c.trace ++ l) d) :
      m.Voices c d := by
    have hreports := h.reportsIn_eq
    cases hincurs with
    | @met a expected meets =>
      by_cases hmode : c.mode = .normal
      · refine .inr ⟨(m.describe a (m.ahead c) expected, _), ⟨meets.complaint, rfl⟩, ?_⟩
        rw [hreports, outcry, if_pos hmode]
        rfl
      · rw [outcry, if_neg hmode] at hreports
        exact .inl (hreports.trans (List.append_nil _))
    | shifted => exact .inl (hreports.trans (List.append_nil _))
    | nothing => exact .inl (hreports.trans (List.append_nil _))
  exact hkeeps.imp voices voices

theorem Justified.nil {n : Nat} {told : List (String × S)} : m.Justified c n told [] := by
  intro before r hbefore
  simp at hbefore

theorem Justified.cons {n : Nat} {told added : List (String × S)} {r : String × S}
    (hfirst : ∃ k d, k < n ∧ m.Utters (fun k => m.run k c) k d told r)
    (h : m.Justified c n (told ++ [r]) added) : m.Justified c n told (r :: added) := by
  intro before q hbefore
  cases before with
  | nil =>
    obtain rfl : q = r := by simpa using hbefore
    rwa [List.append_nil]
  | cons first before =>
    obtain ⟨rfl, hrest⟩ := List.cons_prefix_cons.1 hbefore
    rw [List.append_cons]
    exact h before q hrest

theorem Justified.of_step {n : Nat} {told added : List (String × S)} (hstep : m.step c = .ok d)
    (h : m.Justified d n told added) : m.Justified c (n + 1) told added := by
  have hrun (k : Nat) : m.run (k + 1) c = m.run k d := run_of_step_ok hstep k
  intro before r hbefore
  obtain ⟨k, e, hk, hutters⟩ := h before r hbefore
  refine ⟨k + 1, e, Nat.succ_lt_succ hk, ?_, hutters.before, ?_, hutters.spoken⟩
  · exact (hrun k).trans hutters.reached
  · exact (congrArg (fun h => reportsIn h.config.trace) (hrun (k + 1))).trans hutters.after

/-- What the first step adds comes before what is added later. -/
theorem Voices.justified {n : Nat} {added : List (String × S)} (h : m.Voices c d)
    (hrun : (m.run 1 c).config = d)
    (hadded : m.Justified c (n + 1) (reportsIn d.trace) added) :
    ∃ all, reportsIn d.trace ++ added = reportsIn c.trace ++ all ∧
      m.Justified c (n + 1) (reportsIn c.trace) all := by
  rcases h with hsame | ⟨r, hsays, hone⟩
  · exact ⟨added, by rw [hsame], hsame ▸ hadded⟩
  · have hafter : reportsIn (m.run 1 c).config.trace = reportsIn c.trace ++ [r] := by
      rw [hrun, hone]
    refine ⟨r :: added, by rw [hone, ← List.append_cons], .cons ?_ (hone ▸ hadded)⟩
    exact ⟨0, c, Nat.succ_pos n, rfl, rfl, hafter, hsays⟩

theorem run_justified (n : Nat) (c : Config σ α V S) :
    ∃ added, reportsIn (m.run n c).config.trace = reportsIn c.trace ++ added ∧
      m.Justified c n (reportsIn c.trace) added := by
  induction n generalizing c with
  | zero => exact ⟨[], by simp [run], .nil⟩
  | succ n ih =>
    have hvoices := step_voices m c
    cases hs : m.step c with
    | error h =>
      rw [hs] at hvoices
      have hrun : (m.run 1 c).config = h.config := by rw [run_of_step_error hs]
      rw [run_of_step_error hs]
      simpa using Voices.justified (n := n) hvoices hrun .nil
    | ok d =>
      rw [hs] at hvoices
      have hrun : (m.run 1 c).config = d := by rw [run_of_step_ok hs, run]
      obtain ⟨added, hadded, hjustified⟩ := ih d
      rw [run_of_step_ok hs, hadded]
      exact Voices.justified hvoices hrun (hjustified.of_step hs)

/-- Every report of a parse is made in a step that begins with an unexpected token and is worded by
what stands there. In no state is a token unexpected that is among the wanted ones. The scanner was
called with these reports, and called in no other way than the trace tells. -/
theorem reports_worded (m : Machine σ α V S φ) (c : Config σ α V S) (n : Nat) :
    (∀ before r, before ++ [r] <+: reportsIn (m.parse n c).config.trace →
      ∃ k d, k < n ∧ m.Utters (fun k => m.progress k c) k d before r) ∧
    (∀ (s : State) (t : Terminal), Action.decode (s.lookup t) = .error →
      ∀ e, t ∉ s.wanted e) ∧
    (m.parse n c).config.scanner = (m.account c (m.parse n c).config.trace).scanner := by
  refine ⟨fun before r hbefore => ?_, fun s t ht e => State.not_mem_wanted ht,
    scanner_parse m c n⟩
  have hstart := start_tells m c
  rw [parse_eq_finish, reportsIn_finish, progress] at hbefore
  unfold progress
  cases hs : m.start c with
  | error h =>
    rw [hs] at hstart
    have hnone : reportsIn h.config.trace = [] := Tells.told_eq Event.report?_eq_none hstart
    simp [hs, hnone] at hbefore
  | ok d =>
    rw [hs] at hstart
    have hnone : reportsIn d.trace = [] := Tells.told_eq Event.report?_eq_none hstart
    obtain ⟨added, hadded, hjustified⟩ := run_justified (m := m) n d
    simp only [hs, hadded, hnone, List.nil_append] at hbefore
    simpa [hnone] using hjustified before r hbefore

end Complaint

/-- Tables whose start state has no action for `b`, although it would reduce by default. -/
def picky : Tables where
  rules := #[⟨⟨0⟩, []⟩, ⟨⟨1⟩, []⟩]
  states := #[
    { actions := .ofList [(⟨2⟩, 1), (⟨3⟩, 1), (⟨4⟩, 0), (⟨5⟩, 1), (⟨6⟩, -1)], fallback := -1 },
    { fallback := -1 }]
  terminalNames := #["none", "end", "error", "a", "b", "c", "d"]
  sound := by decide

/-- The state of the actions is their own name for `c`. -/
def picker : Machine (Nat × List (String × ByteRange)) String Unit ByteRange Empty where
  tables := picky
  scanner := {
    next x := (⟨4⟩, (x.1 + 1, x.2), [])
    value x := ((), x)
    span x := ⟨x.1, x.1⟩
    report message span x := ((x.1, x.2 ++ [(message, span)]), [])
    proper _ := (by decide : (⟨4⟩ : Terminal) ≠ .reserved) }
  actions := {
    blank := ()
    reduce _ value state := .ok { value, state }
    rename name t := if t = ⟨5⟩ then some name else none }

theorem reports_worded_picker :
    let c := picker.init (0, []) "see"
    let r := ("syntax error, unexpected b, expecting a, see or d", ⟨1, 1⟩)
    [] ++ [r] <+: reportsIn (picker.parse 1 c).config.trace ∧
      (∃ k d, k < 1 ∧ picker.Utters (fun k => picker.progress k c) k d [] r) ∧
      (picker.parse 1 c).config.scanner =
        (picker.account c (picker.parse 1 c).config.trace).scanner ∧
      (picker.parse 1 c).config.scanner = (1, [r]) ∧
      (⟨4⟩ : Terminal) ∉
        ({ actions := .ofList [(⟨4⟩, 0)], fallback := -1 } : State).wanted ⟨2⟩ := by
  intro c r
  have hreported : [] ++ [r] <+: reportsIn (picker.parse 1 c).config.trace := by decide +kernel
  obtain ⟨hworded, hwanted, hscanner⟩ := reports_worded picker c 1
  exact ⟨hreported, hworded _ _ hreported, hscanner, by decide +kernel, hwanted _ _ (by decide) _⟩

end Machine

end ShiftReduce
