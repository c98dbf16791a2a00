import ShiftReduce.Proofs.Machine.Reach

namespace ShiftReduce

section Keeps

variable {σ α V S φ β γ ε : Type} {P P' : β → Prop} {R : γ → Prop} {Q Q' : Config σ α V S → Prop}

/-- A computation that gives a result with the first property or halts at a configuration with
the second one. -/
def Keeps (P : β → Prop) (Q : Config σ α V S → Prop) : Except (Halt σ α V S φ) β → Prop
  | .ok b => P b
  | .error h => Q h.config

namespace Keeps

theorem bind {x : Except (Halt σ α V S φ) β} {f : β → Except (Halt σ α V S φ) γ}
    (h : Keeps P Q x) (hf : ∀ b, P b → Keeps R Q (f b)) : Keeps R Q (x >>= f) := by
  cases x with
  | ok b => exact hf b h
  | error e => exact h

theorem imp {x : Except (Halt σ α V S φ) β} (h : Keeps P Q x) (hP : ∀ b, P b → P' b)
    (hQ : ∀ c, Q c → Q' c) : Keeps P' Q' x := by
  cases x with
  | ok b => exact hP b h
  | error e => exact hQ e.config h

/-- A result that is demanded may be used for what it is. -/
theorem demand {c : Config σ α V S} (wrap : ε → Fault φ) (x : Except ε β) (hc : Q c) :
    Keeps (fun b => x = .ok b) Q (c.demand wrap x) := by
  cases x with
  | ok b => rfl
  | error e => exact hc

end Keeps

end Keeps

namespace Machine

variable {σ α V S φ : Type} (m : Machine σ α V S φ) (c : Config σ α V S)

/-- A push halts if the stack is full. -/
theorem push_keeps {Q : Config σ α V S → Prop} (f : Frame V S)
    (hc : m.maxDepth ≤ c.stack.items.length → Q c) :
    Keeps (fun d => d = { c with stack := c.stack.push f } ∧ c.stack.items.length < m.maxDepth) Q
      (m.push c f) := by
  by_cases h : c.stack.items.length < m.maxDepth
  · rw [push_of_lt f h]
    exact ⟨rfl, h⟩
  · rw [push_of_le f (Nat.not_lt.1 h)]
    exact hc (Nat.not_lt.1 h)

section Summoned

def summoned (r : RuleId) (rule : Rule) (frames : List (Frame V S)) : Config σ α V S :=
  if frames.isEmpty then m.fetched (c.emit (.reducing r rule)) else c.emit (.reducing r rule)

def replied (reduction : Reduction V S) (given : V) (reply : Reply α V) : Config σ α V S :=
  ({ c with
    actions := reply.state
    stats := { c.stats with reductions := c.stats.reductions + 1 } }.notes reply.log).emit
    (.reduced reduction given reply.value reply.control)

@[simp] theorem stack_summoned (r : RuleId) (rule : Rule) (frames : List (Frame V S)) :
    (m.summoned c r rule frames).stack = c.stack := by
  unfold summoned
  split <;> simp

@[simp] theorem stack_replied (reduction : Reduction V S) (given : V) (reply : Reply α V) :
    (replied c reduction given reply).stack = c.stack := by
  simp [replied]

@[simp] theorem mode_replied (reduction : Reduction V S) (given : V) (reply : Reply α V) :
    (replied c reduction given reply).mode = c.mode := by
  simp [replied]

@[simp] theorem phase_replied (reduction : Reduction V S) (given : V) (reply : Reply α V) :
    (replied c reduction given reply).phase = c.phase := by
  simp [replied]

theorem trace_replied (reduction : Reduction V S) (given : V) (reply : Reply α V) :
    (replied c reduction given reply).trace =
      .reduced reduction given reply.value reply.control :: (c.notes reply.log).trace := by
  simp [replied, Config.trace_notes]

theorem reduce_eq_follow [Merge S] (r : RuleId) : m.reduce c r = (do
    let rule ← c.demand .index (m.tables.rule r)
    let frames ← (c.emit (.reducing r rule)).demand .stack (c.stack.top rule.length)
    let d := m.summoned c r rule frames
    let reply ← d.demand .action
      (m.actions.reduce (m.reduction c r rule frames) (m.given frames) d.actions)
    m.follow r rule (spread (m.gap c) frames) reply
      (replied d (m.reduction c r rule frames) (m.given frames) reply)) := by
  have hgap (e : Event V S) : m.gap (c.emit e) = m.gap c := by simp [gap]
  simp only [reduce, synthesize_eq, hgap]
  rfl

end Summoned

section Below

def Below (c d : Config σ α V S) : Prop := d.stack.items <:+ c.stack.items

variable {m c} {d : Config σ α V S}

theorem Below.of_stack {e : Config σ α V S} (h : Below c d) (he : e.stack = d.stack) :
    Below c e := by
  rw [Below, he]
  exact h

theorem Below.drop (h : Below c d) (n : Nat) : Below c { d with stack := d.stack.drop n } := by
  rw [Below, FrameStack.items_drop]
  exact (List.drop_suffix n _).trans h

theorem unwind_below {frames : List (Frame V S)} (hd : d.stack.items = frames)
    (h : Below c d) : Keeps (fun x => Below c x.2) (Below c) (m.unwind d frames) := by
  induction frames generalizing d with
  | nil => exact h
  | cons f rest ih =>
    unfold unwind
    refine .bind (.demand .index _ h) fun s _ => ?_
    cases s.shiftTarget? m.tables.errorTerminal with
    | some target => exact h
    | none => exact ih (by simp [hd]) (h.drop 1)

theorem recover_below (h : Below c d) (expected : List Terminal) :
    Keeps (fun _ => True) (Below c) (m.recover d expected) := by
  rw [recover_eq]
  exact .bind (unwind_below rfl (h.of_stack (stack_complained m d expected))) fun x hx =>
    .bind (m.push_keeps _ _ fun _ => hx) fun _ _ => trivial

theorem shift_below (h : Below c d) (target : StateId) :
    Keeps (fun _ => True) (Below c) (m.shift d target) := by
  simp only [shift, fetch_eq]
  exact .bind (m.push_keeps _ _ fun _ => h.of_stack (by simp)) fun _ _ => trivial

theorem goto_below (h : Below c d) (n : Nat) (lhs : Nonterminal) (v : V) (span : S) :
    Keeps (fun _ => True) (Below c) (m.goto d n lhs v span) := by
  unfold goto
  refine .bind (.demand .stack _ h) fun k hk => ?_
  have hbelow : Below c { d with stack := k } := by
    rw [FrameStack.discard] at hk
    split at hk
    · obtain rfl := Except.ok.inj hk
      exact h.drop n
    · simp at hk
  exact .bind (.demand .stack _ hbelow) fun f _ => .bind (.demand .index _ hbelow) fun s _ =>
    .bind (m.push_keeps _ _ fun _ => hbelow) fun _ _ => trivial

theorem skip_below (h : Below c d) (force : Bool) :
    Keeps (fun _ => True) (Below c) (m.skip d force) := by
  unfold skip
  refine .bind (.demand .stack _ h) fun f _ => .bind (.demand .index _ h) fun s _ => ?_
  rw [fetch_eq]
  dsimp only
  repeat' split
  · trivial
  · trivial
  · exact h.of_stack (by simp)
  · trivial

variable [Merge S]

theorem reduce_below (h : Below c d) (r : RuleId) :
    Keeps (fun _ => True) (Below c) (m.reduce d r) := by
  rw [reduce_eq_follow]
  refine .bind (.demand .index _ h) fun rule _ => .bind (.demand .stack _ h) fun frames _ => ?_
  have hsummoned : Below c (m.summoned d r rule frames) := h.of_stack (stack_summoned _ _ _ _ _)
  refine .bind (.demand .action _ hsummoned) fun reply _ => ?_
  have hreplied : Below c (replied (m.summoned d r rule frames) (m.reduction d r rule frames)
    (m.given frames) reply) := hsummoned.of_stack (stack_replied _ _ _ _)
  unfold follow
  cases reply.control with
  | accept => exact hreplied
  | abort => exact hreplied
  | raise => exact recover_below hreplied []
  | proceed =>
    dsimp only
    split
    · exact hreplied
    · exact goto_below hreplied _ _ _ _

/-- A step that ends the parse leaves of the stack what was there below some frame. -/
theorem step_below (c : Config σ α V S) : Keeps (fun _ => True) (Below c) (m.step c) := by
  have refl : Below c c := List.suffix_refl _
  unfold step
  split
  · exact skip_below refl _
  · refine .bind (.demand .stack _ refl) fun f _ => .bind (.demand .index _ refl) fun s _ => ?_
    rw [nextAction_eq]
    have hpoised : Below c (if s.hasLookahead then m.fetched c else c) :=
      refl.of_stack (by split <;> simp)
    cases Action.decode (s.lookup (m.ahead c)) with
    | shift target => exact shift_below hpoised target
    | reduce r => exact reduce_below hpoised r
    | error => exact recover_below hpoised _

end Below

section Start

def begun : Config σ α V S :=
  { c with
    lastSpan := m.scanner.span c.scanner
    lookahead := none
    mode := .normal
    phase := .deciding
    stats := {}
    trace := [] }

theorem start_eq : m.start c =
    m.push (m.begun c) ⟨.start, m.actions.blank, m.scanner.span c.scanner⟩ := rfl

variable {m c}

theorem verdict_of_start_error {h : Halt σ α V S φ} (hs : m.start c = .error h) :
    h.verdict = .failed (.stackOverflow m.maxDepth) := by
  rw [start_eq, push] at hs
  split at hs
  · rw [← Except.error.inj hs]
  · simp at hs

end Start

section Progress

variable [Merge S]

/-- A parse after `n` steps, or at its end if it ends sooner. -/
def progress (m : Machine σ α V S φ) (n : Nat) (c : Config σ α V S) : Halt σ α V S φ :=
  match m.start c with
  | .ok c => m.run n c
  | .error h => h

theorem parse_eq_finish (n : Nat) : m.parse n c = finish (m.progress n c) := rfl

variable {m c} {P Q : Config σ α V S → Prop}

/-- What a step keeps, whether it ends the parse or not, a run keeps. -/
theorem run_keeps (hPQ : ∀ {c}, P c → Q c) (hstep : ∀ {c}, P c → Keeps P Q (m.step c)) (n : Nat)
    (hc : P c) : Q (m.run n c).config := by
  induction n generalizing c with
  | zero => exact hPQ hc
  | succ n ih =>
    have h := hstep hc
    cases hs : m.step c with
    | error e =>
      rw [run_of_step_error hs]
      simpa [Keeps, hs] using h
    | ok d =>
      rw [run_of_step_ok hs]
      exact ih (by simpa [Keeps, hs] using h)

theorem progress_keeps (hstart : Keeps P Q (m.start c)) (hPQ : ∀ {c}, P c → Q c)
    (hstep : ∀ {c}, P c → Keeps P Q (m.step c)) (n : Nat) : Q (m.progress n c).config := by
  unfold progress
  cases hs : m.start c with
  | error e => simpa [Keeps, hs] using hstart
  | ok d => exact run_keeps hPQ hstep n (by simpa [Keeps, hs] using hstart)

/-- A run that has not ended has kept what each step keeps. -/
theorem run_exhausted (hstep : ∀ {c}, P c → Keeps P Q (m.step c)) {n : Nat} (hc : P c)
    (hn : (m.run n c).verdict = .exhausted) : P (m.run n c).config := by
  induction n generalizing c with
  | zero => exact hc
  | succ n ih =>
    have h := hstep hc
    cases hs : m.step c with
    | error e =>
      rw [run_of_step_error hs] at hn
      exact absurd hn (verdict_ne_exhausted hs)
    | ok d =>
      rw [run_of_step_ok hs] at hn ⊢
      exact ih (by simpa [Keeps, hs] using h) hn

theorem progress_exhausted (hstart : Keeps P Q (m.start c))
    (hstep : ∀ {c}, P c → Keeps P Q (m.step c)) {n : Nat}
    (hn : (m.progress n c).verdict = .exhausted) : P (m.progress n c).config := by
  unfold progress at hn ⊢
  cases hs : m.start c with
  | error e => simp [hs, verdict_of_start_error hs] at hn
  | ok d =>
    simp only [hs] at hn ⊢
    exact run_exhausted hstep (by simpa [Keeps, hs] using hstart) hn

theorem run_succ {n : Nat} {d : Config σ α V S} (hd : m.run n c = ⟨.exhausted, d⟩)
    (h : Keeps P P (m.step d)) : P (m.run (n + 1) c).config := by
  induction n generalizing c with
  | zero =>
    obtain rfl := (Halt.mk.inj hd).2
    cases hs : m.step c with
    | error e =>
      rw [run_of_step_error hs]
      rwa [hs] at h
    | ok e =>
      rw [run_of_step_ok hs]
      rwa [hs] at h
  | succ n ih =>
    cases hs : m.step c with
    | error e =>
      rw [run_of_step_error hs] at hd
      exact absurd (congrArg Halt.verdict hd) (verdict_ne_exhausted hs)
    | ok e =>
      rw [run_of_step_ok hs] at hd ⊢
      exact ih hd

/-- A parse that goes on has come, one step later, to what that step leads to. -/
theorem progress_succ {n : Nat} {d : Config σ α V S} (hd : m.progress n c = ⟨.exhausted, d⟩)
    (h : Keeps P P (m.step d)) : P (m.progress (n + 1) c).config := by
  unfold progress at hd ⊢
  cases hs : m.start c with
  | error e =>
    simp only [hs] at hd
    simp [hd] at hs
    exact absurd (verdict_of_start_error hs) (by simp)
  | ok e =>
    simp only [hs] at hd ⊢
    exact run_succ hd h

/-- Where steps lead, a run of as many steps gets. -/
theorem exists_run_of_reaches {d : Config σ α V S} (hr : m.Reaches c d) :
    ∃ n, m.run n c = ⟨.exhausted, d⟩ := by
  induction hr using Relation.ReflTransGen.head_induction_on with
  | refl => exact ⟨0, rfl⟩
  | head hc _ ih =>
    obtain ⟨n, hn⟩ := ih
    exact ⟨n + 1, (run_of_step_ok hc n).trans hn⟩

end Progress

end Machine

end ShiftReduce
