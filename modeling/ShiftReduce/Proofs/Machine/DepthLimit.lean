import ShiftReduce.Proofs.Machine.Growth

namespace ShiftReduce.Machine

variable {σ α V S φ : Type}

section Ends

variable [Merge S] {m : Machine σ α V S φ} {c : Config σ α V S} {n k : Nat}

/-- A parse that ends because its stack is full ends at the limit. -/
theorem limit_of_step {h : Halt σ α V S φ} (hs : m.step c = .error h) {l : Nat}
    (hv : h.verdict = .failed (.stackOverflow l)) : l = m.maxDepth := by
  have recovers {d : Config σ α V S} {expected : List Terminal}
      (hrec : m.Recovers d expected (.error h)) : l = m.maxDepth := by
    cases hrec <;> simp_all
  cases turn_of_error hs with
  | failed _ hrec => exact recovers hrec
  | raised _ _ _ _ hrec => exact recovers hrec
  | _ => simp_all

theorem limit_of_progress {l : Nat} (h : (m.progress n c).verdict = .failed (.stackOverflow l)) :
    l = m.maxDepth := by
  unfold progress at h
  cases hs : m.start c with
  | error e =>
    rw [hs, verdict_of_start_error hs] at h
    simpa using h.symm
  | ok d =>
    rw [hs] at h
    have hends : (m.run n d).verdict ≠ .exhausted := by simp [h]
    obtain ⟨c', -, hc'⟩ := exists_reaches_of_run hends
    exact limit_of_step hc' h

end Ends

def limitedTo (m : Machine σ α V S φ) (d : Nat) : Machine σ α V S φ := { m with maxDepth := d }

section CutShort

variable {m : Machine σ α V S φ} {d d' : Nat}

theorem nextAction_limitedTo (c : Config σ α V S) (s : State) :
    (m.limitedTo d).nextAction c s = m.nextAction c s := rfl

theorem unwind_limitedTo (c : Config σ α V S) (frames : List (Frame V S)) :
    (m.limitedTo d).unwind c frames = m.unwind c frames := by
  induction frames generalizing c with
  | nil => rfl
  | cons f rest ih =>
    simp only [unwind, ih]
    rfl

/-- What comes of one computation under two limits on the depth of the stack. They come to the same
until a push meets the lower limit; there the stack gets deeper than that, or it meets the higher
limit too. -/
inductive CutShort (d d' : Nat) : Except (Halt σ α V S φ) (Config σ α V S) →
    Except (Halt σ α V S φ) (Config σ α V S) → Prop
  | same (x : Except (Halt σ α V S φ) (Config σ α V S)) : CutShort d d' x x
  | full (c : Config σ α V S) : CutShort d d' (.error ⟨.failed (.stackOverflow d), c⟩)
      (.error ⟨.failed (.stackOverflow d'), c⟩)
  | deeper {c c' : Config σ α V S} (deep : d < c'.stack.items.length)
      (grows : c.trace <:+ c'.trace) :
      CutShort d d' (.error ⟨.failed (.stackOverflow d), c⟩) (.ok c')

theorem push_cutShort (h : d ≤ d') (c : Config σ α V S) (f : Frame V S) :
    CutShort d d' ((m.limitedTo d).push c f) ((m.limitedTo d').push c f) := by
  by_cases hlow : c.stack.items.length < d
  · have hhigh : c.stack.items.length < d' := Nat.lt_of_lt_of_le hlow h
    rw [push_of_lt f hlow, push_of_lt f hhigh]
    exact .same _
  · have hfull : d ≤ c.stack.items.length := Nat.not_lt.1 hlow
    rw [push_of_le f hfull]
    by_cases hhigh : c.stack.items.length < d'
    · rw [push_of_lt f hhigh]
      refine .deeper ?_ (List.suffix_refl _)
      rw [FrameStack.items_push, List.length_cons]
      exact Nat.lt_succ_of_le hfull
    · rw [push_of_le f (Nat.not_lt.1 hhigh)]
      exact .full c

namespace CutShort

variable {β : Type} {x y : Except (Halt σ α V S φ) (Config σ α V S)}

/-- What comes before the push does not depend on the limit. -/
theorem bind (z : Except (Halt σ α V S φ) β)
    {f g : β → Except (Halt σ α V S φ) (Config σ α V S)}
    (h : ∀ b, z = .ok b → CutShort d d' (f b) (g b)) : CutShort d d' (z >>= f) (z >>= g) := by
  cases hz : z with
  | ok b => exact h b hz
  | error e => exact .same _

/-- What comes after it leaves the stack as it is. -/
theorem map (h : CutShort d d' x y) {f : Config σ α V S → Config σ α V S}
    (hstack : ∀ c, (f c).stack = c.stack) (hgrows : ∀ c, Grows c (f c)) :
    CutShort d d' (x >>= fun c => .ok (f c)) (y >>= fun c => .ok (f c)) := by
  cases h with
  | same => exact .same _
  | full c => exact .full c
  | deeper deep grows => exact .deeper (by rwa [hstack]) (grows.trans (hgrows _).suffix)

theorem shift (h : d ≤ d') (c : Config σ α V S) (target : StateId) :
    CutShort d d' ((m.limitedTo d).shift c target) ((m.limitedTo d').shift c target) := by
  simp only [Machine.shift, fetch_eq]
  refine (push_cutShort h _ _).map (fun c => ?_) fun c => ?_
  · rw [stack_turned, (countShift_alike _).2.1]
    rfl
  · exact Grows.turned (Grows.countShift (Grows.emit (x := .shifted _ _)
      ((Grows.refl c).of_trace rfl) rfl))

theorem recover (h : d ≤ d') (c : Config σ α V S) (expected : List Terminal) :
    CutShort d d' ((m.limitedTo d).recover c expected) ((m.limitedTo d').recover c expected) := by
  rw [recover_eq, recover_eq, unwind_limitedTo, unwind_limitedTo]
  refine .bind _ fun x _ => (push_cutShort h _ _).map (fun c => rfl) fun c => ?_
  exact ((Grows.refl c).emit (x := .caught _) rfl).of_trace rfl

theorem goto (h : d ≤ d') (c : Config σ α V S) (n : Nat) (lhs : Nonterminal) (v : V) (span : S) :
    CutShort d d' ((m.limitedTo d).goto c n lhs v span) ((m.limitedTo d').goto c n lhs v span) := by
  unfold Machine.goto
  refine .bind _ fun k _ => .bind _ fun f _ => .bind _ fun s _ => ?_
  exact (push_cutShort h _ _).map (fun c => rfl) fun c => ((Grows.refl c).emit rfl).turned

theorem follow (h : d ≤ d') (r : RuleId) (rule : Rule) (span : S) (reply : Reply α V)
    (c : Config σ α V S) : CutShort d d' ((m.limitedTo d).follow r rule span reply c)
      ((m.limitedTo d').follow r rule span reply c) := by
  unfold Machine.follow
  cases reply.control with
  | accept => exact .same _
  | abort => exact .same _
  | raise => exact .recover h c []
  | proceed =>
    by_cases hr : r = m.tables.acceptRule
    · dsimp only
      rw [if_pos (c := r = (m.limitedTo d).tables.acceptRule) hr,
        if_pos (c := r = (m.limitedTo d').tables.acceptRule) hr]
      exact .same _
    · dsimp only
      rw [if_neg (c := r = (m.limitedTo d).tables.acceptRule) hr,
        if_neg (c := r = (m.limitedTo d').tables.acceptRule) hr]
      exact .goto h c _ _ _ _

theorem start (h : d ≤ d') (c : Config σ α V S) :
    CutShort d d' ((m.limitedTo d).start c) ((m.limitedTo d').start c) := push_cutShort h _ _

variable [Merge S]

theorem reduce (h : d ≤ d') (c : Config σ α V S) (r : RuleId) :
    CutShort d d' ((m.limitedTo d).reduce c r) ((m.limitedTo d').reduce c r) := by
  rw [reduce_eq_follow, reduce_eq_follow]
  exact .bind _ fun rule _ => .bind _ fun frames _ => .bind _ fun reply _ => .follow h _ _ _ _ _

theorem step (h : d ≤ d') (c : Config σ α V S) :
    CutShort d d' ((m.limitedTo d).step c) ((m.limitedTo d').step c) := by
  unfold Machine.step
  split
  · exact .same _
  · refine .bind _ fun f _ => .bind _ fun s _ => ?_
    rw [nextAction_limitedTo, nextAction_limitedTo, nextAction_eq]
    cases Action.decode (s.lookup (m.ahead c)) with
    | shift target => exact .shift h _ target
    | reduce r => exact .reduce h _ r
    | error => exact .recover h _ _

end CutShort

end CutShort

section Runs

variable [Merge S] {m : Machine σ α V S φ} {d d' n k : Nat} {c : Config σ α V S}

/-- How a run under the limit `d` stands to the same run under the limit `d'`. -/
theorem run_cutShort (h : d ≤ d') (c : Config σ α V S) (n : Nat) :
    (m.limitedTo d).run n c = (m.limitedTo d').run n c ∨
      ((m.limitedTo d).run n c).verdict = .failed (.stackOverflow d) ∧
      ((m.limitedTo d).run n c).config.trace <:+ ((m.limitedTo d').run n c).config.trace ∧
      ((∃ k ≤ n, d < ((m.limitedTo d').run k c).config.stack.items.length) ∨
        ((m.limitedTo d').run n c).verdict = .failed (.stackOverflow d')) := by
  -- The runs share their steps up to the one in which a push meets the lower limit.
  induction n generalizing c with
  | zero => exact Or.inl rfl
  | succ n ih =>
    have hcut := CutShort.step (m := m) h c
    generalize hlow : (m.limitedTo d).step c = x at hcut
    generalize hhigh : (m.limitedTo d').step c = y at hcut
    cases hcut with
    | full e =>
      refine Or.inr ?_
      rw [run_of_step_error hlow, run_of_step_error hhigh]
      exact ⟨rfl, List.suffix_refl _, Or.inr rfl⟩
    | @deeper e e' deep grows =>
      refine Or.inr ?_
      rw [run_of_step_error hlow, run_of_step_ok hhigh]
      have hlater : e'.trace <:+ ((m.limitedTo d').run n e').config.trace :=
        run_suffix _ e' (Nat.zero_le n)
      refine ⟨rfl, grows.trans hlater, Or.inl ⟨1, by omega, ?_⟩⟩
      rw [run_of_step_ok hhigh]
      exact deep
    | same =>
      cases x with
      | error e =>
        rw [run_of_step_error hlow, run_of_step_error hhigh]
        exact Or.inl rfl
      | ok e =>
        rw [run_of_step_ok hlow, run_of_step_ok hhigh]
        rcases ih e with heq | ⟨hverdict, htrace, hdeep⟩
        · exact Or.inl heq
        · refine Or.inr ⟨hverdict, htrace, hdeep.imp_left ?_⟩
          rintro ⟨k, hk, hdeep⟩
          refine ⟨k + 1, Nat.succ_le_succ hk, ?_⟩
          rwa [run_of_step_ok hhigh]

theorem progress_cutShort (h : d ≤ d') (c : Config σ α V S) (n : Nat) :
    (m.limitedTo d).progress n c = (m.limitedTo d').progress n c ∨
      ((m.limitedTo d).progress n c).verdict = .failed (.stackOverflow d) ∧
      ((m.limitedTo d).progress n c).config.trace <:+
        ((m.limitedTo d').progress n c).config.trace ∧
      ((∃ k ≤ n, d < ((m.limitedTo d').progress k c).config.stack.items.length) ∨
        ((m.limitedTo d').progress n c).verdict = .failed (.stackOverflow d')) := by
  have hcut := CutShort.start (m := m) h c
  unfold progress
  generalize (m.limitedTo d).start c = x at hcut ⊢
  generalize (m.limitedTo d').start c = y at hcut ⊢
  cases hcut with
  | full e => exact Or.inr ⟨rfl, List.suffix_refl _, Or.inr rfl⟩
  | @deeper e e' deep grows =>
    refine Or.inr ⟨rfl, grows.trans ?_, Or.inl ⟨0, Nat.zero_le n, deep⟩⟩
    exact run_suffix _ e' (Nat.zero_le n)
  | same =>
    cases x with
    | error e => exact Or.inl rfl
    | ok e => exact run_cutShort h e n

/-- A limit on the depth of the stack cuts a parse short and does not change it: a parse that does
not meet the limit is the same under every higher one, and one that meets it has made the first of
the calls that are made under a higher limit, where the stack gets deeper or is full again. -/
theorem limit_only_cuts (m : Machine σ α V S φ) (c : Config σ α V S) (n : Nat) (h : d ≤ d') :
    ((∀ l, ((m.limitedTo d).parse n c).verdict ≠ .failed (.stackOverflow l)) →
      (m.limitedTo d').parse n c = (m.limitedTo d).parse n c) ∧
    ∀ l, ((m.limitedTo d).parse n c).verdict = .failed (.stackOverflow l) → l = d ∧ ∀ k ≥ n,
      told Event.callback? ((m.limitedTo d).parse n c).config.trace <+:
        told Event.callback? ((m.limitedTo d').parse k c).config.trace ∧
      ((∃ i ≤ n, d < ((m.limitedTo d').progress i c).config.stack.depth) ∨
        ((m.limitedTo d').parse k c).verdict = .failed (.stackOverflow d')) := by
  simp only [parse_eq_finish, verdict_finish, callbacks_finish]
  have hcut := progress_cutShort (m := m) h c n
  refine ⟨fun hends => ?_, fun l hfull => ?_⟩
  · rcases hcut with heq | ⟨hverdict, -, -⟩
    · rw [heq]
    · exact absurd hverdict (hends d)
  · obtain rfl : l = d := limit_of_progress hfull
    refine ⟨rfl, fun k hk => ?_⟩
    have hhigher : (((m.limitedTo d').progress n c).verdict = .failed (.stackOverflow d')) →
        ((m.limitedTo d').progress k c).verdict = .failed (.stackOverflow d') := by
      intro hv
      rw [progress_of_le (by simp [hv]) hk, hv]
    rcases hcut with heq | ⟨-, htrace, hdeep⟩
    · have hv := hfull
      rw [heq] at hv
      obtain rfl : l = d' := limit_of_progress hv
      exact ⟨told_isPrefix _ (progress_suffix _ c hk), Or.inr (hhigher hv)⟩
    · refine ⟨told_isPrefix _ (htrace.trans (progress_suffix _ c hk)), hdeep.imp ?_ hhigher⟩
      rintro ⟨i, hi, hdeep⟩
      exact ⟨i, hi, by rwa [FrameStack.depth_eq]⟩

end Runs

def hoarding : Tables where
  rules := #[⟨⟨0⟩, []⟩, ⟨⟨1⟩, []⟩]
  states := #[{ actions := .ofList [(⟨3⟩, 1)] }, { actions := .ofList [(⟨3⟩, 1)] }]
  sound := by decide

def hoarder : Machine Nat Unit Unit ByteRange Empty where
  tables := hoarding
  scanner := .reciting hoarding [⟨3⟩, ⟨3⟩, ⟨3⟩] (by decide)
  actions := { blank := (), reduce := fun _ value state => .ok { value, state } }

theorem limit_only_cuts_hoarder : 2 ≤ 3 ∧
    ((hoarder.limitedTo 2).parse 9 (hoarder.init 0 ())).verdict = .failed (.stackOverflow 2) ∧
    ((hoarder.limitedTo 3).parse 9 (hoarder.init 0 ())).verdict = .failed (.stackOverflow 3) ∧
    told Event.callback? ((hoarder.limitedTo 2).parse 9 (hoarder.init 0 ())).config.trace <+:
      told Event.callback? ((hoarder.limitedTo 3).parse 9 (hoarder.init 0 ())).config.trace := by
  have hfull : ((hoarder.limitedTo 2).parse 9 (hoarder.init 0 ())).verdict =
      .failed (.stackOverflow 2) := by decide
  have hcuts := limit_only_cuts hoarder (hoarder.init 0 ()) 9 (show 2 ≤ 3 by decide)
  exact ⟨by decide, hfull, by decide, ((hcuts.2 2 hfull).2 9 (Nat.le_refl 9)).1⟩

end ShiftReduce.Machine
