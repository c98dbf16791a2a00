import ShiftReduce.Proofs.Machine.Recovery

namespace ShiftReduce

section Trace

variable {V S : Type} {e : Event V S}

theorem reportsIn_quiet (h : e.quiet = true) (past : List (Event V S)) :
    reportsIn (e :: past) = reportsIn past := by
  cases e <;> simp_all [Event.quiet, Event.report?]

theorem told_shift?_quiet (h : e.quiet = true) (past : List (Event V S)) :
    told Event.shift? (e :: past) = told Event.shift? past := by
  cases e <;> simp_all [Event.quiet, Event.shift?]

end Trace

namespace Machine

variable {σ α V S φ : Type} [Merge S] {m : Machine σ α V S φ} {c : Config σ α V S}
  {trace : List (Event V S)}

/-- The first error is reported. -/
theorem Chronicle.reportsIn_eq_nil_iff (h : m.Chronicle c trace) :
    reportsIn trace = [] ↔ shiftsSinceError trace = none := by
  induction h with
  | @muted past t _ _ known ih =>
    have hhurt : shiftsSinceError past ≠ none := fun hn => known (by simp [Due, hn])
    simp [shiftsSinceError, Event.report?, ih, hhurt]
  | quiet _ quiet ih => rw [shiftsSinceError_quiet quiet, reportsIn_quiet quiet, ih]
  | empty => simp [reportsIn, shiftsSinceError]
  | _ => simp_all [shiftsSinceError, Event.report?]

/-- Between two reports enough tokens are shifted to end the recovery. -/
theorem Chronicle.reports_spaced (h : m.Chronicle c trace) :
    ∀ k ∈ shiftsSinceError trace, 5 * (reportsIn trace).length + k ≤
      (told Event.shift? trace).length + 5 := by
  induction h with
  | @shifted past t target _ _ _ ih =>
    intro k hk
    obtain ⟨j, hj, rfl⟩ : ∃ j, shiftsSinceError past = some j ∧ j + 1 = k := by
      simpa [shiftsSinceError] using hk
    have hspaced := ih j hj
    simp [Event.report?, Event.shift?]
    omega
  | @muted past t _ _ known ih =>
    intro k hk
    obtain rfl : 0 = k := by simpa [shiftsSinceError] using hk
    cases hlast : shiftsSinceError past with
    | none => exact absurd (by simp [Due, hlast]) known
    | some j =>
      have hspaced := ih j hlast
      simp [Event.report?, Event.shift?]
      omega
  | @complained past t message history _ due ih =>
    intro k hk
    obtain rfl : 0 = k := by simpa [shiftsSinceError] using hk
    -- The tokens shifted since the last error pay for this report.
    have hroom : 5 * (reportsIn past).length ≤ (told Event.shift? past).length := by
      cases hlast : shiftsSinceError past with
      | none => simp [history.reportsIn_eq_nil_iff.2 hlast]
      | some j =>
        have hspaced := ih j hlast
        have henough := due j hlast
        omega
    simp [Event.report?, Event.shift?, Nat.mul_add, hroom]
  | quiet _ quiet ih =>
    rw [shiftsSinceError_quiet quiet, reportsIn_quiet quiet, told_shift?_quiet quiet]
    exact ih
  | empty => simp [shiftsSinceError]
  | _ => simp_all [shiftsSinceError, Event.report?, Event.shift?]

variable (m) in
/-- What was said about the errors of a parse that was started in `c` and has come to `d`. -/
structure ErrorsReported (c d : Config σ α V S) : Prop where
  /-- The scanner was called as the trace tells and in no other way. -/
  scanner : d.scanner = (m.account c d.trace).scanner
  /-- An error is met at the buffered token. It is reported at once if it is due and never if it
  is not. -/
  due : ∀ {t span past}, .stuck t span :: past <:+ d.trace →
    (m.account c past).lookahead = some t ∧
      span = m.scanner.span (m.account c past).scanner ∧
      (Due past ↔ ∃ message, .reported message span :: .stuck t span :: past <:+ d.trace)
  /-- Nothing else is reported. -/
  reported : ∀ {message span past}, .reported message span :: past <:+ d.trace →
    ∃ t past', past = .stuck t span :: past'
  errors : d.stats.errors = (told Event.error? d.trace).length
  shifts : d.stats.shifts = (told Event.shift? d.trace).length
  some_iff : reportsIn d.trace ≠ [] ↔ 0 < d.stats.errors
  count_le : (reportsIn d.trace).length ≤ 1 + d.stats.shifts / 5

/-- An error is reported exactly when it is the first one of the parse or five tokens at least were
shifted since the last one, whether that was reported or not, whatever the tables, the scanner and
the actions do. It is told of in the step that meets it, once, and in no other step. -/
theorem errors_reported (m : Machine σ α V S φ) (c : Config σ α V S) (n : Nat) :
    m.ErrorsReported c (m.progress n c).config ∧
      ∀ d, m.progress n c = ⟨.exhausted, d⟩ → (d.mode = .normal ↔ Due d.trace) ∧
        ∃ l, m.Incurs d l ∧ told Event.incident? (m.progress (n + 1) c).config.trace =
          told Event.incident? d.trace ++ l := by
  refine ⟨?_, fun d hd => ?_⟩
  · obtain ⟨frames, hrecorded, -⟩ := (progress_closed m c n).recorded
    have hchronicle := hrecorded.chronicle
    have hlawful := hchronicle.lawful
    obtain ⟨-, hshifts, herrors, -⟩ :=
      stats_account (m := m) (c := c) (m.progress n c).config.trace
    simp only [hrecorded.account] at hshifts herrors
    constructor
    case scanner => exact scanner_progress m c n
    case due =>
      intro t span past hs
      obtain ⟨hready, hspan⟩ := hlawful hs
      refine ⟨hready, hspan, fun hdue => ?_, ?_⟩
      · obtain ⟨e, hanswers, he⟩ := hchronicle.settled hs hdue
        cases e with
        | reported message span' =>
          obtain rfl : span' = span := hanswers
          exact ⟨message, he⟩
        | _ => exact absurd hanswers id
      · rintro ⟨message, hreported⟩
        obtain ⟨t', past', hpast, hdue⟩ := hlawful hreported
        rwa [(List.cons.inj hpast).2]
    case reported =>
      intro message span past hs
      obtain ⟨t, past', hpast, -⟩ := hlawful hs
      exact ⟨t, past', hpast⟩
    case errors => exact herrors
    case shifts => exact hshifts
    case some_iff =>
      rw [Ne, hchronicle.reportsIn_eq_nil_iff, shiftsSinceError_eq_none_iff, herrors,
        List.length_pos_iff]
    case count_le =>
      cases hlast : shiftsSinceError (m.progress n c).config.trace with
      | none => simp [hchronicle.reportsIn_eq_nil_iff.2 hlast]
      | some k =>
        have hspaced := hchronicle.reports_spaced k hlast
        omega
  · have hcurrent := progress_current (m := m) (c := c) (n := n) (by rw [hd])
    rw [hd] at hcurrent
    obtain ⟨l, hincurs, hkeeps⟩ := step_incurs m d
    exact ⟨by rw [hcurrent.mode, modeAfter_eq_normal_iff], l, hincurs, progress_succ hd hkeeps⟩

/-- The first error is reported and the second one, a token later, is not. -/
theorem errors_reported_stumbler :
    let p n := stumbler.progress n (stumbler.init 0 ())
    p 2 = ⟨.exhausted, (p 2).config⟩ ∧ p 7 = ⟨.exhausted, (p 7).config⟩ ∧
      (stumbler.Stuck (p 2).config ∧ Due (p 2).config.trace ∧
        ∃ l, stumbler.Incurs (p 2).config l ∧ told Event.incident? (p 3).config.trace =
          told Event.incident? (p 2).config.trace ++ l) ∧
      (stumbler.Stuck (p 7).config ∧ ¬Due (p 7).config.trace ∧
        ∃ l, stumbler.Incurs (p 7).config l ∧ told Event.incident? (p 8).config.trace =
          told Event.incident? (p 7).config.trace ++ l) ∧
      told Event.error? (p 8).config.trace = [(⟨4⟩, ⟨3, 3⟩), (⟨1⟩, ⟨6, 6⟩)] ∧
      (reportsIn (p 8).config.trace).map Prod.snd = [⟨3, 3⟩] := by
  intro p
  have hfirst : p 2 = ⟨.exhausted, (p 2).config⟩ := rfl
  have hsecond : p 7 = ⟨.exhausted, (p 7).config⟩ := rfl
  obtain ⟨hdue, hincurs⟩ := (errors_reported stumbler (stumbler.init 0 ()) 2).2 _ hfirst
  obtain ⟨hdue', hincurs'⟩ := (errors_reported stumbler (stumbler.init 0 ()) 7).2 _ hsecond
  refine ⟨hfirst, hsecond, ⟨.unexpected ⟨rfl, rfl, rfl, rfl⟩, hdue.1 rfl, hincurs⟩,
    ⟨.unexpected ⟨rfl, rfl, rfl, rfl⟩, mt hdue'.2 (by decide), hincurs'⟩, by decide, by decide⟩

end Machine

end ShiftReduce
