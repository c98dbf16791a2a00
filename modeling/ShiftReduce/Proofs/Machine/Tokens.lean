import ShiftReduce.Proofs.Machine.Record

namespace ShiftReduce

/-- The token that an event uses up. The end terminal is never used up. -/
def Event.spent? {V S : Type} (stop : Terminal) : Event V S → Option Terminal
  | shifted t _ => if t = stop then none else some t
  | discarded t => some t
  | _ => none

/-- A token is used up by being shifted or by being discarded. -/
theorem length_told_spent? {V S : Type} (stop : Terminal) (trace : List (Event V S)) :
    (told (Event.spent? stop) trace).length =
      ((told Event.shift? trace).filter fun p => p.1 ≠ stop).length +
        (told Event.discard? trace).length := by
  induction trace with
  | nil => rfl
  | cons e past ih =>
    simp only [told_cons, List.filter_append, List.length_append, ih]
    cases e with
    | shifted t f =>
      by_cases ht : t = stop
      · simp [Event.spent?, Event.shift?, Event.discard?, ht]
      · simp [Event.spent?, Event.shift?, Event.discard?, ht]
        omega
    | discarded t =>
      simp [Event.spent?, Event.shift?, Event.discard?]
      omega
    | _ => rfl

/-- Where none was discarded, the tokens that were used up are those that were shifted. -/
theorem told_spent?_eq {V S : Type} {stop : Terminal} {trace : List (Event V S)}
    (hdiscard : told Event.discard? trace = [])
    (hshift : ∀ p ∈ told Event.shift? trace, p.1 ≠ stop) :
    told (Event.spent? stop) trace = (told Event.shift? trace).map Prod.fst := by
  induction trace with
  | nil => rfl
  | cons e past ih =>
    rw [told_cons, List.append_eq_nil_iff] at hdiscard
    rw [told_cons] at hshift
    rw [told_cons, told_cons, List.map_append, ih hdiscard.1 fun p hp =>
      hshift p (List.mem_append_left _ hp)]
    congr 1
    cases e with
    | shifted t f =>
      have hne : t ≠ stop := hshift (t, f) (by simp [Event.shift?])
      simp [Event.spent?, Event.shift?, hne]
    | discarded t => simp [Event.discard?] at hdiscard
    | _ => rfl

namespace Machine

variable {σ α V S φ : Type} [Merge S] {m : Machine σ α V S φ} {c d : Config σ α V S}
  {trace : List (Event V S)} {t : Terminal}

section Lawful

/-- What was read and is not used up is buffered. -/
theorem Lawful.told_read? (h : m.Lawful c trace) : told Event.read? trace =
    told (Event.spent? m.tables.endTerminal) trace ++ (m.account c trace).lookahead.toList := by
  induction trace with
  | nil => rfl
  | cons e past ih =>
    have hread := ih h.tail
    have hfollows := h.head
    rw [told_cons, told_cons, account_cons]
    cases e with
    | fetched t =>
      rw [hfollows.1] at hread
      simpa [Event.read?, Event.spent?, enter] using hread
    | shifted t f =>
      obtain ⟨past', rfl, hready, -⟩ := hfollows
      have hready' : (m.account c (.taken f.value :: .shifting t f.state :: past')).lookahead =
          some t := hready
      rw [hready'] at hread
      by_cases ht : t = m.tables.endTerminal
      · subst ht
        simpa [Event.read?, Event.spent?, enter, hready'] using hread
      · simpa [Event.read?, Event.spent?, enter, ht] using hread
    | discarded t =>
      rw [hfollows.2.1] at hread
      simpa [Event.read?, Event.spent?, enter] using hread
    | _ => simpa [Event.read?, Event.spent?, enter] using hread

/-- Nothing is discarded before the first error. -/
theorem Lawful.told_discard? (h : m.Lawful c trace) (herror : told Event.error? trace = []) :
    told Event.discard? trace = [] := by
  induction trace with
  | nil => rfl
  | cons e past ih =>
    rw [told_cons, List.append_eq_nil_iff] at herror
    rw [told_cons, ih h.tail herror.1]
    cases e with
    | discarded t => exact absurd (shiftsSinceError_eq_none_iff.2 herror.1) h.head.1
    | _ => rfl

end Lawful

end Machine

end ShiftReduce
