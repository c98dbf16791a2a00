import ShiftReduce.Proofs.OrderedMap
import ShiftReduce.Tables

namespace ShiftReduce

namespace Action

theorem toNat_of_decode_shift {c : Cell} {target : StateId} (h : decode c = .shift target) :
    0 < c ∧ target.id.toNat = c.toInt.natAbs := by
  unfold decode at h
  split at h
  · simp at h
  · split at h
    · rename_i hpos
      refine ⟨hpos, ?_⟩
      rw [← shift.inj h]
      have hint : 0 < c.toInt := Int32.lt_iff_toInt_lt.1 hpos
      have hbits : c.toInt = if 2 * c.toBitVec.toNat < 2 ^ 32 then (c.toBitVec.toNat : Int)
          else c.toBitVec.toNat - 2 ^ 32 := BitVec.toInt_eq_toNat_cond _
      have hlt : c.toBitVec.toNat < 2 ^ 32 := c.toBitVec.isLt
      change c.toBitVec.toNat = _
      split at hbits <;> omega
    · simp at h

theorem toNat_of_decode_reduce {c : Cell} {r : RuleId} (h : decode c = .reduce r) :
    c < 0 ∧ r.id.toNat = c.toInt.natAbs % UInt16.size := by
  unfold decode at h
  split at h
  · simp at h
  · rename_i hne
    split at h
    · simp at h
    · rename_i hpos
      constructor
      · have hint : c.toInt ≠ 0 := fun h => hne (Int32.toInt_inj.1 h)
        rw [Int32.lt_iff_toInt_lt, Int32.toInt_zero] at hpos ⊢
        omega
      · rw [← reduce.inj h]
        simp

theorem decode_eq_error_iff {c : Cell} : decode c = error ↔ c = 0 := by
  unfold decode
  split
  · simp [*]
  · split <;> simp [*]

end Action

namespace State

/-- The symbols that lead on from a state by an entry or a goto of its own, with the states that
they lead to. -/
def edges (s : State) : List (Symbol × StateId) :=
  s.actions.entries.filterMap (fun p => match Action.decode p.2 with
    | .shift target => some (.terminal p.1, target)
    | _ => none)
  ++ s.gotos.entries.map fun p => (.nonterminal p.1, p.2)

def reductions (s : State) : List RuleId :=
  (s.fallback :: s.actions.entries.map Prod.snd).filterMap fun c => match Action.decode c with
    | .reduce r => some r
    | _ => none

theorem edges_of_entry {s : State} {t : Terminal} {c : Cell} {target : StateId}
    (h : s.entry t = some c) (hc : Action.decode c = .shift target) :
    (.terminal t, target) ∈ s.edges := by
  refine List.mem_append_left _ (List.mem_filterMap.2 ⟨(t, c), OrderedMap.mem_of_get? h, ?_⟩)
  simp [hc]

theorem edges_of_gotoFor {s : State} {n : Nonterminal} {target : StateId}
    (h : s.gotoFor n = some target) : (.nonterminal n, target) ∈ s.edges :=
  List.mem_append_right _ (List.mem_map.2 ⟨(n, target), OrderedMap.mem_of_get? h, rfl⟩)

theorem edges_of_shiftTarget? {s : State} {t : Terminal} {target : StateId}
    (h : s.shiftTarget? t = some target) : (.terminal t, target) ∈ s.edges := by
  unfold shiftTarget? at h
  cases he : s.entry t with
  | none => simp [he] at h
  | some c =>
    rw [he, Option.map_some] at h
    split at h
    · rename_i hc
      exact edges_of_entry he ((Option.some.inj hc).trans (congrArg _ (Option.some.inj h)))
    · simp at h

theorem mem_reductions {s : State} {t : Terminal} {r : RuleId}
    (h : Action.decode (s.lookup t) = .reduce r) : r ∈ s.reductions := by
  refine List.mem_filterMap.2 ⟨s.lookup t, ?_, by simp [h]⟩
  unfold lookup
  cases he : s.entry t with
  | none => exact List.mem_cons_self
  | some c =>
    exact List.mem_cons_of_mem _ (List.mem_map.2 ⟨(t, c), OrderedMap.mem_of_get? he, rfl⟩)

/-- What a state does other than by default it has an entry for. -/
theorem mem_entries_of_lookup {s : State} {t : Terminal} {a : Action}
    (hd : Action.decode s.fallback ≠ a) (h : Action.decode (s.lookup t) = a) :
    ∃ c, (t, c) ∈ s.actions.entries ∧ Action.decode c = a := by
  unfold lookup at h
  cases he : s.entry t with
  | none => exact absurd (by simpa [he] using h) hd
  | some c => exact ⟨c, OrderedMap.mem_of_get? he, by simpa [he] using h⟩

/-- A shift comes from an entry unless it is the default. -/
theorem edges_of_lookup {s : State} {t : Terminal} {target : StateId}
    (hd : Action.decode s.fallback ≠ .shift target)
    (h : Action.decode (s.lookup t) = .shift target) : (.terminal t, target) ∈ s.edges := by
  unfold lookup at h
  cases he : s.entry t with
  | none => simp [he, hd] at h
  | some c => exact edges_of_entry he (by simpa [he] using h)

end State

namespace Draft

variable {d : Draft} {i : Nat}

theorem target_lt_of_cellViolation {c : Cell} {target : StateId}
    (h : d.cellViolation i c = none) (hc : Action.decode c = .shift target) :
    target.id.toNat < d.states.size := by
  obtain ⟨hpos, htarget⟩ := Action.toNat_of_decode_shift hc
  rw [cellViolation, if_pos hpos] at h
  rw [htarget]
  refine Nat.lt_of_not_le fun hle => ?_
  simp [hle] at h

theorem rule_lt_of_cellViolation {c : Cell} {r : RuleId} (h : d.cellViolation i c = none)
    (hc : Action.decode c = .reduce r) : r.id.toNat < d.rules.size := by
  obtain ⟨hneg, hr⟩ := Action.toNat_of_decode_reduce hc
  have hpos : ¬0 < c := Int32.not_lt.2 (Int32.le_of_lt hneg)
  rw [cellViolation, if_neg hpos, if_pos hneg] at h
  have hbounds : ¬(d.rules.size ≤ c.toInt.natAbs ∨ UInt16.size ≤ c.toInt.natAbs) := by
    intro hor
    simp [hor] at h
  rw [hr]
  exact Nat.lt_of_le_of_lt (Nat.mod_le _ _) (by omega)

theorem stateViolation_eq_none_iff {s : State} : d.stateViolation i s = none ↔
    d.cellViolation i s.fallback = none ∧
      (∀ p ∈ s.actions.entries, d.entryViolation i p = none) ∧
      ∀ p ∈ s.gotos.entries, d.gotoViolation i p = none := by
  simp only [stateViolation, Option.orElse_eq_orElse, Option.orElse_eq_or, Option.or_eq_none_iff,
    List.findSome?_eq_none_iff]

theorem firstViolation_eq_none_iff : d.firstViolation = none ↔
    d.overallViolation = none ∧ ∀ i s, d.states[i]? = some s → d.stateViolation i s = none := by
  simp only [firstViolation, Option.orElse_eq_orElse, Option.orElse_eq_or, Option.or_eq_none_iff,
    List.findSome?_eq_none_iff, Prod.forall, List.mem_zipIdx_iff_getElem?, Array.getElem?_toList]
  exact and_congr_right fun _ => ⟨fun h i s => h s i, fun h s i => h i s⟩

theorem cellViolation_of_entryViolation {p : Terminal × Cell} (h : d.entryViolation i p = none) :
    d.cellViolation i p.2 = none := by
  rw [entryViolation] at h
  split at h
  · simp at h
  · exact h

theorem lookup_of_stateViolation {s : State} (h : d.stateViolation i s = none) (t : Terminal) :
    d.cellViolation i (s.lookup t) = none := by
  obtain ⟨hfallback, hentries, -⟩ := stateViolation_eq_none_iff.1 h
  cases he : s.entry t with
  | none => rwa [State.lookup, he]
  | some c =>
    have hcell := cellViolation_of_entryViolation (hentries _ (OrderedMap.mem_of_get? he))
    rwa [State.lookup, he]

theorem target_lt_of_gotoFor {s : State} (h : d.stateViolation i s = none) {n : Nonterminal}
    {target : StateId} (hn : s.gotoFor n = some target) : target.id.toNat < d.states.size := by
  have hgoto := (stateViolation_eq_none_iff.1 h).2.2 _ (OrderedMap.mem_of_get? hn)
  refine Nat.lt_of_not_le fun hle => ?_
  simp [gotoViolation, hle] at hgoto

end Draft

namespace Tables

variable {t : Tables} {s : StateId} {row : State}

theorem indexed_eq_ok {α : Type} {i n : Nat} {o : Option α} {a : α} :
    indexed i n o = .ok a ↔ o = some a := by
  cases o <;> simp [indexed]

theorem exists_state (h : s.id.toNat < t.states.size) : ∃ row, t.state s = .ok row :=
  ⟨t.states[s.id.toNat], indexed_eq_ok.2 (Array.getElem?_eq_getElem h)⟩

theorem exists_rule {r : RuleId} (h : r.id.toNat < t.rules.size) : ∃ rule, t.rule r = .ok rule :=
  ⟨t.rules[r.id.toNat], indexed_eq_ok.2 (Array.getElem?_eq_getElem h)⟩

theorem overallViolation_eq_none (t : Tables) : t.overallViolation = none :=
  (Draft.firstViolation_eq_none_iff.1 t.sound).1

theorem stateViolation_eq_none (h : t.state s = .ok row) :
    t.stateViolation s.id.toNat row = none :=
  (Draft.firstViolation_eq_none_iff.1 t.sound).2 _ _ (indexed_eq_ok.1 h)

theorem start_lt (t : Tables) : StateId.start.id.toNat < t.states.size := by
  have h := t.overallViolation_eq_none
  rw [Draft.overallViolation] at h
  split at h
  · simp at h
  · rename_i hne
    exact Nat.pos_of_ne_zero hne

/-- A state shifts to states of the set only. -/
theorem target_lt (h : t.state s = .ok row) {a : Terminal} {target : StateId}
    (ha : Action.decode (row.lookup a) = .shift target) : target.id.toNat < t.states.size :=
  Draft.target_lt_of_cellViolation
    (Draft.lookup_of_stateViolation (stateViolation_eq_none h) a) ha

/-- A state reduces by rules of the set only. -/
theorem exists_rule_of_lookup (h : t.state s = .ok row) {a : Terminal} {r : RuleId}
    (ha : Action.decode (row.lookup a) = .reduce r) : ∃ rule, t.rule r = .ok rule :=
  exists_rule (Draft.rule_lt_of_cellViolation
    (Draft.lookup_of_stateViolation (stateViolation_eq_none h) a) ha)

/-- A goto leads to a state of the set. -/
theorem goto_lt (h : t.state s = .ok row) {n : Nonterminal} {target : StateId}
    (hn : row.gotoFor n = some target) : target.id.toNat < t.states.size :=
  Draft.target_lt_of_gotoFor (stateViolation_eq_none h) hn

end Tables

end ShiftReduce
