import Mathlib.Algebra.Group.Nat.Defs
import ShiftReduce.Proofs.Tables.Sound

namespace ShiftReduce

def State.cells (s : State) : List Cell := s.fallback :: s.actions.entries.map Prod.snd

namespace Draft

/-- A place of a table set that is checked. Entries and gotos are counted in table order. -/
inductive Site
  | noStates
  | tooManyStates
  | errorTerminal
  | endTerminal
  | acceptRule
  | fallback (state : Nat)
  | key (state entry : Nat)
  | cell (state entry : Nat)
  | goto (state entry : Nat)

namespace Site

def block : Site → Nat
  | fallback i | key i _ | cell i _ | goto i _ => i + 1
  | _ => 0

def within : Site → Nat × Nat × Nat
  | noStates => (0, 0, 0)
  | tooManyStates => (1, 0, 0)
  | errorTerminal => (2, 0, 0)
  | endTerminal => (3, 0, 0)
  | acceptRule => (4, 0, 0)
  | fallback _ => (0, 0, 0)
  | key _ k => (1, k, 0)
  | cell _ k => (1, k, 1)
  | goto _ k => (2, k, 0)

def Precedes (a b : Site) : Prop :=
  a.within.1 < b.within.1 ∨ a.within.1 = b.within.1 ∧ (a.within.2.1 < b.within.2.1 ∨
    a.within.2.1 = b.within.2.1 ∧ a.within.2.2 ≤ b.within.2.2)

instance (a b : Site) : Decidable (a.Precedes b) :=
  inferInstanceAs (Decidable (_ ∨ _ ∧ (_ ∨ _ ∧ _)))

theorem Precedes.of_le {a b : Site} (hkind : a.within.1 = b.within.1)
    (hentry : a.within.2.1 ≤ b.within.2.1) (hpart : a.within.2.2 ≤ b.within.2.2) :
    a.Precedes b :=
  .inr ⟨hkind, by omega⟩

/-- The order of all checks. -/
def NotAfter (a b : Site) : Prop := a.block < b.block ∨ a.block = b.block ∧ a.Precedes b

theorem NotAfter.antisymm {a b : Site} (h : a.NotAfter b) (h' : b.NotAfter a) : a = b := by
  unfold NotAfter Precedes at h h'
  cases a <;> cases b <;> simp only [block, within] at h h' <;>
    first | rfl | omega | (congr 1 <;> omega)

end Site

/-- What is wrong with a cell of the state at index `i`: it shifts to no state of the set or it
reduces by no rule of it, or by one that has no number. -/
inductive BadCell (d : Draft) (i : Nat) (c : Cell) : TableError → Prop
  | shift {target : Nat} (value : c.toInt = target) (positive : 0 < target)
      (out : d.states.size ≤ target) : BadCell d i c (.shiftOutOfRange i target)
  | reduce {r : Nat} (value : c.toInt = -r) (positive : 0 < r)
      (out : d.rules.size ≤ r ∨ 65535 < r) : BadCell d i c (.unknownRule i r)

/-- The violations of a table set, each at the site where it is found. -/
inductive Violates (d : Draft) : Site → TableError → Prop
  | noStates (none : d.states.size = 0) : Violates d .noStates .noStates
  | tooManyStates (many : maxStates < d.states.size) :
      Violates d .tooManyStates (.tooManyStates d.states.size)
  | errorTerminal (reserved : d.errorTerminal = .reserved) :
      Violates d .errorTerminal (.reservedTerminal .error)
  | endTerminal (reserved : d.endTerminal = .reserved) :
      Violates d .endTerminal (.reservedTerminal .endOfInput)
  | acceptRule (out : d.acceptRule.id = 0 ∨ d.rules.size ≤ d.acceptRule.id.toNat) :
      Violates d .acceptRule (.invalidAcceptRule d.acceptRule.id.toNat)
  | fallback {i : Nat} {s : State} {e : TableError} (state : d.states[i]? = some s)
      (bad : d.BadCell i s.fallback e) : Violates d (.fallback i) e
  | key {i k : Nat} {s : State} {c : Cell} (state : d.states[i]? = some s)
      (entry : s.actions.entries[k]? = some (.reserved, c)) :
      Violates d (.key i k) (.reservedKey i)
  | cell {i k : Nat} {s : State} {t : Terminal} {c : Cell} {e : TableError}
      (state : d.states[i]? = some s) (entry : s.actions.entries[k]? = some (t, c))
      (bad : d.BadCell i c e) : Violates d (.cell i k) e
  | goto {i k : Nat} {s : State} {n : Nonterminal} {target : StateId}
      (state : d.states[i]? = some s) (entry : s.gotos.entries[k]? = some (n, target))
      (out : d.states.size ≤ target.id.toNat) :
      Violates d (.goto i k) (.gotoOutOfRange i n target)

variable {d : Draft} {i k : Nat} {e : TableError}

theorem cellViolation_eq_some_iff {c : Cell} : d.cellViolation i c = some e ↔ d.BadCell i c e := by
  have hpos : 0 < c ↔ 0 < c.toInt := Int32.lt_iff_toInt_lt
  have hneg : c < 0 ↔ c.toInt < 0 := Int32.lt_iff_toInt_lt
  unfold cellViolation
  simp only [hpos, hneg]
  constructor
  · intro h
    split at h
    · rename_i hc
      split at h
      · obtain rfl := Option.some.inj h
        exact .shift (by omega) (by omega) ‹_›
      · simp at h
    · split at h
      · split at h
        · rename_i hout
          obtain rfl := Option.some.inj h
          have hsize : UInt16.size = 65536 := rfl
          exact .reduce (by omega) (by omega) (by omega)
        · simp at h
      · simp at h
  · intro h
    cases h with
    | @shift target value positive out =>
      have hn : c.toInt.natAbs = target := by omega
      rw [if_pos (by omega), hn, if_pos out]
    | @reduce r value positive out =>
      have hn : c.toInt.natAbs = r := by omega
      have hsize : UInt16.size = 65536 := rfl
      rw [if_neg (by omega), if_pos (by omega), hn, if_pos (by omega)]

theorem gotoViolation_eq_some_iff {p : Nonterminal × StateId} : d.gotoViolation i p = some e ↔
    d.states.size ≤ p.2.id.toNat ∧ e = .gotoOutOfRange i p.1 p.2 := by
  unfold gotoViolation
  by_cases h : d.states.size ≤ p.2.id.toNat <;> simp [h, eq_comm]

theorem entryViolation_eq_some_iff {p : Terminal × Cell} : d.entryViolation i p = some e ↔
    p.1 = .reserved ∧ e = .reservedKey i ∨ p.1 ≠ .reserved ∧ d.BadCell i p.2 e := by
  rw [← cellViolation_eq_some_iff]
  unfold entryViolation
  by_cases h : p.1 = .reserved <;> simp [h, eq_comm]

theorem BadCell.unique {c : Cell} {e' : TableError} (h : d.BadCell i c e)
    (h' : d.BadCell i c e') : e = e' :=
  Option.some.inj ((cellViolation_eq_some_iff.2 h).symm.trans (cellViolation_eq_some_iff.2 h'))

/-- A site has one violation at most. -/
theorem Violates.unique {site : Site} {e' : TableError} (h : d.Violates site e)
    (h' : d.Violates site e') : e = e' := by
  cases h with
  | fallback state bad =>
    cases h' with
    | fallback state' bad' =>
      obtain rfl := Option.some.inj (state.symm.trans state')
      exact bad.unique bad'
  | cell state entry bad =>
    cases h' with
    | cell state' entry' bad' =>
      obtain rfl := Option.some.inj (state.symm.trans state')
      obtain ⟨-, rfl⟩ := Prod.mk.inj (Option.some.inj (entry.symm.trans entry'))
      exact bad.unique bad'
  | goto state entry out =>
    cases h' with
    | goto state' entry' out' =>
      obtain rfl := Option.some.inj (state.symm.trans state')
      obtain ⟨rfl, rfl⟩ := Prod.mk.inj (Option.some.inj (entry.symm.trans entry'))
      rfl
  | _ => cases h'; rfl

def Finds (d : Draft) (b : Nat) : Option TableError → Prop
  | none => ∀ site e, d.Violates site e → site.block ≠ b
  | some e => ∃ site, d.Violates site e ∧ site.block = b ∧
      ∀ site' e', d.Violates site' e' → site'.block = b → site.Precedes site'

theorem finds_overall (d : Draft) : d.Finds 0 d.overallViolation := by
  unfold overallViolation
  split
  · refine ⟨_, .noStates ‹_›, rfl, fun site' e' h' hb => ?_⟩
    cases h' <;> first | decide | contradiction
  · split
    · refine ⟨_, .tooManyStates ‹_›, rfl, fun site' e' h' hb => ?_⟩
      cases h' <;> first | decide | contradiction
    · split
      · refine ⟨_, .errorTerminal ‹_›, rfl, fun site' e' h' hb => ?_⟩
        cases h' <;> first | decide | contradiction
      · split
        · refine ⟨_, .endTerminal ‹_›, rfl, fun site' e' h' hb => ?_⟩
          cases h' <;> first | decide | contradiction
        · split
          · refine ⟨_, .acceptRule ‹_›, rfl, fun site' e' h' hb => ?_⟩
            cases h' <;> first | decide | contradiction
          · intro site e h hb
            cases h <;> contradiction

/-- A search finds the first of what it looks for. -/
theorem exists_first {α β : Type} {l : List α} {f : α → Option β} {b : β}
    (h : l.findSome? f = some b) : ∃ (k : Nat) (a : α), l[k]? = some a ∧ f a = some b ∧
      ∀ (j : Nat) (a' : α), l[j]? = some a' → (∃ b', f a' = some b') → k ≤ j := by
  obtain ⟨before, a, after, rfl, ha, hbefore⟩ := List.findSome?_eq_some_iff.1 h
  refine ⟨before.length, a, by simp, ha, ?_⟩
  rintro j a' hj ⟨b', hb'⟩
  refine Nat.le_of_not_lt fun hlt => ?_
  rw [List.getElem?_append_left hlt] at hj
  have hnone := hbefore a' (List.mem_of_getElem? hj)
  rw [hb'] at hnone
  simp at hnone

section State

variable {s : State} {site : Site}

/-- The three kinds of violations in a state, by the checks that find them. -/
theorem Violates.in_state (h : d.Violates site e) (hs : d.states[i]? = some s)
    (hb : site.block = i + 1) :
    site = .fallback i ∧ d.cellViolation i s.fallback = some e ∨
    (∃ k p, s.actions.entries[k]? = some p ∧ (∃ e, d.entryViolation i p = some e) ∧
      (site = .key i k ∧ p.1 = .reserved ∨ site = .cell i k)) ∨
    ∃ k p, s.gotos.entries[k]? = some p ∧ site = .goto i k ∧ d.gotoViolation i p = some e := by
  cases h with
  | @fallback j s' e state bad =>
    obtain rfl : j = i := Nat.succ.inj hb
    obtain rfl := Option.some.inj (state.symm.trans hs)
    exact .inl ⟨rfl, cellViolation_eq_some_iff.2 bad⟩
  | @key j k s' c state entry =>
    obtain rfl : j = i := Nat.succ.inj hb
    obtain rfl := Option.some.inj (state.symm.trans hs)
    exact .inr (.inl ⟨k, _, entry, ⟨_, entryViolation_eq_some_iff.2 (.inl ⟨rfl, rfl⟩)⟩,
      .inl ⟨rfl, rfl⟩⟩)
  | @cell j k s' t c e state entry bad =>
    obtain rfl : j = i := Nat.succ.inj hb
    obtain rfl := Option.some.inj (state.symm.trans hs)
    refine .inr (.inl ⟨k, _, entry, ?_, .inr rfl⟩)
    by_cases ht : t = .reserved
    · exact ⟨_, entryViolation_eq_some_iff.2 (.inl ⟨ht, rfl⟩)⟩
    · exact ⟨_, entryViolation_eq_some_iff.2 (.inr ⟨ht, bad⟩)⟩
  | @goto j k s' n target state entry out =>
    obtain rfl : j = i := Nat.succ.inj hb
    obtain rfl := Option.some.inj (state.symm.trans hs)
    exact .inr (.inr ⟨k, _, entry, rfl, gotoViolation_eq_some_iff.2 ⟨out, rfl⟩⟩)
  | _ => exact absurd hb.symm (Nat.succ_ne_zero _)

theorem finds_fallback (hs : d.states[i]? = some s)
    (hfallback : d.cellViolation i s.fallback = some e) : d.Finds (i + 1) (some e) := by
  refine ⟨_, .fallback hs (cellViolation_eq_some_iff.1 hfallback), rfl, fun site' e' h' hb => ?_⟩
  rcases h'.in_state hs hb with ⟨rfl, -⟩ | ⟨k, p, -, -, ⟨rfl, -⟩ | rfl⟩ | ⟨k, p, -, rfl, -⟩ <;>
    simp [Site.Precedes, Site.within]

theorem finds_entry (hs : d.states[i]? = some s) (hfallback : d.cellViolation i s.fallback = none)
    (hentries : s.actions.entries.findSome? (d.entryViolation i) = some e) :
    d.Finds (i + 1) (some e) := by
  obtain ⟨k, ⟨t, c⟩, hp, hviolation, hfirst⟩ := exists_first hentries
  rcases entryViolation_eq_some_iff.1 hviolation with ⟨hkey, rfl⟩ | ⟨hkey, hbad⟩
  · obtain rfl : t = .reserved := hkey
    refine ⟨.key i k, .key hs hp, rfl, fun site' e' h' hb => ?_⟩
    rcases h'.in_state hs hb with ⟨rfl, h⟩ | ⟨k', p', hp', h, hsite⟩ | ⟨k', p', -, rfl, -⟩
    · simp [hfallback] at h
    · have hk := hfirst k' p' hp' h
      rcases hsite with ⟨rfl, -⟩ | rfl
      · exact .of_le rfl hk (Nat.le_refl 0)
      · exact .of_le rfl hk (Nat.zero_le 1)
    · simp [Site.Precedes, Site.within]
  · refine ⟨.cell i k, .cell hs hp hbad, rfl, fun site' e' h' hb => ?_⟩
    rcases h'.in_state hs hb with ⟨rfl, h⟩ | ⟨k', p', hp', h, hsite⟩ | ⟨k', p', -, rfl, -⟩
    · simp [hfallback] at h
    · have hk := hfirst k' p' hp' h
      rcases hsite with ⟨rfl, hreserved⟩ | rfl
      · -- The key of this entry is not reserved, so that the other one comes behind it.
        have hne : k ≠ k' := by
          rintro rfl
          obtain rfl := Option.some.inj (hp.symm.trans hp')
          exact hkey hreserved
        exact .inr ⟨rfl, .inl (by show k < k'; omega)⟩
      · exact .of_le rfl hk (Nat.le_refl 1)
    · simp [Site.Precedes, Site.within]

theorem finds_goto (hs : d.states[i]? = some s) (hfallback : d.cellViolation i s.fallback = none)
    (hentries : ∀ p ∈ s.actions.entries, d.entryViolation i p = none) :
    d.Finds (i + 1) (s.gotos.entries.findSome? (d.gotoViolation i)) := by
  cases hgotos : s.gotos.entries.findSome? (d.gotoViolation i) with
  | some e =>
    obtain ⟨k, p, hp, hviolation, hfirst⟩ := exists_first hgotos
    obtain ⟨hout, rfl⟩ := gotoViolation_eq_some_iff.1 hviolation
    refine ⟨.goto i k, .goto hs hp hout, rfl, fun site' e' h' hb => ?_⟩
    rcases h'.in_state hs hb with ⟨rfl, h⟩ | ⟨k', p', hp', ⟨e, h⟩, -⟩ | ⟨k', p', hp', rfl, h⟩
    · simp [hfallback] at h
    · simp [hentries p' (List.mem_of_getElem? hp')] at h
    · exact .of_le rfl (hfirst k' p' hp' ⟨_, h⟩) (Nat.le_refl 0)
  | none =>
    intro site e h' hb
    rcases h'.in_state hs hb with ⟨rfl, h⟩ | ⟨k, p, hp, ⟨e, h⟩, -⟩ | ⟨k, p, hp, rfl, h⟩
    · simp [hfallback] at h
    · simp [hentries p (List.mem_of_getElem? hp)] at h
    · simp [List.findSome?_eq_none_iff.1 hgotos p (List.mem_of_getElem? hp)] at h

theorem finds_state (hs : d.states[i]? = some s) : d.Finds (i + 1) (d.stateViolation i s) := by
  unfold stateViolation
  cases hfallback : d.cellViolation i s.fallback with
  | some e => exact finds_fallback hs hfallback
  | none =>
    cases hentries : s.actions.entries.findSome? (d.entryViolation i) with
    | some e => exact finds_entry hs hfallback hentries
    | none => exact finds_goto hs hfallback (List.findSome?_eq_none_iff.1 hentries)

end State

theorem Violates.exists_state {site : Site} (h : d.Violates site e) (hb : site.block = i + 1) :
    ∃ s, d.states[i]? = some s := by
  cases h with
  | fallback state | key state | cell state | goto state =>
    obtain rfl := Nat.succ.inj hb
    exact ⟨_, state⟩
  | _ => exact absurd hb.symm (Nat.succ_ne_zero _)

/-- The violation that is found is the first one. -/
theorem exists_first_violation (h : d.firstViolation = some e) : ∃ site, d.Violates site e ∧
    ∀ site' e', d.Violates site' e' → site.NotAfter site' := by
  have hoverall := d.finds_overall
  unfold firstViolation at h
  cases hcase : d.overallViolation with
  | some e₀ =>
    rw [hcase] at h hoverall
    obtain rfl : e₀ = e := Option.some.inj h
    obtain ⟨site, hsite, hb, hfirst⟩ := hoverall
    refine ⟨site, hsite, fun site' e' h' => ?_⟩
    unfold Site.NotAfter
    rcases Nat.eq_zero_or_pos site'.block with hb' | hb'
    · exact .inr ⟨hb.trans hb'.symm, hfirst site' e' h' hb'⟩
    · exact .inl (hb ▸ hb')
  | none =>
    rw [hcase] at h hoverall
    obtain ⟨i, ⟨s, j⟩, hi, hviolation, hbefore⟩ := exists_first h
    obtain ⟨s', hs, heq⟩ : ∃ s', d.states[i]? = some s' ∧ (s', i) = (s, j) := by
      simpa [List.getElem?_zipIdx] using hi
    obtain ⟨rfl, rfl⟩ := Prod.mk.inj heq
    have hfinds := finds_state hs
    rw [hviolation] at hfinds
    obtain ⟨site, hsite, hb, hfirst⟩ := hfinds
    refine ⟨site, hsite, fun site' e' h' => ?_⟩
    cases hb' : site'.block with
    | zero => exact absurd hb' (hoverall site' e' h')
    | succ k =>
      obtain ⟨s', hs'⟩ := h'.exists_state hb'
      have hfinds' := finds_state hs'
      have hk : i ≤ k := by
        apply hbefore k (s', k)
        · simpa [List.getElem?_zipIdx] using hs'
        · cases hnone : d.stateViolation k s' with
          | some e' => exact ⟨e', rfl⟩
          | none =>
            rw [hnone] at hfinds'
            exact absurd hb' (hfinds' site' e' h')
      unfold Site.NotAfter
      rcases Nat.lt_or_eq_of_le hk with hlt | rfl
      · exact .inl (by omega)
      · exact .inr ⟨hb.trans hb'.symm, hfirst site' e' h' hb'⟩

theorem not_violates_of_sound (h : d.firstViolation = none) {site : Site} :
    ¬d.Violates site e := by
  intro hsite
  obtain ⟨hoverall, hstates⟩ := firstViolation_eq_none_iff.1 h
  cases hb : site.block with
  | zero =>
    have hfinds := d.finds_overall
    rw [hoverall] at hfinds
    exact hfinds site e hsite hb
  | succ i =>
    obtain ⟨s, hs⟩ := hsite.exists_state hb
    have hfinds := finds_state hs
    rw [hstates i s hs] at hfinds
    exact hfinds site e hsite hb

theorem firstViolation_eq_some_iff : d.firstViolation = some e ↔ ∃ site, d.Violates site e ∧
    ∀ site' e', d.Violates site' e' → site.NotAfter site' := by
  refine ⟨exists_first_violation, ?_⟩
  rintro ⟨site, hsite, hfirst⟩
  cases h : d.firstViolation with
  | none => exact absurd hsite (not_violates_of_sound h)
  | some e' =>
    obtain ⟨site', hsite', hfirst'⟩ := exists_first_violation h
    obtain rfl := (hfirst site' e' hsite').antisymm (hfirst' site e hsite)
    rw [hsite.unique hsite']

/-- A table set in which every reference leads somewhere. -/
structure Consistent (d : Draft) : Prop where
  state : 1 ≤ d.states.size
  room : d.states.size ≤ 2 ^ 31 - 1
  errorTerminal : d.errorTerminal.id ≠ 0
  endTerminal : d.endTerminal.id ≠ 0
  acceptRule : 1 ≤ d.acceptRule.id.toNat ∧ d.acceptRule.id.toNat < d.rules.size
  keys : ∀ s ∈ d.states, ∀ p ∈ s.actions.entries, p.1.id ≠ 0
  targets : ∀ s ∈ d.states, ∀ c ∈ s.cells, ∀ target : Nat, 0 < target → c.toInt = target →
    target < d.states.size
  reductions : ∀ s ∈ d.states, ∀ c ∈ s.cells, ∀ r : Nat, 0 < r → c.toInt = -r →
    r < d.rules.size ∧ r ≤ 65535
  gotos : ∀ s ∈ d.states, ∀ p ∈ s.gotos.entries, p.2.id.toNat < d.states.size

theorem Violates.of_cell {s : State} {c : Cell} (hs : d.states[i]? = some s) (hc : c ∈ s.cells)
    (hbad : d.BadCell i c e) : ∃ site, d.Violates site e := by
  rcases List.mem_cons.1 hc with rfl | hc
  · exact ⟨_, .fallback hs hbad⟩
  · obtain ⟨⟨t, c⟩, hp, rfl⟩ := List.mem_map.1 hc
    obtain ⟨k, hk⟩ := List.mem_iff_getElem?.1 hp
    exact ⟨_, .cell hs hk hbad⟩

theorem Consistent.not_violates (h : d.Consistent) {site : Site} : ¬d.Violates site e := by
  have cells {i : Nat} {s : State} {c : Cell} {e : TableError} (hs : d.states[i]? = some s)
      (hc : c ∈ s.cells) : ¬d.BadCell i c e := by
    have hmem := Array.mem_of_getElem? hs
    intro hbad
    cases hbad with
    | shift value positive out => exact Nat.not_lt.2 out (h.targets s hmem c hc _ positive value)
    | reduce value positive out =>
      have := h.reductions s hmem c hc _ positive value
      omega
  intro hsite
  cases hsite with
  | noStates none => have := h.state; omega
  | tooManyStates many => have := h.room; unfold maxStates at many; omega
  | errorTerminal reserved => exact h.errorTerminal (congrArg Terminal.id reserved)
  | endTerminal reserved => exact h.endTerminal (congrArg Terminal.id reserved)
  | acceptRule out =>
    have hbounds := h.acceptRule
    rcases out with hzero | hout
    · simp [hzero] at hbounds
    · omega
  | fallback state bad => exact cells state List.mem_cons_self bad
  | key state entry =>
    exact h.keys _ (Array.mem_of_getElem? state) _ (List.mem_of_getElem? entry) rfl
  | cell state entry bad =>
    refine cells state (List.mem_cons_of_mem _ ?_) bad
    exact List.mem_map.2 ⟨_, List.mem_of_getElem? entry, rfl⟩
  | goto state entry out =>
    have := h.gotos _ (Array.mem_of_getElem? state) _ (List.mem_of_getElem? entry)
    exact Nat.not_lt.2 out this

theorem Consistent.of_not_violates (h : ∀ site e, ¬d.Violates site e) : d.Consistent where
  state := Nat.pos_of_ne_zero fun hnone => h _ _ (.noStates hnone)
  room := Nat.le_of_not_lt fun hmany => h _ _ (.tooManyStates hmany)
  errorTerminal := fun hid => h _ _ (.errorTerminal (congrArg Terminal.mk hid))
  endTerminal := fun hid => h _ _ (.endTerminal (congrArg Terminal.mk hid))
  acceptRule := by
    refine ⟨Nat.pos_of_ne_zero fun hzero => h _ _ (.acceptRule (.inl ?_)),
      Nat.lt_of_not_le fun hout => h _ _ (.acceptRule (.inr hout))⟩
    exact UInt16.toNat_inj.1 hzero
  keys := by
    rintro s hs ⟨t, c⟩ hp hid
    obtain ⟨i, hi⟩ := Array.mem_iff_getElem?.1 hs
    obtain ⟨k, hk⟩ := List.mem_iff_getElem?.1 hp
    obtain rfl : t = .reserved := congrArg Terminal.mk hid
    exact h _ _ (.key hi hk)
  targets := by
    intro s hs c hc target hpos hvalue
    obtain ⟨i, hi⟩ := Array.mem_iff_getElem?.1 hs
    refine Nat.lt_of_not_le fun hout => ?_
    obtain ⟨site, hsite⟩ := Violates.of_cell hi hc (.shift hvalue hpos hout)
    exact h _ _ hsite
  reductions := by
    intro s hs c hc r hpos hvalue
    obtain ⟨i, hi⟩ := Array.mem_iff_getElem?.1 hs
    refine Decidable.byContradiction fun hout => ?_
    obtain ⟨site, hsite⟩ := Violates.of_cell hi hc (.reduce hvalue hpos (by omega))
    exact h _ _ hsite
  gotos := by
    intro s hs p hp
    obtain ⟨i, hi⟩ := Array.mem_iff_getElem?.1 hs
    obtain ⟨k, hk⟩ := List.mem_iff_getElem?.1 hp
    exact Nat.lt_of_not_le fun hout => h _ _ (.goto hi hk hout)

theorem firstViolation_eq_none_iff_consistent : d.firstViolation = none ↔ d.Consistent := by
  constructor
  · exact fun h => .of_not_violates fun site e => not_violates_of_sound h
  · intro h
    cases hfirst : d.firstViolation with
    | none => rfl
    | some e =>
      obtain ⟨site, hsite, -⟩ := exists_first_violation hfirst
      exact absurd hsite h.not_violates

end Draft

/-- A row answers each query from its entries, its default cell and its gotos. -/
structure State.Answers (s : State) : Prop where
  hasLookahead : s.hasLookahead = true ↔ s.actions.entries ≠ []
  entry : ∀ t c, s.entry t = some c ↔ (t, c) ∈ s.actions.entries
  lookup : ∀ t c, s.lookup t = c ↔
    (t, c) ∈ s.actions.entries ∨ t ∉ s.actions.keys ∧ c = s.fallback
  gotoFor : ∀ n target, s.gotoFor n = some target ↔ (n, target) ∈ s.gotos.entries

/-- The tables answer each query from what is in the draft. -/
structure Tables.Answers (t : Tables) (d : Draft) : Prop where
  /-- All that is listed, the actions and gotos of the states among it, is what was given. -/
  given : t.toDraft = d
  rule : ∀ r rule, t.rule r = .ok rule ↔ d.rules[r.id.toNat]? = some rule
  state : ∀ s row, t.state s = .ok row ↔ d.states[s.id.toNat]? = some row
  row : ∀ row ∈ d.states, row.Answers
  expected : ∀ s row, d.states[s.id.toNat]? = some row → t.expected s =
    .ok ((row.actions.entries.filter fun p => p.2 ≠ 0 ∧ p.1 ≠ d.errorTerminal).map Prod.fst)
  terminalName : ∀ a, t.terminalName a = d.terminalNames[a.id.toNat]?.getD s!"#{a.id.toNat}"
  nonterminalName : ∀ n,
    t.nonterminalName n = d.nonterminalNames[n.id.toNat]?.getD s!"<{n.id.toNat}>"
  ruleText : ∀ r, t.ruleText r = t.nonterminalName r.lhs ++ " ->" ++
    String.join (r.rhs.map fun
      | .terminal a => " " ++ t.terminalName a
      | .nonterminal n => " " ++ t.nonterminalName n)

theorem State.answers (s : State) : s.Answers where
  hasLookahead := by simp [hasLookahead, OrderedMap.isEmpty]
  entry _ _ := OrderedMap.get?_eq_some_iff
  lookup t c := by
    rw [lookup, ← OrderedMap.get?_eq_some_iff, ← OrderedMap.get?_eq_none_iff, entry]
    cases s.actions.get? t with
    | none => simp [eq_comm]
    | some b => simp
  gotoFor _ _ := OrderedMap.get?_eq_some_iff

theorem Tables.ruleText_eq_join (t : Tables) (r : Rule) :
    t.ruleText r = t.nonterminalName r.lhs ++ " ->" ++ String.join (r.rhs.map fun
      | .terminal a => " " ++ t.terminalName a
      | .nonterminal n => " " ++ t.nonterminalName n) := by
  unfold ruleText
  generalize t.nonterminalName r.lhs ++ " ->" = text
  induction r.rhs generalizing text with
  | nil => simp
  | cons s rest ih =>
    rw [List.foldl_cons, ih]
    cases s <;> simp [symbolName, String.append_assoc]

namespace Draft

theorem build_eq_error_iff {d : Draft} {e : TableError} :
    d.build = .error e ↔ d.firstViolation = some e := by
  unfold build
  split <;> simp_all

theorem exists_build_iff {d : Draft} : (∃ t, d.build = .ok t) ↔ d.firstViolation = none := by
  unfold build
  split <;> simp_all

theorem answers_of_build {d : Draft} {t : Tables} (h : d.build = .ok t) : t.Answers d := by
  have hgiven : t.toDraft = d := by
    unfold build at h
    split at h
    · simp at h
    · obtain rfl := Except.ok.inj h
      rfl
  subst hgiven
  refine ⟨rfl, fun r rule => Tables.indexed_eq_ok, fun s row => Tables.indexed_eq_ok,
    fun row _ => row.answers, ?_, fun a => rfl, fun n => rfl, t.ruleText_eq_join⟩
  intro s row hrow
  have hstate : t.state s = .ok row := Tables.indexed_eq_ok.2 hrow
  rw [Tables.expected, hstate]
  rfl

/-- Validation is exact. A draft is built if and only if every reference in it leads somewhere. One
that is refused is refused for its first violation in the order of the checks, and one that is
built answers every query from what it was given. -/
theorem build_exact (d : Draft) :
    ((∃ t, d.build = .ok t) ↔ d.Consistent) ∧
    (∀ e, d.build = .error e ↔ ∃ site, d.Violates site e ∧
      ∀ site' e', d.Violates site' e' → site.NotAfter site') ∧
    ∀ t, d.build = .ok t → t.Answers d :=
  ⟨exists_build_iff.trans firstViolation_eq_none_iff_consistent,
    fun _ => build_eq_error_iff.trans firstViolation_eq_some_iff, fun _ => answers_of_build⟩

end Draft

end ShiftReduce
