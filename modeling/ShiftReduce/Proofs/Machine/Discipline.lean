import Mathlib.Data.List.Chain
import ShiftReduce.Proofs.Machine.Exits
import ShiftReduce.Proofs.Tables.Sound

namespace ShiftReduce

namespace Tables

variable {t : Tables} {s target : StateId} {row : State}

def Edge (t : Tables) (s s' : StateId) : Prop :=
  ∃ row, t.state s = .ok row ∧
    ((∃ X, (X, s') ∈ row.edges) ∨ Action.decode row.fallback = .shift s')

/-- A state that lacks a goto may be entered again from itself. -/
def Stays (t : Tables) (s s' : StateId) : Prop :=
  s' = s ∧ ∃ row n, t.state s = .ok row ∧ row.gotoFor n = none

theorem edge_of_lookup (h : t.state s = .ok row) {a : Terminal}
    (ha : Action.decode (row.lookup a) = .shift target) : t.Edge s target := by
  by_cases hd : Action.decode row.fallback = .shift target
  · exact ⟨row, h, Or.inr hd⟩
  · exact ⟨row, h, Or.inl ⟨_, State.edges_of_lookup hd ha⟩⟩

theorem target_lt_of_shiftTarget? (h : t.state s = .ok row) {a : Terminal}
    (ha : row.shiftTarget? a = some target) : target.id.toNat < t.states.size := by
  refine t.target_lt h (a := a) ?_
  unfold State.shiftTarget? at ha
  rw [State.lookup]
  cases he : row.entry a with
  | none => simp [he] at ha
  | some c =>
    rw [he, Option.map_some] at ha
    split at ha
    · rename_i hc
      rw [Option.getD_some, Option.some.inj hc, Option.some.inj ha]
    · simp at ha

theorem edge_or_stays_of_gotoFor (h : t.state s = .ok row) (n : Nonterminal) :
    t.Edge s ((row.gotoFor n).getD s) ∨ t.Stays s ((row.gotoFor n).getD s) := by
  cases hn : row.gotoFor n with
  | none => exact Or.inr ⟨rfl, row, n, h, hn⟩
  | some target => exact Or.inl ⟨row, h, Or.inl ⟨_, State.edges_of_gotoFor hn⟩⟩

theorem goto_getD_lt (h : t.state s = .ok row) (n : Nonterminal) :
    ((row.gotoFor n).getD s).id.toNat < t.states.size := by
  cases hn : row.gotoFor n with
  | none =>
    exact (Array.getElem?_eq_some_iff.1 (indexed_eq_ok.1 h)).1
  | some target => exact t.goto_lt h hn

end Tables

namespace FrameStack

variable {V S : Type} {k k' : FrameStack V S} {t : Tables} {limit : Nat}

/-- Stacks as a parse with sound tables keeps them. -/
structure Upright (t : Tables) (limit : Nat) (k : FrameStack V S) : Prop where
  values_depth : k.values.depth = k.states.depth
  spans_depth : k.spans.depth = k.states.depth
  depth_le : k.states.depth ≤ limit
  known : ∀ s ∈ k.states.toList, s.id.toNat < t.states.size
  rooted : ∀ s ∈ k.states.toList.head?, s = .start
  linked : k.states.toList.IsChain fun s s' => t.Edge s s' ∨ t.Stays s s'

theorem toList_states (k : FrameStack V S) :
    k.states.toList = (k.items.map Frame.state).reverse := by
  rw [states_items]
  rfl

theorem upright_iff : k.Upright t limit ↔ k.items.length ≤ limit ∧
    (∀ f ∈ k.items, f.state.id.toNat < t.states.size) ∧
    (∀ f ∈ k.items.getLast?, f.state = .start) ∧
    k.items.IsChain fun f g => t.Edge g.state f.state ∨ t.Stays g.state f.state := by
  have hdepth : k.states.depth = k.items.length := k.depth_eq
  constructor
  · intro h
    have hknown := h.known
    have hrooted := h.rooted
    have hlinked := h.linked
    rw [toList_states] at hknown hrooted hlinked
    refine ⟨hdepth ▸ h.depth_le, ?_, ?_, ?_⟩
    · simpa using hknown
    · simpa using hrooted
    · rwa [List.isChain_reverse, List.isChain_map] at hlinked
  · rintro ⟨hdepth', hknown, hrooted, hlinked⟩
    refine ⟨k.values_depth, k.spans_depth, hdepth ▸ hdepth', ?_, ?_, ?_⟩
    · rw [toList_states]
      simpa using hknown
    · rw [toList_states]
      simpa using hrooted
    · rw [toList_states, List.isChain_reverse, List.isChain_map]
      exact hlinked

namespace Upright

theorem of_suffix (h : k.Upright t limit) (hs : k'.items <:+ k.items) :
    k'.Upright t limit := by
  obtain ⟨hdepth, hknown, hrooted, hlinked⟩ := upright_iff.1 h
  refine upright_iff.2 ⟨hs.length_le.trans hdepth, fun f hf => hknown f (hs.mem hf), ?_,
    hlinked.suffix hs⟩
  obtain ⟨above, habove⟩ := hs
  intro f hf
  refine hrooted f ?_
  rw [← habove, List.getLast?_append, Option.mem_def.1 hf]
  rfl

theorem of_nil (h : k.items = []) : k.Upright t limit := upright_iff.2 (by simp [h])

/-- A frame comes on top of one that its state may follow. -/
theorem push {above below : List (Frame V S)} {f g : Frame V S} (h : k.Upright t limit)
    (hk : k.items = above ++ f :: below) (hk' : k'.items = g :: f :: below)
    (hroom : below.length + 1 < limit) (hknown : g.state.id.toNat < t.states.size)
    (hlink : t.Edge f.state g.state ∨ t.Stays f.state g.state) : k'.Upright t limit := by
  have hsuffix : f :: below <:+ k.items := hk ▸ List.suffix_append above (f :: below)
  obtain ⟨-, hknown', hrooted, hlinked⟩ := upright_iff.1 h
  refine upright_iff.2 ⟨?_, ?_, ?_, ?_⟩
  · rw [hk', List.length_cons, List.length_cons]
    exact hroom
  · intro e he
    rw [hk', List.mem_cons] at he
    rcases he with rfl | he
    · exact hknown
    · exact hknown' e (hsuffix.mem he)
  · rw [hk', List.getLast?_cons_cons]
    rw [hk, List.getLast?_append_of_ne_nil _ (by simp)] at hrooted
    exact hrooted
  · rw [hk']
    exact .cons_cons hlink (hlinked.suffix hsuffix)

end Upright

end FrameStack

namespace Machine

variable {σ α V S φ : Type} {m : Machine σ α V S φ} {c c' d : Config σ α V S}
  {h : Halt σ α V S φ}

variable (m) in
def Stands (c : Config σ α V S) : Prop :=
  c.stack.Upright m.tables m.maxDepth ∧ c.stack.items ≠ []

theorem Stands.exists_state (hc : m.Stands c) {f : Frame V S} (hf : f ∈ c.stack.items) :
    ∃ row, m.tables.state f.state = .ok row :=
  Tables.exists_state ((FrameStack.upright_iff.1 hc.1).2.1 f hf)

theorem Stands.state_ne_error (hc : m.Stands c) {f : Frame V S} (hf : f ∈ c.stack.items)
    (e : IndexFault) : m.tables.state f.state ≠ .error e := by
  obtain ⟨row, hrow⟩ := hc.exists_state hf
  simp [hrow]

theorem Recovers.stands {expected : List Terminal} (hr : m.Recovers c expected (.ok c'))
    (hc : m.Stands c) : m.Stands c' := by
  cases hr with
  | recovered items passed state catches room result =>
    refine ⟨hc.1.push items result.items room (Tables.target_lt_of_shiftTarget? state catches) ?_,
      by simp [result.items]⟩
    exact Or.inl ⟨_, state, Or.inl ⟨_, State.edges_of_shiftTarget? catches⟩⟩

theorem Recovers.ne_fault {expected : List Terminal} (hr : m.Recovers c expected (.error h))
    (hc : m.Stands c) (f : Fault φ) : h.verdict ≠ .fault f := by
  cases hr with
  | lost mem state verdict => exact absurd state (hc.state_ne_error mem _)
  | _ => simp_all

theorem start_stands (hc : c.stack.items = []) :
    Keeps m.Stands (fun d => d.stack.Upright m.tables m.maxDepth) (m.start c) := by
  have hbegun : (m.begun c).stack.items = [] := hc
  rw [start_eq]
  refine (m.push_keeps _ _ fun _ => .of_nil hbegun).imp ?_ fun d => id
  rintro d ⟨rfl, hroom⟩
  rw [hbegun] at hroom
  refine ⟨FrameStack.upright_iff.2 ?_, by simp⟩
  simp only [FrameStack.items_push, hbegun, List.length_singleton, List.getLast?_singleton]
  exact ⟨hroom, by simpa using m.tables.start_lt, by simp, .singleton _⟩

variable [Merge S]

theorem Stands.step (hc : m.Stands c) (hs : m.step c = .ok c') : m.Stands c' := by
  have same {d : Config σ α V S} (hd : d.stack = c.stack) : m.Stands d := by
    rw [Stands, hd]
    exact hc
  cases turn_of_ok hs with
  | shifted decides room result =>
    obtain ⟨rest, hrest⟩ := List.head?_eq_some_iff.1 decides.top
    rw [hrest, List.length_cons] at room
    refine ⟨hc.1.push (hrest.trans (List.nil_append _).symm) (hrest ▸ result.items) room
      (Tables.target_lt decides.state decides.action) ?_, by simp [result.items]⟩
    exact Or.inl (Tables.edge_of_lookup decides.state decides.action)
  | reduced d st decides reduces acted proceeds other state room items =>
    exact ⟨hc.1.push reduces.items items room (Tables.goto_getD_lt state _)
      (Tables.edge_or_stays_of_gotoFor state _), by simp [items]⟩
  | failed decides hrec => exact hrec.stands hc
  | raised decides reduces acted raises hrec => exact hrec.stands (same acted.stack)
  | resumed phase top state careful fits => exact same (by split <;> simp)
  | discarded phase top state unfit more => exact same (by simp)

/-- How a parse with sound tables can break down. -/
inductive Breakdown (m : Machine σ α V S φ) (c : Config σ α V S) : Fault φ → Prop
  /-- The semantic action itself is at fault. -/
  | action {f : Frame V S} {s : State} {r : RuleId} {rule : Rule}
      {frames below : List (Frame V S)} {e : φ} (decides : m.Decides c f s (.reduce r))
      (reduces : m.Reduces c r rule frames below (.error e)) : Breakdown m c (.action e)
  /-- The rule is longer than the stack. -/
  | long {f : Frame V S} {s : State} {r : RuleId} {rule : Rule}
      (decides : m.Decides c f s (.reduce r)) (known : m.tables.rule r = .ok rule)
      (short : c.stack.depth < rule.length) :
      Breakdown m c (.stack (.viewTooDeep rule.length c.stack.depth))
  /-- The rule is as long as the stack. -/
  | whole {f : Frame V S} {s : State} {r : RuleId} {rule : Rule}
      (decides : m.Decides c f s (.reduce r)) (known : m.tables.rule r = .ok rule)
      (all : rule.length = c.stack.depth) : Breakdown m c (.stack .peekEmpty)

theorem Stands.breakdown (hc : m.Stands c) (hs : m.step c = .error h) {f : Fault φ}
    (hf : h.verdict = .fault f) : m.Breakdown c f := by
  cases turn_of_error hs with
  | bare items verdict => exact absurd items hc.2
  | lost top state verdict =>
    exact absurd state (hc.state_ne_error (List.mem_of_head? top) _)
  | lostRule decides rule verdict =>
    obtain ⟨_, hrule⟩ := Tables.exists_rule_of_lookup decides.state decides.action
    simp [hrule] at rule
  | shortStack decides known short verdict =>
    rw [verdict, ← c.stack.depth_eq] at hf
    obtain rfl := Verdict.fault.inj hf
    exact .long decides known (c.stack.depth_eq ▸ short)
  | actionFault decides reduces verdict =>
    obtain rfl := Verdict.fault.inj (verdict.symm.trans hf)
    exact .action decides reduces
  | gotoBare decides reduces verdict =>
    obtain rfl := Verdict.fault.inj (verdict.symm.trans hf)
    refine .whole decides reduces.known ?_
    rw [c.stack.depth_eq, reduces.items, ← reduces.length]
    simp
  | gotoLost decides reduces state verdict =>
    refine absurd state (hc.state_ne_error ?_ _)
    simp [reduces.items]
  | failed decides hrec => exact absurd hf (hrec.ne_fault hc f)
  | raised decides reduces acted raises hrec =>
    refine absurd hf (hrec.ne_fault ?_ f)
    rw [Stands, acted.stack]
    exact hc
  | _ => simp_all

theorem Stands.keeps (hc : m.Stands c) :
    Keeps m.Stands (fun d => d.stack.Upright m.tables m.maxDepth) (m.step c) := by
  have hbelow := m.step_below c
  cases hs : m.step c with
  | ok d => exact hc.step hs
  | error e =>
    rw [hs] at hbelow
    exact hc.1.of_suffix hbelow

/-- A fault ends the parse at a configuration between two turns. -/
theorem exists_breakdown (hc : c.stack.items = []) {n : Nat} {f : Fault φ}
    (hf : (m.progress n c).verdict = .fault f) :
    ∃ k d, m.progress k c = ⟨.exhausted, d⟩ ∧ m.Breakdown d f := by
  have hstart := start_stands (m := m) hc
  unfold progress at hf ⊢
  cases hs : m.start c with
  | error e =>
    simp only [hs, verdict_of_start_error hs] at hf
    simp at hf
  | ok c₀ =>
    simp only [hs] at hf ⊢
    rw [hs] at hstart
    have hended : (m.run n c₀).verdict ≠ .exhausted := by simp [hf]
    obtain ⟨d, hr, hd⟩ := exists_reaches_of_run hended
    obtain ⟨k, hk⟩ := exists_run_of_reaches hr
    have hstands : m.Stands d := hr.preserves Stands.step hstart
    exact ⟨k, d, hk, hstands.breakdown hd hf⟩

/-- The stacks of a parse stay upright, whatever the scanner and the actions do, until its end and
at its end. So no state and no rule is ever looked up that the tables do not have, and apart from
the faults of the actions a parse breaks down only with a rule that is longer than the stack or as
long as it. When it ends in any other way its stacks are empty again. -/
theorem stacks_stay_upright (m : Machine σ α V S φ) {c : Config σ α V S}
    (hc : c.stack.items = []) (n : Nat) :
    (m.progress n c).config.stack.Upright m.tables m.maxDepth ∧
      (∀ e, (m.parse n c).verdict ≠ .fault (.index e)) ∧
      (∀ f, (m.parse n c).verdict = .fault f →
        ∃ k d, m.progress k c = ⟨.exhausted, d⟩ ∧ m.Breakdown d f) ∧
      ((m.parse n c).verdict ≠ .exhausted → (∀ f, (m.parse n c).verdict ≠ .fault f) →
        (m.parse n c).config.stack.items = []) := by
  rw [parse_eq_finish, verdict_finish]
  refine ⟨progress_keeps (start_stands hc) And.left Stands.keeps n, fun e he => ?_,
    fun f hf => exists_breakdown hc hf, fun hend hfault => ?_⟩
  · obtain ⟨k, d, -, hbreak⟩ := exists_breakdown hc he
    cases hbreak
  · unfold finish
    split
    · rfl
    · rfl
    · rename_i f hf
      exact absurd hf (hfault f)
    · rename_i hf
      exact absurd hf hend

/-- Tables whose start state reduces by a rule with one symbol, for which it is popped itself. -/
def uprooting : Tables where
  rules := #[⟨⟨0⟩, []⟩, ⟨⟨1⟩, [.terminal ⟨3⟩]⟩, ⟨⟨2⟩, []⟩]
  states := #[{ fallback := -1 }]
  acceptRule := ⟨2⟩
  sound := by decide

def uprooter : Machine Unit Unit Unit ByteRange Empty where
  tables := uprooting
  scanner := ⟨fun x => (uprooting.endTerminal, x, []), fun x => ((), x), fun _ => {},
    fun _ _ x => (x, []), fun _ => uprooting.endTerminal_ne_reserved⟩
  actions := { blank := (), reduce := fun _ value state => .ok { value, state } }

theorem stacks_stay_upright_uprooter :
    (uprooter.init () ()).stack.items = [] ∧
      (uprooter.parse 1 (uprooter.init () ())).verdict = .fault (.stack .peekEmpty) ∧
      ∃ k d, uprooter.progress k (uprooter.init () ()) = ⟨.exhausted, d⟩ ∧
        uprooter.Breakdown d (.stack .peekEmpty) := by
  have hempty : (uprooter.init () ()).stack.items = [] := rfl
  have hfault : (uprooter.parse 1 (uprooter.init () ())).verdict = .fault (.stack .peekEmpty) := by
    decide
  exact ⟨hempty, hfault, (stacks_stay_upright uprooter hempty 1).2.2.1 _ hfault⟩

end Machine

end ShiftReduce
