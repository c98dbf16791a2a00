import ShiftReduce.Calculator.Automaton
import ShiftReduce.Proofs.Machine.Reach
import ShiftReduce.Proofs.Tables.Sound

namespace ShiftReduce

namespace Calculator

namespace Production

def ruleId (p : Production) : RuleId := ⟨(all.idxOf p).toUInt16⟩

theorem mem_all (p : Production) : p ∈ all := by cases p <;> decide

theorem ofRule?_ruleId (p : Production) : ofRule? p.ruleId = some p := by
  cases p <;> rfl

theorem ruleId_injective {p q : Production} (h : p.ruleId = q.ruleId) : p = q := by
  have hp := ofRule?_ruleId p
  rw [h, ofRule?_ruleId] at hp
  exact (Option.some.inj hp).symm

theorem eq_ruleId_of_ofRule? {r : RuleId} {p : Production} (h : ofRule? r = some p) :
    r = p.ruleId := by
  obtain ⟨hlt, hp⟩ := List.getElem?_eq_some_iff.1 h
  have hnodup : all.Nodup := by decide
  have hidx : all.idxOf p = r.id.toNat := by
    rw [← hp]
    exact hnodup.idxOf_getElem _ hlt
  rw [ruleId, hidx]
  simp

end Production

theorem rule_ruleId (p : Production) : tables.rule p.ruleId = .ok p.rule := by
  cases p <;> rfl

def stateIds : List StateId := (List.range states.size).map fun i => ⟨i.toUInt32⟩

theorem mem_stateIds {s : StateId} : s ∈ stateIds ↔ s.id.toNat < states.size := by
  constructor
  · intro h
    obtain ⟨i, hi, rfl⟩ := List.mem_map.1 h
    have hi := List.mem_range.1 hi
    have h28 : states.size = 28 := rfl
    simp only [Nat.toUInt32, UInt32.toNat_ofNat']
    omega
  · intro h
    exact List.mem_map.2 ⟨s.id.toNat, List.mem_range.2 h, by simp⟩

def stateAt (s : StateId) : State := states[s.id.toNat]?.getD {}

theorem state_eq {s : StateId} (h : s ∈ stateIds) : tables.state s = .ok (stateAt s) := by
  have hlt := mem_stateIds.1 h
  have hsome : tables.states[s.id.toNat]? = some (stateAt s) := by
    unfold stateAt
    rw [show tables.states = states from rfl, Array.getElem?_eq_getElem hlt]
    rfl
  simp only [Tables.state, hsome, indexed]

/-- What leads to a state. -/
def entered (s : StateId) : Option Symbol :=
  ((states.toList.flatMap State.edges).find? (·.2 = s)).map Prod.fst

theorem entered_start : entered .start = none := rfl

def progress (s : StateId) : List (Production × Nat) :=
  ([[], [(.program, 1), (.moreStmts, 1)], [(.moreStmts, 2)],
    [(.exprStmt, 1), (.sum, 1), (.difference, 1)],
    [(.exprOfTerm, 1), (.product, 1), (.quotient, 1)], [(.termOfFactor, 1)], [(.literal, 1)],
    [(.assignment, 1), (.reference, 1)], [(.parens, 1)], [(.negation, 1)], [(.reference, 1)],
    [(.negation, 2)], [(.errorStmt, 1)], [(.errorStmt, 2)], [(.exprStmt, 2)], [(.sum, 2)],
    [(.difference, 2)], [(.sum, 3), (.product, 1), (.quotient, 1)],
    [(.difference, 3), (.product, 1), (.quotient, 1)], [(.product, 2)], [(.quotient, 2)],
    [(.product, 3)], [(.quotient, 3)], [(.assignment, 2)],
    [(.assignment, 3), (.sum, 1), (.difference, 1)], [(.assignment, 4)],
    [(.parens, 2), (.sum, 1), (.difference, 1)], [(.parens, 3)]] :
    List (List (Production × Nat)))[s.id.toNat]?.getD []

/-- Whether `k` symbols of a production may have been read in a state. None have been read where
there is a goto for it, or, of the production that accepts, in the start state. -/
def Begun (s : StateId) (p : Production) : Nat → Prop
  | 0 => ((stateAt s).gotoFor p.rule.lhs).isSome ∨ p = .program ∧ s = .start
  | k + 1 => (p, k + 1) ∈ progress s

instance (s : StateId) (p : Production) (k : Nat) : Decidable (Begun s p k) := by
  unfold Begun
  split <;> infer_instance

theorem Begun.goto {s : StateId} {p : Production} (h : Begun s p 0) (hp : p ≠ .program) :
    ∃ target, (stateAt s).gotoFor p.rule.lhs = some target :=
  Option.isSome_iff_exists.1 (h.resolve_right fun h => hp h.1)

/-- Each state is entered by one symbol, and each production in progress in it was one symbol
back in the state before. -/
theorem edges_checked : ∀ s ∈ stateIds, ∀ e ∈ (stateAt s).edges,
    e.2 ∈ stateIds ∧ e.2 ≠ .start ∧ entered e.2 = some e.1 ∧
      ∀ q ∈ progress e.2, q.1.rule.rhs[q.2 - 1]? = some e.1 ∧ Begun s q.1 (q.2 - 1) := by
  decide +kernel

/-- A state reduces by productions only that it has read to the end. -/
theorem reductions_checked : ∀ s ∈ stateIds, ∀ r ∈ (stateAt s).reductions,
    ∃ p ∈ Production.all, r = p.ruleId ∧ p ≠ .augmented ∧ Begun s p p.rule.rhs.length := by
  decide +kernel

theorem fallbacks_checked : ∀ s ∈ stateIds, ¬ 0 < (stateAt s).fallback := by
  decide +kernel

/-- An empty phrase begins in the start state only. -/
theorem empty_checked : ∀ p ∈ Production.all, p.rule.rhs = [] → ∀ s ∈ stateIds,
    ((stateAt s).gotoFor p.rule.lhs).isSome → s = .start := by
  decide +kernel

/-- The production of whole programs is reduced at the end of the input only. -/
theorem program_checked : ∀ s ∈ stateIds,
    Action.decode (stateAt s).fallback ≠ .reduce Production.program.ruleId ∧
      ∀ p ∈ (stateAt s).actions.entries, Action.decode p.2 = .reduce Production.program.ruleId →
        p.1 = Token.endOfInput.terminal := by
  decide +kernel

theorem eq_end_of_program {s : StateId} (hs : s ∈ stateIds) {t : Terminal}
    (h : Action.decode ((stateAt s).lookup t) = .reduce Production.program.ruleId) :
    t = Token.endOfInput.terminal := by
  obtain ⟨hfallback, hentries⟩ := program_checked s hs
  obtain ⟨cell, hcell, hdecode⟩ := State.mem_entries_of_lookup hfallback h
  exact hentries _ hcell hdecode

theorem program_begins : ∀ s ∈ stateIds, Begun s .program 0 → s = .start := by
  decide +kernel

variable {V S : Type}

/-- A stack, top first, whose states are joined by edges of the automaton down to the start
state. -/
inductive Linked : List (Frame V S) → Prop
  | start {f : Frame V S} (state : f.state = .start) : Linked [f]
  | push {f g : Frame V S} {rest : List (Frame V S)} {X : Symbol}
      (edge : (X, f.state) ∈ (stateAt g.state).edges) (below : Linked (g :: rest)) :
      Linked (f :: g :: rest)

namespace Linked

variable {f : Frame V S} {fs rest : List (Frame V S)}

theorem ne_nil (h : Linked fs) : fs ≠ [] := by cases h <;> simp

theorem mem_stateIds (h : Linked (f :: rest)) : f.state ∈ stateIds := by
  generalize hs : f :: rest = fs at h
  induction h generalizing f rest with
  | start state =>
    obtain ⟨rfl, -⟩ := List.cons.inj hs
    rw [state]
    decide
  | push edge below ih =>
    obtain ⟨rfl, -⟩ := List.cons.inj hs
    exact (edges_checked _ (ih rfl) _ edge).1

theorem of_append {above : List (Frame V S)} (h : Linked (above ++ f :: rest)) :
    Linked (f :: rest) := by
  induction above with
  | nil => exact h
  | cons g above ih =>
    generalize hs : (g :: above) ++ f :: rest = fs at h
    cases h with
    | start state => simp at hs
    | push edge below =>
      have hrest : above ++ f :: rest = _ := (List.cons.inj hs).2
      exact ih (hrest ▸ below)

theorem mem_stateIds_of_mem (h : Linked fs) (hf : f ∈ fs) : f.state ∈ stateIds := by
  obtain ⟨above, rest, rfl⟩ := List.append_of_mem hf
  exact (of_append h).mem_stateIds

theorem state_eq (h : Linked fs) (hf : f ∈ fs) : tables.state f.state = .ok (stateAt f.state) :=
  Calculator.state_eq (h.mem_stateIds_of_mem hf)

/-- Only the bottom of the stack is in the start state. -/
theorem eq_nil_of_start (h : Linked (f :: rest)) (hf : f.state = .start) : rest = [] := by
  cases h with
  | start => rfl
  | push edge below => exact absurd hf (edges_checked _ below.mem_stateIds _ edge).2.1

/-- An empty phrase can begin only on the bottom of the stack. -/
theorem eq_nil_of_empty (h : Linked (f :: rest)) {p : Production} (h0 : Begun f.state p 0)
    (hp : p.rule.rhs = []) : rest = [] := by
  have hprogram : p ≠ .program := by
    rintro rfl
    simp [Production.rule] at hp
  obtain ⟨target, htarget⟩ := h0.goto hprogram
  exact h.eq_nil_of_start
    (empty_checked p (Production.mem_all p) hp _ h.mem_stateIds (by simp [htarget]))

/-- The stack holds what has been read of a production, above a state in which it can begin. -/
theorem begun (h : Linked (f :: rest)) {p : Production} {k : Nat} (hk : Begun f.state p k) :
    ∃ above g below, f :: rest = above ++ g :: below ∧
      above.reverse.map (fun e => entered e.state) = (p.rule.rhs.take k).map some ∧
      above.length = k ∧ Begun g.state p 0 ∧ Linked (g :: below) := by
  induction k generalizing f rest with
  | zero => exact ⟨[], f, rest, rfl, rfl, rfl, hk, h⟩
  | succ k ih =>
    cases h with
    | start state =>
      rw [state] at hk
      exact absurd hk (by simp [Begun, progress, StateId.start])
    | @push _ g rest X edge below =>
      obtain ⟨-, -, hX, hp⟩ := edges_checked _ below.mem_stateIds _ edge
      obtain ⟨hrhs, hbegun⟩ := hp (p, k + 1) hk
      obtain ⟨above, g', below', heq, hmap, hlen, h0, hlink⟩ := ih below hbegun
      refine ⟨f :: above, g', below', by rw [heq]; rfl, ?_, by simp [hlen], h0, hlink⟩
      simp only [Nat.add_sub_cancel] at hrhs
      rw [List.reverse_cons, List.map_append, hmap, List.take_add_one, hrhs]
      simp [hX]

end Linked

section Machine

variable {σ α V S φ : Type} {m : Machine σ α V S φ} {c c' : Config σ α V S} {f : Frame V S}
  {s : State} {r : RuleId}

theorem Decides.row {a : Action} (hm : m.tables = tables) (hl : Linked c.stack.items)
    (d : m.Decides c f s a) : f.state ∈ stateIds ∧ s = stateAt f.state := by
  obtain ⟨rest, hrest⟩ := List.head?_eq_some_iff.1 d.top
  have hmem : f ∈ c.stack.items := hrest ▸ List.mem_cons_self
  have hstate := d.state
  rw [hm, hl.state_eq hmem] at hstate
  exact ⟨hl.mem_stateIds_of_mem hmem, (Except.ok.inj hstate).symm⟩

theorem Decides.edge {target : StateId} (hm : m.tables = tables) (hl : Linked c.stack.items)
    (d : m.Decides c f s (.shift target)) :
    (.terminal (m.ahead c), target) ∈ (stateAt f.state).edges := by
  obtain ⟨hmem, rfl⟩ := Decides.row hm hl d
  refine State.edges_of_lookup ?_ d.action
  intro h
  exact fallbacks_checked _ hmem (Action.toNat_of_decode_shift h).1

/-- A reduction is by a production that has been read to the end: its right-hand side is on
top of the stack, and it can begin in the state below. -/
theorem Decides.pops (hm : m.tables = tables) (hl : Linked c.stack.items)
    (d : m.Decides c f s (.reduce r)) : ∃ p above g below, r = Production.ruleId p ∧
      p ≠ .augmented ∧ c.stack.items = above ++ g :: below ∧
      above.reverse.map (fun e => entered e.state) = p.rule.rhs.map some ∧
      above.length = p.rule.length ∧ Begun g.state p 0 ∧ Linked (g :: below) := by
  obtain ⟨hmem, rfl⟩ := Decides.row hm hl d
  obtain ⟨rest, hrest⟩ := List.head?_eq_some_iff.1 d.top
  obtain ⟨p, -, hr, hp, hbegun⟩ :=
    reductions_checked _ hmem _ (State.mem_reductions d.action)
  obtain ⟨above, g, below, heq, hmap, hlen, h0, hlink⟩ := (hrest ▸ hl).begun hbegun
  refine ⟨p, above, g, below, hr, hp, hrest.trans heq, ?_, hlen, h0, hlink⟩
  rw [hmap, List.take_length]

/-- The same for the frames that a reduction takes off the stack. -/
theorem Reduces.pops [Merge S] {rule : Rule} {frames below : List (Frame V S)}
    {reply : Except φ (Reply α V)} (hm : m.tables = tables) (hl : Linked c.stack.items)
    (d : m.Decides c f s (.reduce r)) (h : m.Reduces c r rule frames below reply) :
    ∃ p g below', r = Production.ruleId p ∧ p ≠ .augmented ∧ rule = p.rule ∧
      below = g :: below' ∧ frames.map (fun e => entered e.state) = p.rule.rhs.map some ∧
      Begun g.state p 0 ∧ Linked (g :: below') := by
  obtain ⟨p, above, g, below', hr, hp, hitems, hmap, hlen, h0, hlink⟩ := Decides.pops hm hl d
  have hrule := h.known
  rw [hm, hr, rule_ruleId] at hrule
  obtain rfl := Except.ok.inj hrule
  have hcut := h.items.symm.trans hitems
  have hcount : frames.reverse.length = above.length := by
    rw [List.length_reverse, h.length, hlen]
  obtain ⟨hfr, hbelow⟩ := List.append_inj hcut hcount
  refine ⟨p, g, below', hr, hp, rfl, hbelow, ?_, h0, hlink⟩
  rw [← hmap, ← hfr, List.reverse_reverse]

/-- The frames `frames`, which spell the right-hand side of `p`, stand above the frame `g`, from
whose state its left-hand side leads on to `target`. -/
structure Folds (p : Production) (target : StateId) (frames below : List (Frame V S))
    (g : Frame V S) : Prop where
  inner : p ≠ .augmented ∧ p ≠ .program
  spelled : frames.map (fun e => entered e.state) = p.rule.rhs.map some
  goto : (stateAt g.state).gotoFor p.rule.lhs = some target
  linked : Linked (g :: below)

namespace Folds

variable {p : Production} {target : StateId} {frames below : List (Frame V S)} {g : Frame V S}

theorem edge (h : Folds p target frames below g) :
    (.nonterminal p.rule.lhs, target) ∈ (stateAt g.state).edges :=
  State.edges_of_gotoFor h.goto

theorem entered_target (h : Folds p target frames below g) :
    entered target = some (.nonterminal p.rule.lhs) :=
  (edges_checked _ h.linked.mem_stateIds _ h.edge).2.2.1

/-- An empty phrase is put on the bottom of the stack. -/
theorem eq_nil_of_empty (h : Folds p target [] below g) : below = [] :=
  h.linked.eq_nil_of_start (empty_checked p (Production.mem_all p)
    (by simpa using h.spelled.symm) _ h.linked.mem_stateIds (by simp [h.goto]))

end Folds

/-- A step that reduces by `p`: the frames of its right-hand side give way to one of its left-hand
side, which the automaton goes to from the frame below them. -/
structure Folded [Merge S] (m : Machine σ α V S φ) (c : Config σ α V S) (f : Frame V S)
    (p : Production) (target : StateId) (frames below : List (Frame V S)) (g : Frame V S)
    (reply : Reply α V) (c' : Config σ α V S) : Prop extends Folds p target frames below g where
  decides : m.Decides c f (stateAt f.state) (.reduce p.ruleId)
  reduces : m.Reduces c p.ruleId p.rule frames (g :: below) (.ok reply)
  proceeds : reply.control = .proceed
  acted : m.Acted c (stateAt f.state) p.ruleId frames reply { c' with stack := c.stack }
  items : c'.stack.items = ⟨target, reply.value, Machine.spread (m.gap c) frames⟩ :: g :: below

/-- A reduction other than the one that accepts finds the goto that it needs. -/
theorem Folded.of_turn [Merge S] {rule : Rule} {g : Frame V S} {frames below : List (Frame V S)}
    {reply : Reply α V} {s' : State} {d : Config σ α V S} {st : FrameStack V S}
    (hm : m.tables = tables) (hl : Linked c.stack.items) (decides : m.Decides c f s (.reduce r))
    (reduces : m.Reduces c r rule frames (g :: below) (.ok reply))
    (acted : m.Acted c s r frames reply d) (proceeds : reply.control = .proceed)
    (other : r ≠ m.tables.acceptRule) (state : m.tables.state g.state = .ok s')
    (items : st.items = ⟨(s'.gotoFor rule.lhs).getD g.state, reply.value,
      Machine.spread (m.gap c) frames⟩ :: g :: below) :
    ∃ p target, Folded m c f p target frames below g reply
      (Machine.turned { d with stack := st }) := by
  obtain ⟨-, rfl⟩ := Decides.row hm hl decides
  obtain ⟨p, g', below', rfl, hp, rfl, hbelow, hspelled, h0, hlink⟩ :=
    Reduces.pops hm hl decides reduces
  obtain ⟨rfl, rfl⟩ := List.cons.inj hbelow
  have hprogram : p ≠ .program := fun h => other (by rw [h, hm]; rfl)
  obtain ⟨target, htarget⟩ := h0.goto hprogram
  rw [hm, hlink.state_eq List.mem_cons_self] at state
  obtain rfl := Except.ok.inj state
  rw [htarget, Option.getD_some] at items
  refine ⟨p, target, ⟨⟨hp, hprogram⟩, hspelled, htarget, hlink⟩, decides, reduces, proceeds, ?_,
    items⟩
  exact ⟨acted.scanner, acted.lookahead, acted.actions, rfl, acted.mode, acted.phase, acted.stats,
    (Machine.rulesIn_turned _).trans acted.rules, (Machine.reportsIn_turned _).trans acted.reports⟩

namespace Folded

variable [Merge S] {p : Production} {target : StateId} {frames below : List (Frame V S)}
  {g : Frame V S} {reply : Reply α V} (h : Folded m c f p target frames below g reply c')
include h

theorem actions : c'.actions = reply.state := h.acted.actions

theorem phase : c'.phase = .deciding := h.acted.phase.trans h.decides.phase

theorem stats : c'.stats = { (m.poised c (stateAt f.state) frames).stats with
    reductions := c.stats.reductions + 1 } := h.acted.stats

theorem shifts : c'.stats.shifts = c.stats.shifts := by simp [h.stats]

theorem errors : c'.stats.errors = c.stats.errors := by simp [h.stats]

end Folded

/-- The rule that accepts is reduced at the end of input, with the statements above the start state
and nothing else on the stack. -/
theorem Reduces.program [Merge S] {rule : Rule} {frames below : List (Frame V S)}
    {reply : Except φ (Reply α V)} (hm : m.tables = tables) (hl : Linked c.stack.items)
    (d : m.Decides c f s (.reduce r)) (h : m.Reduces c r rule frames below reply)
    (hr : r = m.tables.acceptRule) : r = Production.program.ruleId ∧
      rule = Production.program.rule ∧ (∃ g, below = [g] ∧ g.state = .start) ∧
      frames.map (fun e => entered e.state) = Production.program.rule.rhs.map some ∧
      m.ahead c = Token.endOfInput.terminal := by
  obtain ⟨hmem, rfl⟩ := Decides.row hm hl d
  obtain ⟨p, g, below', rfl, -, rfl, rfl, hentered, h0, hlink⟩ := Reduces.pops hm hl d h
  obtain rfl : p = .program := Production.ruleId_injective (by rw [hr, hm]; rfl)
  have hstart := program_begins _ hlink.mem_stateIds h0
  obtain rfl := hlink.eq_nil_of_start hstart
  exact ⟨rfl, rfl, ⟨g, rfl, hstart⟩, hentered, eq_end_of_program hmem d.action⟩

theorem Recovers.linked {expected : List Terminal} (hm : m.tables = tables)
    (hl : Linked c.stack.items) (h : m.Recovers c expected (.ok c')) :
    Linked c'.stack.items := by
  cases h with
  | recovered items passed state catches room result =>
    have hlink := (items ▸ hl).of_append
    rw [hm, hlink.state_eq List.mem_cons_self] at state
    obtain rfl := Except.ok.inj state
    rw [result.items]
    exact .push (State.edges_of_shiftTarget? catches) hlink

/-- No step leads off the automaton. -/
theorem Linked.step [Merge S] (hm : m.tables = tables) (hl : Linked c.stack.items)
    (hs : m.step c = .ok c') : Linked c'.stack.items := by
  cases Machine.turn_of_ok hs with
  | shifted decides room result =>
    obtain ⟨rest, hrest⟩ := List.head?_eq_some_iff.1 decides.top
    rw [result.items, hrest]
    exact .push (Decides.edge hm hl decides) (hrest ▸ hl)
  | reduced d st decides reduces acted proceeds other state room items =>
    obtain ⟨p, target, h⟩ :=
      Folded.of_turn hm hl decides reduces acted proceeds other state items
    rw [h.items]
    exact .push h.edge h.linked
  | failed decides recovers => exact Recovers.linked hm hl recovers
  | raised decides reduces acted raises recovers =>
    exact Recovers.linked hm (acted.stack ▸ hl) recovers
  | resumed phase top state careful fits =>
    split <;> simpa [Machine.resynchronized, Machine.turned] using hl
  | discarded phase top state unfit more => simpa using hl

/-- Only a semantic action can be at fault. -/
theorem Linked.action_of_fault [Merge S] {h : Halt σ α V S φ} {e : Fault φ}
    (hm : m.tables = tables) (hl : Linked c.stack.items) (hs : m.step c = .error h)
    (he : h.verdict = .fault e) : ∃ f s r rule frames below i, m.Decides c f s (.reduce r) ∧
      m.Reduces c r rule frames below (.error i) ∧ e = .action i := by
  have known {d : Config σ α V S} (hd : d.stack = c.stack) {f : Frame V S} {i : IndexFault}
      (hf : f ∈ d.stack.items) (state : m.tables.state f.state = .error i) : False := by
    rw [hm, hl.state_eq (hd ▸ hf)] at state
    simp at state
  have recovers {d : Config σ α V S} (hd : d.stack = c.stack) {expected : List Terminal}
      (hr : m.Recovers d expected (.error h)) : False := by
    cases hr with
    | cornered passed verdict => simp [verdict] at he
    | overflow items full verdict => simp [verdict] at he
    | lost mem state => exact known hd mem state
  cases Machine.turn_of_error hs with
  | bare items => exact absurd items hl.ne_nil
  | lost top state => exact absurd (known rfl (List.mem_of_head? top) state) id
  | lostRule decides rule =>
    obtain ⟨p, -, -, -, rfl, -⟩ := Decides.pops hm hl decides
    rw [hm, rule_ruleId] at rule
    simp at rule
  | shortStack decides known short =>
    obtain ⟨p, above, g, below, rfl, -, hitems, -, hlen, -⟩ := Decides.pops hm hl decides
    rw [hm, rule_ruleId] at known
    obtain rfl := Except.ok.inj known
    rw [hitems, List.length_append] at short
    omega
  | actionFault decides reduces verdict =>
    exact ⟨_, _, _, _, _, _, _, decides, reduces, Verdict.fault.inj (he.symm.trans verdict)⟩
  | gotoBare decides reduces =>
    obtain ⟨p, g, below, -, -, -, hbelow, -⟩ := Reduces.pops hm hl decides reduces
    simp at hbelow
  | gotoLost decides reduces state =>
    refine absurd (known rfl ?_ state) id
    rw [reduces.items]
    exact List.mem_append_right _ List.mem_cons_self
  | failed _ hr => exact absurd (recovers rfl hr) id
  | raised _ _ acted _ hr => exact absurd (recovers acted.stack hr) id
  | _ => simp_all

theorem Linked.opening (x : σ) (a : α) : Linked (m.opening x a).stack.items := .start rfl

end Machine

end Calculator

end ShiftReduce
