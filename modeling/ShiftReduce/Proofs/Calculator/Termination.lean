import Mathlib.Algebra.GroupWithZero.Nat
import ShiftReduce.Proofs.Calculator.Shape
import ShiftReduce.Proofs.Machine.Supply

namespace ShiftReduce.Calculator

/-- The steps that a symbol on the stack may still cost. -/
def tolls : List (Symbol × Nat) :=
  [(Token.semicolon, 5), (.number, 4), (.ident, 4), (.leftParen, 2), (.rightParen, 1),
    (.minus, 1), (.error, 1)].map (fun p => (.terminal p.1.terminal, p.2))
  ++ [(Phrase.factor, 3), (.term, 2), (.expr, 1), (.stmt, 1)].map
    fun p => (.nonterminal p.1.nonterminal, p.2)

def toll (X : Symbol) : Nat := ((tolls.find? (·.1 = X)).map Prod.snd).getD 0

def afterError : StateId := ⟨12⟩

/-- The steps that a state on top of the stack may cost by itself: an error is answered in two,
which a statement given up for an error has paid already. -/
def surcharge (s : StateId) : Nat :=
  if s = .start then 4 else if s = afterError ∨ s = ⟨13⟩ then 0 else 3

/-- Every symbol that is read or made pays for what it costs. -/
theorem edges_paid : ∀ s ∈ stateIds, ∀ e ∈ (stateAt s).edges,
    toll e.1 + surcharge e.2 < 8 + surcharge s := by
  decide +kernel

theorem reductions_paid : ∀ s ∈ stateIds, ∀ p ∈ Production.all,
    p.ruleId ∈ (stateAt s).reductions → p ≠ .program →
      toll (.nonterminal p.rule.lhs) + 3 < (p.rule.rhs.map toll).sum + surcharge s := by
  decide +kernel

theorem gotos_surcharged : ∀ s ∈ stateIds, ∀ e ∈ (stateAt s).gotos.entries,
    surcharge e.2 = 3 := by
  decide +kernel

theorem errors_paid : ∀ s ∈ stateIds, s ≠ afterError → 2 < surcharge s ∨
    2 < (entered s).elim 0 toll ∧
      (stateAt s).shiftTarget? Token.error.terminal = none := by
  decide +kernel

/-- Only the error terminal leads to the state behind it. -/
theorem error_edges : ∀ s ∈ stateIds, ∀ e ∈ (stateAt s).edges,
    e.2 = afterError ↔ e.1 = .terminal Token.error.terminal := by
  decide +kernel

theorem no_end_edges : ∀ s ∈ stateIds, ∀ e ∈ (stateAt s).edges,
    e.1 ≠ .terminal Token.endOfInput.terminal := by
  decide +kernel

theorem lookup_afterError {t : Terminal} (h : (stateAt afterError).lookup t ≠ 0) :
    t = Token.semicolon.terminal := by
  by_cases ht : Token.semicolon.terminal = t
  · exact ht.symm
  · refine absurd ?_ h
    change (OrderedMap.find t [(Token.semicolon.terminal, (13 : Cell))]).getD 0 = 0
    simp [OrderedMap.find, ht]

variable {σ α V S φ : Type} {m : Machine σ α V S φ} {c c' : Config σ α V S}

section Weigh

variable (w : Symbol → Nat) (f : Frame V S) (fs gs : List (Frame V S))

def weigh (fs : List (Frame V S)) : Nat := (fs.map fun f => (entered f.state).elim 0 w).sum

@[simp] theorem weigh_append : weigh w (fs ++ gs) = weigh w fs + weigh w gs := by
  simp [weigh]

@[simp] theorem weigh_cons : weigh w (f :: fs) = (entered f.state).elim 0 w + weigh w fs := by
  simp [weigh]

@[simp] theorem weigh_reverse : weigh w fs.reverse = weigh w fs := by
  simp [weigh]

variable {fs} in
/-- The frames of a right-hand side weigh what its symbols do. -/
theorem weigh_of_entered {Xs : List Symbol}
    (h : fs.map (fun f => entered f.state) = Xs.map some) : weigh w fs = (Xs.map w).sum := by
  have hmap := congrArg (List.map fun o => Option.elim o 0 w) h
  simp only [List.map_map] at hmap
  exact congrArg List.sum hmap

end Weigh

def load (fs : List (Frame V S)) : Nat := (fs.map fun f => (entered f.state).elim 0 toll).sum

@[simp] theorem load_append (fs gs : List (Frame V S)) : load (fs ++ gs) = load fs + load gs :=
  weigh_append toll fs gs

@[simp] theorem load_cons (f : Frame V S) (fs : List (Frame V S)) :
    load (f :: fs) = (entered f.state).elim 0 toll + load fs :=
  weigh_cons toll f fs

@[simp] theorem load_reverse (fs : List (Frame V S)) : load fs.reverse = load fs :=
  weigh_reverse toll fs

/-- The frames of a right-hand side cost what its symbols do. -/
theorem load_of_entered {fs : List (Frame V S)} {Xs : List Symbol}
    (h : fs.map (fun f => entered f.state) = Xs.map some) : load fs = (Xs.map toll).sum :=
  weigh_of_entered toll h

def headroom (fs : List (Frame V S)) : Nat := (fs.head?.map fun f => surcharge f.state).getD 0

variable (feed : Supply m.scanner m.tables.endTerminal)

/-- What a configuration may still cost. -/
def potential (c : Config σ α V S) : Nat :=
  8 * (feed.input c).length + load c.stack.items + headroom c.stack.items +
    if c.phase = .deciding then 0 else 1

/-- While input is skipped the error terminal is on top of the stack, and it comes to be decided
on only when a semicolon is next. -/
structure Orderly (c : Config σ α V S) : Prop where
  linked : Linked c.stack.items
  tokens : ∀ l ∈ feed.input c, l.terminal ≠ Token.error.terminal
  caught : ∀ f, c.stack.items.head? = some f → c.phase ≠ .deciding → f.state = afterError
  awaits : ∀ f, c.stack.items.head? = some f → c.phase = .deciding → f.state = afterError →
    m.ahead c = Token.semicolon.terminal

variable {feed} {f : Frame V S}

theorem Orderly.ne_afterError {s : State} {a : Action} (hm : m.tables = tables)
    (ho : Orderly feed c) (d : m.Decides c f s a) (ha : a ≠ .shift ⟨13⟩) :
    f.state ≠ afterError := by
  intro hf
  have hnext := ho.awaits f d.top d.phase hf
  have hact := d.action
  rw [(Decides.row hm ho.linked d).2, hf, hnext] at hact
  exact ha (hact.symm.trans rfl)

/-- The error terminal comes on top of what is kept of the stack, and the frame that was on top is
not kept unless it catches the error itself. -/
theorem Recovers.kept (w : Symbol → Nat) {expected : List Terminal} (hm : m.tables = tables)
    (hl : Linked c.stack.items) (htop : c.stack.items.head? = some f)
    (h : m.Recovers c expected (.ok c')) : ∃ e kept, c'.stack.items = e :: kept ∧
      e.state = afterError ∧ c'.phase ≠ .deciding ∧
      weigh w kept + (if (stateAt f.state).shiftTarget? Token.error.terminal = none
        then (entered f.state).elim 0 w else 0) ≤ weigh w c.stack.items := by
  cases h with
  | @recovered above below g s target _ items passed state catches room result =>
    have hlink := (items ▸ hl).of_append
    rw [hm, hlink.state_eq List.mem_cons_self] at state
    obtain rfl := Except.ok.inj state
    have hcatch : (stateAt g.state).shiftTarget? Token.error.terminal = some target := by
      rw [hm] at catches
      exact catches
    have hedge := State.edges_of_shiftTarget? hcatch
    have htarget : target = afterError := (error_edges _ hlink.mem_stateIds _ hedge).2 rfl
    refine ⟨_, g :: below, result.items, htarget, by rw [result.phase]; simp, ?_⟩
    rw [items] at htop
    rw [items, weigh_append]
    cases above with
    | nil =>
      obtain rfl : g = f := by simpa using htop
      simp [hcatch]
    | cons f' above =>
      obtain rfl : f' = f := by simpa using htop
      have habove := weigh_cons w f' above
      split <;> omega

/-- To answer an error is cheaper than what it gives up. -/
theorem Recovers.cheaper {expected : List Terminal} (hm : m.tables = tables)
    (hl : Linked c.stack.items) (htop : c.stack.items.head? = some f) (hf : f.state ≠ afterError)
    (h : m.Recovers c expected (.ok c')) : c'.phase ≠ .deciding ∧
      (∀ g, c'.stack.items.head? = some g → g.state = afterError) ∧
      load c'.stack.items + headroom c'.stack.items + 1 <
        load c.stack.items + headroom c.stack.items := by
  obtain ⟨e, kept, hitems, he, hphase, hkept⟩ := Recovers.kept toll hm hl htop h
  have hpay := errors_paid _ (hl.mem_stateIds_of_mem (List.mem_of_head? htop)) hf
  have hroom : headroom c.stack.items = surcharge f.state := by simp [headroom, htop]
  have hnew : load c'.stack.items + headroom c'.stack.items = 1 + weigh toll kept := by
    rw [hitems, load_cons, headroom, List.head?_cons, Option.map_some, he]
    rfl
  refine ⟨hphase, ?_, ?_⟩
  · intro g hg
    rw [hitems] at hg
    rw [← Option.some.inj hg, he]
  · rw [hnew, hroom]
    change weigh toll kept + _ ≤ load c.stack.items at hkept
    rcases hpay with hpay | ⟨hpay, hnone⟩
    · omega
    · rw [if_pos hnone] at hkept
      omega

/-- An error is answered at a configuration that differs in neither the stack nor the input from
the one where the step began. -/
theorem Orderly.recover {d : Config σ α V S} {expected : List Terminal} (hm : m.tables = tables)
    (ho : Orderly feed c) (hphase : c.phase = .deciding)
    (htop : c.stack.items.head? = some f) (hf : f.state ≠ afterError)
    (hstack : d.stack = c.stack) (hinput : feed.input d = feed.input c)
    (h : m.Recovers d expected (.ok c')) :
    Orderly feed c' ∧ potential feed c' < potential feed c := by
  have hl : Linked d.stack.items := hstack ▸ ho.linked
  obtain ⟨hskips, hcaught, hlt⟩ := Recovers.cheaper hm hl (hstack ▸ htop) hf h
  have hinput' : feed.input c' = feed.input c := by
    cases h with
    | recovered items passed state catches room result =>
      exact (feed.recovered result).trans hinput
  rw [hstack] at hlt
  refine ⟨⟨Recovers.linked hm hl h, ?_, fun g hg _ => hcaught g hg,
    fun g _ hdec => absurd hdec hskips⟩, ?_⟩
  · rw [hinput']
    exact ho.tokens
  · unfold potential
    rw [hinput', if_pos hphase, if_neg hskips]
    omega

variable (feed) in
/-- A token that the automaton shifts is never the end of input. -/
theorem Decides.takes {s : State} {target : StateId} (hm : m.tables = tables)
    (hl : Linked c.stack.items) (d : m.Decides c f s (.shift target)) : ∃ l rest,
      feed.input c = l :: rest ∧ (.terminal l.terminal, target) ∈ (stateAt f.state).edges := by
  have hedge := Decides.edge hm hl d
  have hne : feed.input c ≠ [] := by
    intro hnil
    refine no_end_edges _ (hl.mem_stateIds_of_mem (List.mem_of_head? d.top)) _ hedge ?_
    rw [feed.ahead_of_nil hnil, hm]
    rfl
  obtain ⟨l, rest, hinput⟩ := List.exists_cons_of_ne_nil hne
  exact ⟨l, rest, hinput, (feed.ahead_of_cons hinput).1 ▸ hedge⟩

/-- A token pays for what it costs on the stack. -/
theorem Linked.shift_paid {fs : List (Frame V S)} {X : Symbol} {target : StateId}
    (hl : Linked (f :: fs)) (hedge : (X, target) ∈ (stateAt f.state).edges) (v : V) (e : S) :
    load (⟨target, v, e⟩ :: f :: fs) + headroom (⟨target, v, e⟩ :: f :: fs) <
      8 + load (f :: fs) + headroom (f :: fs) := by
  have hmem := hl.mem_stateIds_of_mem List.mem_cons_self
  have hpaid := edges_paid _ hmem _ hedge
  have hnew : load (⟨target, v, e⟩ :: f :: fs) = toll X + load (f :: fs) := by
    rw [load_cons, (edges_checked _ hmem _ hedge).2.2.1]
    rfl
  rw [hnew]
  change _ + surcharge target < _ + surcharge f.state
  dsimp only at hpaid
  omega

/-- A phrase costs less than what it is made of. -/
theorem Folds.paid {g : Frame V S} {frames below : List (Frame V S)} {p : Production}
    {target : StateId} (h : Folds p target frames below g) (hf : f.state ∈ stateIds)
    (hp : p.ruleId ∈ (stateAt f.state).reductions) (v : V) (e : S) :
    load (⟨target, v, e⟩ :: g :: below) + headroom (⟨target, v, e⟩ :: g :: below) <
      load (frames.reverse ++ g :: below) + surcharge f.state := by
  have hpaid := reductions_paid _ hf p (Production.mem_all p) hp h.inner.2
  have hgoto := gotos_surcharged _ h.linked.mem_stateIds _ (OrderedMap.mem_of_get? h.goto)
  have hnew : load (⟨target, v, e⟩ :: g :: below) + headroom (⟨target, v, e⟩ :: g :: below) =
      toll (.nonterminal p.rule.lhs) + load (g :: below) + 3 := by
    rw [load_cons, h.entered_target, ← hgoto]
    rfl
  have hold : load (frames.reverse ++ g :: below) =
      (p.rule.rhs.map toll).sum + load (g :: below) := by
    rw [load_append, load_reverse, load_of_entered h.spelled]
  omega

theorem Orderly.shift {s : State} {target : StateId} (hm : m.tables = tables)
    (ho : Orderly feed c) (hl : Linked c'.stack.items) (decides : m.Decides c f s (.shift target))
    (result : m.Shifted c target c') : Orderly feed c' ∧ potential feed c' < potential feed c := by
  obtain ⟨l, left, hinput, hedge⟩ := Decides.takes feed hm ho.linked decides
  obtain ⟨hitems, hleft⟩ := feed.shifted_cons result hinput
  obtain ⟨rest, hrest⟩ := List.head?_eq_some_iff.1 decides.top
  have hphase : c'.phase = .deciding := result.phase.trans decides.phase
  have hold := ho.linked
  rw [hrest] at hold hitems
  have htarget : target ≠ afterError := by
    intro ht
    have herr := (error_edges _ hold.mem_stateIds _ hedge).1 ht
    exact ho.tokens l (by simp [hinput]) (by simpa using herr)
  refine ⟨⟨hl, ?_, fun g _ hdec => absurd hphase hdec, ?_⟩, ?_⟩
  · intro l' hl'
    exact ho.tokens l' (by rw [hinput]; exact List.mem_cons_of_mem _ (hleft ▸ hl'))
  · intro g hg _ hstate
    rw [hitems] at hg
    obtain rfl := Option.some.inj hg
    exact absurd hstate htarget
  · have hpaid := hold.shift_paid hedge l.value l.span
    unfold potential
    rw [hitems, hleft, hinput, hrest, List.length_cons, if_pos decides.phase, if_pos hphase]
    omega

variable {target : StateId} {p : Production} {g : Frame V S} {frames below : List (Frame V S)}
  {reply : Reply α V}

theorem Folded.input [Merge S] (h : Folded m c f p target frames below g reply c') :
    feed.input c' = feed.input c :=
  (feed.input_stack (c := c') c.stack).symm.trans (feed.acted h.acted)

theorem Orderly.reduce [Merge S] (ho : Orderly feed c) (hl : Linked c'.stack.items)
    (h : Folded m c f p target frames below g reply c') :
    Orderly feed c' ∧ potential feed c' < potential feed c := by
  refine ⟨⟨hl, h.input ▸ ho.tokens, fun g' _ hdec => absurd h.phase hdec, ?_⟩, ?_⟩
  · intro g' hg' _ hstate
    rw [h.items] at hg'
    obtain rfl := Option.some.inj hg'
    have herr := (error_edges _ h.linked.mem_stateIds _ h.edge).1 hstate
    simp at herr
  · have hmem := ho.linked.mem_stateIds_of_mem (List.mem_of_head? h.decides.top)
    have hpaid := h.paid hmem (State.mem_reductions h.decides.action) reply.value
      (Machine.spread (m.gap c) frames)
    have hold : headroom c.stack.items = surcharge f.state := by simp [headroom, h.decides.top]
    rw [← h.items, ← h.reduces.items, ← hold] at hpaid
    unfold potential
    rw [h.input, if_pos h.decides.phase, if_pos h.phase]
    omega

/-- Where the row of the error state fits the next token, that token is a semicolon. -/
theorem Orderly.resume {d : Config σ α V S} {s : State} (hm : m.tables = tables)
    (ho : Orderly feed c) (hphase : c.phase ≠ .deciding) (top : c.stack.items.head? = some f)
    (state : m.tables.state f.state = .ok s)
    (fits : s.hasLookahead = true → s.lookup (m.ahead c) ≠ 0) (hstack : d.stack = c.stack)
    (hinput : feed.input d = feed.input c) (hahead : m.ahead d = m.ahead c)
    (hdeciding : d.phase = .deciding) :
    Orderly feed d ∧ potential feed d < potential feed c := by
  rw [hm, ho.linked.state_eq (List.mem_of_head? top)] at state
  obtain rfl := Except.ok.inj state
  rw [ho.caught f top hphase] at fits
  refine ⟨⟨hstack ▸ ho.linked, hinput ▸ ho.tokens, fun g _ hdec => absurd hdeciding hdec, ?_⟩, ?_⟩
  · exact fun g _ _ _ => hahead.trans (lookup_afterError (fits rfl))
  · unfold potential
    rw [hinput, hstack, if_neg hphase, if_pos hdeciding]
    omega

theorem Orderly.discard {d : Config σ α V S} (ho : Orderly feed c) (hphase : c.phase ≠ .deciding)
    (more : m.ahead c ≠ m.tables.endTerminal) (hscanner : d.scanner = (m.fetched c).scanner)
    (hlook : d.lookahead = none) (hstack : d.stack = c.stack) (hskips : d.phase ≠ .deciding) :
    Orderly feed d ∧ potential feed d < potential feed c := by
  obtain ⟨l, hinput⟩ := feed.discarded more hscanner hlook
  refine ⟨⟨hstack ▸ ho.linked, ?_, ?_, fun g _ hdec => absurd hdec hskips⟩, ?_⟩
  · intro l' hl'
    exact ho.tokens l' (by rw [hinput]; exact List.mem_cons_of_mem _ hl')
  · intro g hg _
    exact ho.caught g (hstack ▸ hg) hphase
  · unfold potential
    rw [hinput, hstack, if_neg hphase, if_neg hskips, List.length_cons]
    omega

/-- No step loses order, and every step is paid for. -/
theorem Orderly.step [Merge S] (hm : m.tables = tables) (ho : Orderly feed c)
    (hs : m.step c = .ok c') : Orderly feed c' ∧ potential feed c' < potential feed c := by
  have hlinked := ho.linked.step hm hs
  cases Machine.turn_of_ok hs with
  | shifted decides room result => exact ho.shift hm hlinked decides result
  | reduced d st decides reduces acted proceeds other state room items =>
    obtain ⟨p, target, h⟩ :=
      Folded.of_turn hm ho.linked decides reduces acted proceeds other state items
    exact ho.reduce hlinked h
  | failed decides recovers =>
    exact ho.recover hm decides.phase decides.top (ho.ne_afterError hm decides (by simp)) rfl rfl
      recovers
  | raised decides reduces acted raises recovers =>
    exact ho.recover hm decides.phase decides.top (ho.ne_afterError hm decides (by simp))
      acted.stack (feed.acted acted) recovers
  | resumed phase top state careful fits =>
    refine ho.resume hm (by simp [phase]) top state fits ?_ ?_ ?_ (by simp)
    all_goals split <;> simp
  | discarded phase top state unfit more =>
    exact ho.discard (by simp [phase]) more rfl rfl (by simp) (by simp)

variable (feed) in
/-- A token leaves the input by being shifted or discarded. -/
theorem count_step [Merge S] (hm : m.tables = tables) (hl : Linked c.stack.items)
    (hs : m.step c = .ok c') :
    c'.stats.shifts + c'.stats.discarded + (feed.input c').length =
      c.stats.shifts + c.stats.discarded + (feed.input c).length := by
  have recovers {d : Config σ α V S} {expected : List Terminal}
      (hr : m.Recovers d expected (.ok c')) :
      c'.stats.shifts + c'.stats.discarded + (feed.input c').length =
        d.stats.shifts + d.stats.discarded + (feed.input d).length := by
    cases hr with
    | recovered items passed state catches room result =>
      rw [result.stats, feed.recovered result]
      simp
  cases Machine.turn_of_ok hs with
  | shifted decides room result =>
    obtain ⟨l, rest, hinput, -⟩ := Decides.takes feed hm hl decides
    rw [result.stats, (feed.shifted_cons result hinput).2, hinput, List.length_cons]
    simp only [Machine.discarded_fetched]
    omega
  | reduced d st decides reduces acted =>
    rw [feed.input_turned, feed.input_stack, feed.acted acted, Machine.stats_turned, acted.stats]
    simp
  | failed decides hr => exact recovers hr
  | raised decides reduces acted raises hr =>
    rw [recovers hr, feed.acted acted, acted.stats]
    simp
  | resumed phase top state careful fits => split <;> simp
  | discarded phase top state unfit more =>
    obtain ⟨l, hinput⟩ := feed.discarded (d := ({ m.fetched c with
      lookahead := none
      phase := .skipping false
      stats := { (m.fetched c).stats with
        discarded := c.stats.discarded + 1 } }.emit (.discarded (m.ahead c)))) more rfl rfl
    rw [hinput, List.length_cons]
    simp only [Config.stats_emit, Machine.shifts_fetched]
    omega

theorem Orderly.opening (x : σ) (a : α)
    (htokens : ∀ l ∈ feed.pending x, l.terminal ≠ Token.error.terminal) :
    Orderly feed (m.opening x a) := by
  refine ⟨.opening x a, htokens, fun g _ hdec => absurd rfl hdec, ?_⟩
  intro g hg _ hstate
  rw [Machine.items_opening] at hg
  obtain rfl := Option.some.inj hg
  exact absurd hstate (show StateId.start ≠ afterError by decide)

variable (feed) in
/-- A run on `n` tokens ends within `8 * n + 5` steps, whatever the semantic actions do. -/
theorem run_ends [Merge S] (hm : m.tables = tables) (x : σ) (a : α)
    (htokens : ∀ l ∈ feed.pending x, l.terminal ≠ Token.error.terminal) {fuel : Nat}
    (hfuel : 8 * (feed.pending x).length + 4 < fuel) :
    (m.run fuel (m.opening x a)).verdict ≠ .exhausted :=
  Machine.run_ne_exhausted (P := Orderly feed) (potential feed) (fun hc hs => hc.step hm hs)
    (.opening x a htokens) hfuel

end ShiftReduce.Calculator
