import Mathlib.Data.List.Basic
import ShiftReduce.Proofs.Calculator.Completeness

namespace ShiftReduce.Calculator

/-- Trees of tokens other than the error terminal do not make up the rule for errors. -/
theorem error_not_plain {V S : Type} {ts : List (Tree V S)}
    (hts : ∀ l ∈ ts.flatMap Tree.yield, l.terminal ≠ Token.error.terminal)
    (hmap : ts.map Tree.symbol = Production.errorStmt.rule.rhs) : False := by
  obtain ⟨t, ts, rfl, ht, -⟩ := List.map_eq_cons_iff.1 hmap
  cases t with
  | leaf l => exact hts l (by simp) (Symbol.terminal.inj ht)
  | node p us => simp [Tree.symbol] at ht

variable {σ α V S φ : Type} [Merge S] {m : Machine σ α V S φ}
  (feed : Supply m.scanner m.tables.endTerminal) (e : S) (w : List (Lexeme V S)) (a₀ : α)

/-- An undisturbed configuration in which each frame above the start state stands for a tree. The
trees have been read from the front of `w`, and the semantic actions have been called for them in
order. -/
structure Assembled (c : Config σ α V S) (ps : List (Tree V S × Frame V S)) : Prop where
  phase : c.phase = .deciding
  mode : c.mode = .normal
  items : ∃ bottom, c.stack.items = (ps.map Prod.snd).reverse ++ [bottom]
  linked : Linked c.stack.items
  symbols : ∀ q ∈ ps, entered q.2.state = some q.1.symbol
  valid : ∀ q ∈ ps, q.1.Valid
  input : (ps.map Prod.fst).flatMap Tree.yield ++ feed.input c = w
  rules : rulesIn c.trace = (ps.map Prod.fst).flatMap Tree.postorder
  reports : reportsIn c.trace = []
  meaning : Tree.meanings m.actions e (ps.map Prod.fst) a₀ =
    some (ps.map fun q => (q.2.value, q.2.span), c.actions)
  gap : ps = [] → m.gap c = e

theorem Tree.meanings_length {acts : Actions α V S φ} {ts : List (Tree V S)} {a b : α}
    {vs : List (V × S)} (h : Tree.meanings acts e ts a = some (vs, b)) :
    vs.length = ts.length := by
  induction ts generalizing a vs with
  | nil =>
    obtain ⟨rfl, -⟩ : vs = [] ∧ b = a := by simpa [eq_comm] using h
    rfl
  | cons t ts ih =>
    obtain ⟨v, a', vs', -, hts, rfl⟩ := Tree.meanings_cons.1 h
    simp [ih hts]

variable {feed e w a₀} {c c' : Config σ α V S} {ps : List (Tree V S × Frame V S)}

theorem Assembled.shifted {f : Frame V S} {s : State} {target : StateId} (hm : m.tables = tables)
    (h : Assembled feed e w a₀ c ps) (hs : m.step c = .ok c')
    (decides : m.Decides c f s (.shift target)) (result : m.Shifted c target c') :
    ∃ q, Assembled feed e w a₀ c' (ps ++ [q]) := by
  obtain ⟨l, rest, hinput, hedge⟩ := Decides.takes feed hm h.linked decides
  obtain ⟨hitems, hrest⟩ := feed.shifted_cons result hinput
  obtain ⟨bottom, hbottom⟩ := h.items
  have hmem := h.linked.mem_stateIds_of_mem (List.mem_of_head? decides.top)
  refine ⟨(.leaf l, ⟨target, l.value, l.span⟩), result.phase.trans h.phase, ?_, ⟨bottom, ?_⟩,
    h.linked.step hm hs, ?_, ?_, ?_, ?_, result.reports.trans h.reports, ?_, by simp⟩
  · rw [result.mode, h.mode]
    rfl
  · simp [hitems, hbottom]
  · exact List.forall_mem_append.2 ⟨h.symbols,
      List.forall_mem_singleton.2 (edges_checked _ hmem _ hedge).2.2.1⟩
  · exact List.forall_mem_append.2 ⟨h.valid, List.forall_mem_singleton.2 (.leaf l)⟩
  · rw [← h.input, hinput, hrest]
    simp
  · rw [result.rules, h.rules]
    simp
  · rw [List.map_append, List.map_append, result.actions]
    exact Tree.meanings_append.2 ⟨_, _, _, h.meaning,
      Tree.meanings_cons.2 ⟨_, _, _, Tree.meaning_leaf l c.actions, Tree.meanings_nil _, rfl⟩, rfl⟩

/-- The frames of a right-hand side stand for the children of a tree. -/
theorem Assembled.split (h : Assembled feed e w a₀ c ps) {frames below : List (Frame V S)}
    {g : Frame V S} (hitems : c.stack.items = frames.reverse ++ g :: below) :
    ∃ qs rs bottom, ps = qs ++ rs ∧ rs.map Prod.snd = frames ∧
      g :: below = (qs.map Prod.snd).reverse ++ [bottom] := by
  obtain ⟨bottom, hbottom⟩ := h.items
  obtain ⟨b, init, hinit⟩ := List.exists_cons_of_ne_nil
    (show (g :: below).reverse ≠ [] by simp)
  have hrev := congrArg List.reverse (hbottom.symm.trans hitems)
  rw [List.reverse_append, List.reverse_reverse, List.reverse_append, List.reverse_reverse, hinit]
    at hrev
  obtain ⟨-, hmap⟩ := List.cons.inj hrev
  obtain ⟨qs, rs, rfl, rfl, hrs⟩ := List.map_eq_append_iff.1 hmap
  refine ⟨qs, rs, b, rfl, hrs, ?_⟩
  rw [← List.reverse_reverse (g :: below), hinit, List.reverse_cons]

variable (m) in
structure Gathers (e : S) (a₀ : α) (c : Config σ α V S) (ps qs rs : List (Tree V S × Frame V S))
    (p : Production) (frames below : List (Frame V S)) (g : Frame V S) (reply : Reply α V) :
    Prop where
  parts : ps = qs ++ rs
  tops : rs.map Prod.snd = frames
  below : ∃ bottom, g :: below = (qs.map Prod.snd).reverse ++ [bottom]
  valid : (Tree.node p (rs.map Prod.fst)).Valid
  meaning : Tree.meanings m.actions e (qs.map Prod.fst ++ [.node p (rs.map Prod.fst)]) a₀ =
    some (qs.map (fun q => (q.2.value, q.2.span)) ++
      [(reply.value, Machine.spread (m.gap c) frames)], reply.state)

section Gathers

variable {qs rs : List (Tree V S × Frame V S)} {p : Production} {g : Frame V S}
  {below : List (Frame V S)}

theorem Assembled.node_valid (htokens : ∀ l ∈ w, l.terminal ≠ Token.error.terminal)
    (h : Assembled feed e w a₀ c (qs ++ rs)) (hp : p ≠ .augmented)
    (hentered : (rs.map Prod.snd).map (fun f => entered f.state) = p.rule.rhs.map some) :
    (Tree.node p (rs.map Prod.fst)).Valid := by
  have spelled : (rs.map Prod.fst).map Tree.symbol = p.rule.rhs := by
    refine List.map_injective_iff.2 (fun _ _ => Option.some.inj) ?_
    rw [← hentered, List.map_map, List.map_map, List.map_map]
    exact List.map_congr_left fun q hq => (h.symbols q (List.mem_append_right _ hq)).symm
  refine .node ⟨hp, ?_⟩ spelled ?_
  · rintro rfl
    refine error_not_plain (fun l hl => htokens l ?_) spelled
    rw [← h.input, List.map_append, List.flatMap_append]
    exact List.mem_append_left _ (List.mem_append_right _ hl)
  · intro t ht
    obtain ⟨q, hq, rfl⟩ := List.mem_map.1 ht
    exact h.valid q (List.mem_append_right _ hq)

/-- An empty phrase is read before anything else, so it lies where the meaning is told to put it. -/
theorem Assembled.gap_eq (h : Assembled feed e w a₀ c (qs ++ rs)) (hl : Linked (g :: below))
    (h0 : Begun g.state p 0)
    (hentered : (rs.map Prod.snd).map (fun f => entered f.state) = p.rule.rhs.map some)
    (hbelow : ∃ bottom, g :: below = (qs.map Prod.snd).reverse ++ [bottom])
    (hnil : ((rs.map Prod.snd).map Frame.span) = []) : m.gap c = e := by
  obtain rfl : rs = [] := by simpa using hnil
  obtain rfl := hl.eq_nil_of_empty h0 (List.map_eq_nil_iff.1 hentered.symm)
  obtain ⟨bottom, hbottom⟩ := hbelow
  have hlength := congrArg List.length hbottom
  simp only [List.length_cons, List.length_nil, List.length_append, List.length_reverse,
    List.length_map] at hlength
  exact h.gap (by simpa using List.length_eq_zero_iff.1 (by omega : qs.length = 0))

/-- The semantic action of a rule gives the new node its meaning. -/
theorem Assembled.meanings_node {rule : Rule} {r : RuleId} {reply : Reply α V}
    (h : Assembled feed e w a₀ c (qs ++ rs)) (hr : r = p.ruleId) (hrule : rule = p.rule)
    (reduces : m.Reduces c r rule (rs.map Prod.snd) (g :: below) (.ok reply))
    (proceeds : reply.control = .proceed)
    (hgap : ((rs.map Prod.snd).map Frame.span) = [] → m.gap c = e) :
    Tree.meanings m.actions e (qs.map Prod.fst ++ [.node p (rs.map Prod.fst)]) a₀ =
      some (qs.map (fun q => (q.2.value, q.2.span)) ++
        [(reply.value, Machine.spread (m.gap c) (rs.map Prod.snd))], reply.state) := by
  subst hr hrule
  have hmeaning := h.meaning
  rw [List.map_append, List.map_append] at hmeaning
  obtain ⟨vs, a, us, hqs, hrs, hvs⟩ := Tree.meanings_append.1 hmeaning
  have hlen := Tree.meanings_length e hqs
  rw [List.length_map] at hlen
  obtain ⟨rfl, rfl⟩ := List.append_inj hvs (by simp [hlen])
  refine Tree.meanings_append.2 ⟨_, a, _, hqs, Tree.meanings_cons.2
    ⟨_, _, [], Tree.meaning_node.2 ⟨_, _, hrs, ?_⟩, Tree.meanings_nil _, rfl⟩, rfl⟩
  refine Tree.conclude_eq_some.2 ⟨reply, ?_, proceeds, ?_, rfl⟩
  · rw [← reduces.reply, Machine.reduction, Machine.spread_eq, stretch_congr hgap]
    simp [Machine.given, Function.comp_def]
  · rw [Machine.spread_eq, stretch_congr hgap]
    simp [Function.comp_def]

end Gathers

theorem Assembled.gathers {f g : Frame V S} {s : State} {p : Production} {rule : Rule}
    {frames below : List (Frame V S)} {reply : Reply α V} (hm : m.tables = tables)
    (htokens : ∀ l ∈ w, l.terminal ≠ Token.error.terminal) (h : Assembled feed e w a₀ c ps)
    (decides : m.Decides c f s (.reduce p.ruleId))
    (reduces : m.Reduces c p.ruleId rule frames (g :: below) (.ok reply))
    (proceeds : reply.control = .proceed) :
    ∃ qs rs, Gathers m e a₀ c ps qs rs p frames below g reply := by
  obtain ⟨p', g', below', hr, hp, hrule, hbelow, hentered, h0, hlink⟩ :=
    Reduces.pops hm h.linked decides reduces
  obtain rfl := Production.ruleId_injective hr
  obtain ⟨rfl, rfl⟩ := List.cons.inj hbelow
  obtain ⟨qs, rs, bottom, rfl, rfl, hbottom⟩ := h.split reduces.items
  have hgap := h.gap_eq hlink h0 hentered ⟨bottom, hbottom⟩
  exact ⟨qs, rs, rfl, rfl, ⟨bottom, hbottom⟩, h.node_valid htokens hp hentered,
    h.meanings_node rfl hrule reduces proceeds hgap⟩

/-- A reduction puts a node in the place of the trees that come below it. -/
theorem Assembled.reduced {f g : Frame V S} {p : Production} {target : StateId}
    {frames below : List (Frame V S)} {reply : Reply α V} (hm : m.tables = tables)
    (htokens : ∀ l ∈ w, l.terminal ≠ Token.error.terminal) (h : Assembled feed e w a₀ c ps)
    (hl : Linked c'.stack.items) (hc : Folded m c f p target frames below g reply c') :
    ∃ ps, Assembled feed e w a₀ c' ps := by
  obtain ⟨qs, rs, hgather⟩ := h.gathers hm htokens hc.decides hc.reduces hc.proceeds
  obtain ⟨bottom, hbottom⟩ := hgather.below
  obtain rfl := hgather.parts
  refine ⟨qs ++ [(.node p (rs.map Prod.fst),
      ⟨target, reply.value, Machine.spread (m.gap c) frames⟩)],
    hc.phase, hc.acted.mode.trans h.mode, ⟨bottom, ?_⟩, hl, ?_, ?_, ?_, ?_,
    hc.acted.reports.trans h.reports, ?_, by simp⟩
  · rw [hc.items, hbottom]
    simp
  · exact List.forall_mem_append.2 ⟨fun q hq => h.symbols q (List.mem_append_left _ hq),
      List.forall_mem_singleton.2 hc.entered_target⟩
  · exact List.forall_mem_append.2 ⟨fun q hq => h.valid q (List.mem_append_left _ hq),
      List.forall_mem_singleton.2 hgather.valid⟩
  · rw [hc.input, ← h.input]
    simp
  · refine hc.acted.rules.trans ?_
    rw [h.rules]
    simp
  · rw [List.map_append, List.map_append, hc.actions]
    exact hgather.meaning

/-- As long as no error occurs, the stack stands for what has been read. -/
theorem Assembled.step (hm : m.tables = tables)
    (htokens : ∀ l ∈ w, l.terminal ≠ Token.error.terminal)
    (h : c.stats.errors = 0 → ∃ ps, Assembled feed e w a₀ c ps) (hs : m.step c = .ok c')
    (herrors : c'.stats.errors = 0) : ∃ ps, Assembled feed e w a₀ c' ps := by
  obtain ⟨ps, h⟩ := h (Nat.le_zero.1 (herrors ▸ Machine.errors_le_of_step hs))
  cases Machine.turn_of_ok hs with
  | shifted decides room result =>
    obtain ⟨q, hq⟩ := h.shifted hm hs decides result
    exact ⟨_, hq⟩
  | reduced d st decides reduces acted proceeds other state room items =>
    obtain ⟨p, target, hc⟩ :=
      Folded.of_turn hm h.linked decides reduces acted proceeds other state items
    exact h.reduced hm htokens (h.linked.step hm hs) hc
  | failed decides recovers => exact absurd herrors recovers.errors_ne_zero
  | raised decides reduces acted raises recovers =>
    exact absurd herrors recovers.errors_ne_zero
  | resumed phase => simp [h.phase] at phase
  | discarded phase => simp [h.phase] at phase

theorem Assembled.opening (x : σ) (a : α) :
    Assembled feed (m.gap (m.opening x a)) (feed.pending x) a (m.opening x a) [] where
  phase := rfl
  mode := rfl
  items := ⟨_, rfl⟩
  linked := .opening x a
  symbols := by simp
  valid := by simp
  input := rfl
  rules := rfl
  reports := rfl
  meaning := rfl
  gap _ := rfl

/-- Wherever a parse gets without an error, the stack stands for what has been read. -/
theorem Assembled.reaches (hm : m.tables = tables) {x : σ} {a : α}
    (htokens : ∀ l ∈ feed.pending x, l.terminal ≠ Token.error.terminal)
    (hr : m.Reaches (m.opening x a) c) (herrors : c.stats.errors = 0) :
    ∃ ps, Assembled feed (m.gap (m.opening x a)) (feed.pending x) a c ps :=
  hr.preserves (P := fun c => c.stats.errors = 0 → ∃ ps,
      Assembled feed (m.gap (m.opening x a)) (feed.pending x) a c ps)
    (fun h hs => Assembled.step hm htokens h hs) (fun _ => ⟨[], .opening x a⟩) herrors

/-- A parse that accepts without an error has read a program: the rules that it has reduced by are
those of a tree for its input, and the semantic actions have given that tree its meaning. -/
theorem Assembled.accepted {v : V} {d : Config σ α V S} (hm : m.tables = tables)
    (haccept : ∀ r v a reply, m.actions.reduce r v a = .ok reply → reply.control ≠ .accept)
    (htokens : ∀ l ∈ w, l.terminal ≠ Token.error.terminal)
    (h : Assembled feed e w a₀ c ps) (hs : m.step c = .error ⟨.accepted v, d⟩) :
    ∃ t : Tree V S, t.Parses w ∧ rulesIn d.trace = t.postorder ∧ reportsIn d.trace = [] ∧
      ∃ s, t.meaning m.actions e a₀ = some ((v, s), d.actions) := by
  obtain ⟨f, s, r, rule, frames, below, reply, decides, reduces, acted, accepts, rfl⟩ :=
    Machine.exists_accepted hs
  obtain ⟨proceeds, hrule⟩ := accepts.resolve_left (haccept _ _ _ _ reduces.reply)
  obtain ⟨rfl, rfl, ⟨g, rfl, -⟩, -, hend⟩ := Reduces.program hm h.linked decides reduces hrule
  obtain ⟨qs, rs, hgather⟩ := h.gathers hm htokens decides reduces proceeds
  obtain ⟨bottom, hbottom⟩ := hgather.below
  have hlength := congrArg List.length hbottom
  simp only [List.length_cons, List.length_nil, List.length_append, List.length_reverse,
    List.length_map] at hlength
  obtain rfl := List.length_eq_zero_iff.1 (by omega : qs.length = 0)
  obtain rfl : ps = rs := hgather.parts
  have hinput := h.input
  rw [feed.input_eq_nil_iff.2 (hend.trans (hm ▸ rfl)), List.append_nil] at hinput
  refine ⟨.node .program (ps.map Prod.fst), ⟨hgather.valid, rfl, by simpa using hinput⟩, ?_,
    acted.reports.trans h.reports, ?_⟩
  · rw [acted.rules, h.rules, Tree.postorder_node]
  · obtain ⟨v, a, vs, ht, hnil, hvs⟩ := Tree.meanings_cons.1 hgather.meaning
    obtain ⟨rfl, rfl⟩ : vs = [] ∧ a = reply.state := by simpa [eq_comm] using hnil
    obtain ⟨rfl, -⟩ := List.cons.inj hvs
    exact ⟨_, by rw [ht, acted.actions]⟩

end ShiftReduce.Calculator
