import ShiftReduce.Proofs.Calculator.Soundness
import ShiftReduce.Proofs.Calculator.Termination

namespace ShiftReduce.Calculator

section Derivations

variable {Xs Ys : List Symbol} {X : Symbol} {p : Production}

theorem Rewrites.of_plain (hp : p.Plain) (pre post : List Symbol) :
    Rewrites (pre ++ .nonterminal p.rule.lhs :: post) (pre ++ p.rule.rhs ++ post) :=
  .mk (plainRule_iff.2 ⟨p, hp, rfl, rfl⟩) pre post

theorem Rewrites.within (h : Rewrites Xs Ys) (pre post : List Symbol) :
    Rewrites (pre ++ Xs ++ post) (pre ++ Ys ++ post) := by
  cases h with
  | mk plain pre' post' => simpa using Rewrites.mk plain (pre ++ pre') (post' ++ post)

/-- What can be derived can be derived in any place. -/
theorem derives_within (h : Relation.ReflTransGen Rewrites Xs Ys) (pre post : List Symbol) :
    Relation.ReflTransGen Rewrites (pre ++ Xs ++ post) (pre ++ Ys ++ post) :=
  h.lift (fun Zs => pre ++ Zs ++ post) fun _ _ hstep => hstep.within pre post

/-- A shortest sentence of a symbol. -/
def sample : Symbol → List Terminal
  | .terminal a => [a]
  | .nonterminal n =>
    if n = Phrase.stmt.nonterminal then [Token.number.terminal, Token.semicolon.terminal]
    else if n = Phrase.stmts.nonterminal ∨ n = Phrase.program.nonterminal then []
    else [Token.number.terminal]

def Sampled (X : Symbol) : Prop :=
  Relation.ReflTransGen Rewrites [X] ((sample X).map .terminal)

theorem derives_samples (h : ∀ X ∈ Xs, Sampled X) :
    Relation.ReflTransGen Rewrites Xs ((Xs.flatMap sample).map .terminal) := by
  induction Xs with
  | nil => exact .refl
  | cons X Xs ih =>
    have hhead := derives_within (h X List.mem_cons_self) [] Xs
    have htail := derives_within (ih fun Y hY => h Y (List.mem_cons_of_mem X hY))
      ((sample X).map .terminal) []
    simp only [List.nil_append, List.append_nil, List.singleton_append] at hhead htail
    rw [List.flatMap_cons, List.map_append]
    exact hhead.trans htail

theorem Sampled.terminal (a : Terminal) : Sampled (.terminal a) := .refl

theorem Sampled.of_plain (hp : p.Plain)
    (hs : sample (.nonterminal p.rule.lhs) = p.rule.rhs.flatMap sample)
    (h : ∀ X ∈ p.rule.rhs, Sampled X) : Sampled (.nonterminal p.rule.lhs) := by
  have hstep := Rewrites.of_plain hp [] []
  rw [List.append_nil, List.nil_append] at hstep
  rw [Sampled, hs]
  exact .head hstep (derives_samples h)

/-- A program is made of tokens and these phrases. -/
theorem parts_checked : ∀ p ∈ Production.all, p.Plain → ∀ X ∈ p.rule.rhs,
    X ∈ Token.all.map (fun t => .terminal t.terminal) ∨
      X ∈ [Phrase.factor, .term, .expr, .stmt, .stmts].map
        (fun n => .nonterminal n.nonterminal) := by
  decide

/-- Every part of a program has a sentence. -/
theorem sampled (hp : p.Plain) (hX : X ∈ p.rule.rhs) : Sampled X := by
  have factor : Sampled (.nonterminal Phrase.factor.nonterminal) :=
    .of_plain (p := .literal) ⟨by decide, by decide⟩ rfl
      (by simp [Production.rule, Sampled.terminal])
  have term : Sampled (.nonterminal Phrase.term.nonterminal) :=
    .of_plain (p := .termOfFactor) ⟨by decide, by decide⟩ rfl (by simpa [Production.rule])
  have expr : Sampled (.nonterminal Phrase.expr.nonterminal) :=
    .of_plain (p := .exprOfTerm) ⟨by decide, by decide⟩ rfl (by simpa [Production.rule])
  have stmt : Sampled (.nonterminal Phrase.stmt.nonterminal) :=
    .of_plain (p := .exprStmt) ⟨by decide, by decide⟩ rfl
      (by simpa [Production.rule, Sampled.terminal])
  have stmts : Sampled (.nonterminal Phrase.stmts.nonterminal) :=
    .of_plain (p := .noStmts) ⟨by decide, by decide⟩ rfl (by simp [Production.rule])
  rcases parts_checked p (Production.mem_all p) hp X hX with h | h
  · obtain ⟨t, -, rfl⟩ := List.mem_map.1 h
    exact .terminal t.terminal
  · obtain ⟨n, hn, rfl⟩ := List.mem_map.1 h
    simp only [List.mem_cons, List.not_mem_nil, or_false] at hn
    rcases hn with rfl | rfl | rfl | rfl | rfl
    · exact factor
    · exact term
    · exact expr
    · exact stmt
    · exact stmts

end Derivations

/-- What symbols weigh so that what is begun weighs more than the phrase that it begins. -/
def rank : Symbol → Nat
  | .terminal _ => 5
  | .nonterminal n =>
    if n = Phrase.factor.nonterminal then 4
    else if n = Phrase.term.nonterminal then 3
    else if n = Phrase.expr.nonterminal then 2
    else 1

/-- Every state but the first is in the middle of a phrase that weighs less than what has been read
of it, or it has read all the statements that there may be. -/
theorem progress_checked : ∀ s ∈ stateIds, s ≠ .start → ∃ q ∈ progress s,
    0 < q.2 ∧ q.1 ≠ .augmented ∧ (q = (.program, 1) ∨ q.1 ≠ .program ∧
      rank (.nonterminal q.1.rule.lhs) < ((q.1.rule.rhs.take q.2).map rank).sum) := by
  decide +kernel

variable {V S : Type} {fs : List (Frame V S)}

def symbols (fs : List (Frame V S)) : List Symbol := fs.reverse.filterMap fun f => entered f.state

theorem symbols_cons (f : Frame V S) (fs : List (Frame V S)) :
    symbols (f :: fs) = symbols fs ++ (entered f.state).toList := by
  cases h : entered f.state <;> simp [symbols, h]

/-- What has been read of a phrase is on top of the symbols. -/
theorem symbols_append {above below : List (Frame V S)} {Xs : List Symbol}
    (h : above.reverse.map (fun f => entered f.state) = Xs.map some) :
    symbols (above ++ below) = symbols below ++ Xs := by
  have habove : above.reverse.filterMap (fun f => entered f.state) = Xs := by
    have hmap := congrArg (List.filterMap id) h
    simpa [List.filterMap_map, Function.comp_def] using hmap
  rw [symbols, List.reverse_append, List.filterMap_append, habove, symbols]

/-- The top of the stack is what has been read of a phrase. Either this is the whole program, or a
stack with the phrase in its place weighs less. -/
theorem Linked.within {f : Frame V S} {rest : List (Frame V S)} (h : Linked (f :: rest))
    (hf : f.state ≠ .start)
    (herror : ∀ g ∈ f :: rest, entered g.state ≠ some (.terminal Token.error.terminal)) :
    symbols (f :: rest) = [.nonterminal Phrase.stmts.nonterminal] ∨
      ∃ (p : Production) (k : Nat) (e : Frame V S) (below : List (Frame V S)), p.Plain ∧
        Linked (e :: below) ∧ entered e.state = some (.nonterminal p.rule.lhs) ∧
        (∀ g ∈ below, g ∈ f :: rest) ∧
        symbols (f :: rest) = symbols below ++ p.rule.rhs.take k ∧
        weigh rank (e :: below) < weigh rank (f :: rest) := by
  obtain ⟨⟨p, k⟩, hq, hpos, haug, hitem⟩ := progress_checked _ h.mem_stateIds hf
  have hbegun : Begun f.state p k := by
    obtain ⟨k, rfl⟩ := Nat.exists_eq_succ_of_ne_zero (Nat.ne_of_gt hpos)
    exact hq
  obtain ⟨above, g, below, hitems, hmap, -, h0, hlink⟩ := h.begun hbegun
  have hsymbols : symbols (f :: rest) = symbols (g :: below) ++ p.rule.rhs.take k := by
    rw [hitems]
    exact symbols_append hmap
  -- The item checked for the state tells which phrase has been begun. If it is not the whole
  -- program, it can be completed, and its symbol weighs less.
  rcases hitem with hitem | ⟨hprog, hlt⟩
  · obtain ⟨rfl, rfl⟩ := Prod.mk.inj hitem
    have hstart := program_begins _ hlink.mem_stateIds h0
    obtain rfl := hlink.eq_nil_of_start hstart
    left
    rw [hsymbols, symbols_cons, hstart]
    rfl
  · obtain ⟨target, htarget⟩ := h0.goto hprog
    have hedge := State.edges_of_gotoFor htarget
    have hentered := (edges_checked _ hlink.mem_stateIds _ hedge).2.2.1
    refine .inr ⟨p, k, ⟨target, f.value, f.span⟩, g :: below, ⟨haug, ?_⟩, .push hedge hlink,
      hentered, ?_, hsymbols, ?_⟩
    · -- The rule for errors would have begun with the error terminal.
      rintro rfl
      obtain ⟨k, rfl⟩ := Nat.exists_eq_succ_of_ne_zero (Nat.ne_of_gt hpos)
      obtain ⟨e, es, hes, he, -⟩ := List.map_eq_cons_iff.1 hmap
      refine herror e ?_ he
      rw [hitems]
      exact List.mem_append_left _ (List.mem_reverse.1 (hes ▸ List.mem_cons_self))
    · intro e he
      rw [hitems]
      exact List.mem_append_right _ he
    · rw [hitems, weigh_append, weigh_cons, ← weigh_reverse _ above, weigh_of_entered _ hmap]
      dsimp only
      rw [hentered]
      exact Nat.add_lt_add_right hlt _

/-- Whatever is on the stack without errors, some input leads from there to the end of a program. -/
theorem Linked.completes (h : Linked fs)
    (herror : ∀ f ∈ fs, entered f.state ≠ some (.terminal Token.error.terminal)) :
    ∃ v : List Terminal, Relation.ReflTransGen Rewrites
      [.nonterminal Phrase.program.nonterminal] (symbols fs ++ v.map .terminal) := by
  induction hn : weigh rank fs using Nat.strongRecOn generalizing fs with
  | ind n ih =>
    subst hn
    have hprogram : Production.program.Plain := ⟨by decide, by decide⟩
    obtain ⟨f, rest, rfl⟩ := List.exists_cons_of_ne_nil h.ne_nil
    by_cases hf : f.state = .start
    · have hsampled : Sampled (.nonterminal Phrase.program.nonterminal) :=
        .of_plain hprogram rfl fun X => sampled hprogram
      refine ⟨[], ?_⟩
      rw [h.eq_nil_of_start hf, symbols_cons, hf, entered_start]
      exact hsampled
    · rcases h.within hf herror with
        hsymbols | ⟨p, k, e, below, hp, hlink, he, hbelow, hsymbols, hlt⟩
      · refine ⟨[], ?_⟩
        rw [hsymbols]
        exact .single (Rewrites.of_plain hprogram [] [])
      · obtain ⟨v, hv⟩ := ih _ hlt hlink (by
          intro g hg
          rcases List.mem_cons.1 hg with rfl | hg
          · simp [he]
          · exact herror g (hbelow g hg)) rfl
        have hrest := derives_samples fun X (hX : X ∈ p.rule.rhs.drop k) =>
          sampled hp (List.mem_of_mem_drop hX)
        refine ⟨(p.rule.rhs.drop k).flatMap sample ++ v, ?_⟩
        have hstep := Rewrites.of_plain hp (symbols below) (v.map .terminal)
        have hlast := derives_within hrest (symbols below ++ p.rule.rhs.take k) (v.map .terminal)
        rw [symbols_cons, he] at hv
        rw [List.append_assoc (symbols below), List.take_append_drop] at hlast
        rw [hsymbols, List.map_append, ← List.append_assoc]
        exact (hv.trans (.single (by simpa using hstep))).trans hlast

variable {σ α V S φ : Type} [Merge S] {m : Machine σ α V S φ}
  {feed : Supply m.scanner m.tables.endTerminal} {e : S} {w : List (Lexeme V S)} {a₀ : α}
  {c : Config σ α V S} {ps : List (Tree V S × Frame V S)}

theorem Assembled.bottom (h : Assembled feed e w a₀ c ps) : ∃ bottom : Frame V S,
    c.stack.items = (ps.map Prod.snd).reverse ++ [bottom] ∧ entered bottom.state = none := by
  obtain ⟨bottom, hitems⟩ := h.items
  have hbottom : Linked [bottom] := Linked.of_append (hitems ▸ h.linked)
  cases hbottom with
  | start state => exact ⟨bottom, hitems, by rw [state, entered_start]⟩

/-- The stack of an undisturbed configuration holds the symbols of its trees. -/
theorem Assembled.symbols_eq (h : Assembled feed e w a₀ c ps) :
    Calculator.symbols c.stack.items = (ps.map Prod.fst).map Tree.symbol := by
  obtain ⟨bottom, hitems, hbottom⟩ := h.bottom
  have hframes : ((ps.map Prod.snd).reverse.reverse.map fun f => entered f.state) =
      ((ps.map Prod.fst).map Tree.symbol).map some := by
    simpa using fun q hq => h.symbols q hq
  rw [hitems, symbols_append hframes, symbols_cons, hbottom]
  rfl

theorem Assembled.entered_ne_error (h : Assembled feed e w a₀ c ps)
    (htokens : ∀ l ∈ w, l.terminal ≠ Token.error.terminal) {f : Frame V S}
    (hf : f ∈ c.stack.items) : entered f.state ≠ some (.terminal Token.error.terminal) := by
  obtain ⟨bottom, hitems, hbottom⟩ := h.bottom
  rw [hitems, List.mem_append, List.mem_reverse, List.mem_singleton] at hf
  rcases hf with hf | rfl
  · obtain ⟨⟨t, f⟩, hq, rfl⟩ := List.mem_map.1 hf
    rw [h.symbols _ hq]
    intro ht
    cases t with
    | leaf l =>
      refine htokens l ?_ (Symbol.terminal.inj (Option.some.inj ht))
      rw [← h.input]
      refine List.mem_append_left _ (List.mem_flatMap.2 ⟨.leaf l, List.mem_map.2 ⟨_, hq, rfl⟩, ?_⟩)
      simp
    | node p ts => simp [Tree.symbol] at ht
  · simp [hbottom]

/-- What has been read without an error is the beginning of a program. -/
theorem Assembled.viable (h : Assembled feed e w a₀ c ps)
    (htokens : ∀ l ∈ w, l.terminal ≠ Token.error.terminal) : ∃ v : List Terminal,
      Derivable (((ps.map Prod.fst).flatMap Tree.yield).map Lexeme.terminal ++ v) := by
  obtain ⟨v, hv⟩ := h.linked.completes fun f hf => h.entered_ne_error htokens hf
  rw [h.symbols_eq] at hv
  refine ⟨v, hv.trans ?_⟩
  have hderives : ∀ t ∈ ps.map Prod.fst, t.DerivesBackward := by
    intro t ht
    obtain ⟨q, hq, rfl⟩ := List.mem_map.1 ht
    exact (h.valid q hq).derivesBackward
  have hback := Tree.derivesBackward_all hderives [] []
  have hyields := derives_within hback.rewrites [] (v.map .terminal)
  simpa [Tree.spelling, Function.comp_def] using hyields

end ShiftReduce.Calculator
