import ShiftReduce.Proofs.Machine.Reach

namespace ShiftReduce

structure Lexeme (V S : Type) where
  terminal : Terminal
  value : V
  span : S

/-- A scanner that has a list of tokens to read, and after them the terminal `stop` for ever. -/
structure Supply {σ V S : Type} (s : Scanner σ V S) (stop : Terminal) where
  pending : σ → List (Lexeme V S)
  terminal_ne : ∀ {x l}, l ∈ pending x → l.terminal ≠ stop
  next_nil : ∀ {x}, pending x = [] → (s.next x).1 = stop ∧ pending (s.next x).2.1 = []
  next_cons : ∀ {x l rest}, pending x = l :: rest →
    (s.next x).1 = l.terminal ∧ (s.value (s.next x).2.1).1 = l.value ∧
      s.span (s.next x).2.1 = l.span ∧ pending (s.next x).2.1 = rest
  after_value : ∀ x, pending (s.value x).2 = pending x ∧ s.span (s.value x).2 = s.span x
  after_report : ∀ text span x, pending (s.report text span x).1 = pending x ∧
    s.span (s.report text span x).1 = s.span x ∧
    (s.value (s.report text span x).1).1 = (s.value x).1

namespace Supply

variable {σ α V S φ : Type} {m : Machine σ α V S φ} {c c' : Config σ α V S}
  (feed : Supply m.scanner m.tables.endTerminal)

/-- The tokens that are neither shifted nor discarded yet. -/
def input (c : Config σ α V S) : List (Lexeme V S) :=
  match c.lookahead with
  | none => feed.pending c.scanner
  | some t =>
    if t = m.tables.endTerminal then []
    else ⟨t, (m.scanner.value c.scanner).1, m.scanner.span c.scanner⟩ :: feed.pending c.scanner

theorem input_congr {d : Config σ α V S} (hs : d.scanner = c.scanner)
    (hl : d.lookahead = c.lookahead) : feed.input d = feed.input c := by
  simp only [input, hs, hl]

@[simp] theorem input_stack (st : FrameStack V S) :
    feed.input { c with stack := st } = feed.input c := rfl

@[simp] theorem input_turned : feed.input (Machine.turned c) = feed.input c :=
  feed.input_congr (c := c) rfl rfl

@[simp] theorem input_resynchronized (s : StateId) :
    feed.input (Machine.resynchronized c s) = feed.input c := feed.input_congr (c := c) rfl rfl

@[simp] theorem input_fetched : feed.input (m.fetched c) = feed.input c := by
  cases hl : c.lookahead with
  | some t => rw [Machine.fetched_of_some hl]
  | none =>
    have hlook := Machine.lookahead_fetched m c
    rw [Machine.ahead_of_none hl] at hlook
    simp only [input, hlook, hl, Machine.scanner_fetched_of_none hl]
    cases hp : feed.pending c.scanner with
    | nil =>
      obtain ⟨ht, -⟩ := feed.next_nil hp
      rw [if_pos ht]
    | cons l rest =>
      obtain ⟨ht, hv, hsp, hrest⟩ := feed.next_cons hp
      rw [if_neg (ht ▸ feed.terminal_ne (hp ▸ List.mem_cons_self)), ht, hv, hsp, hrest]

theorem ahead_of_nil (h : feed.input c = []) : m.ahead c = m.tables.endTerminal := by
  cases hl : c.lookahead with
  | some t =>
    rw [Machine.ahead_of_some hl]
    by_cases ht : t = m.tables.endTerminal
    · exact ht
    · simp [input, hl, ht] at h
  | none =>
    rw [Machine.ahead_of_none hl]
    exact (feed.next_nil (by simpa [input, hl] using h)).1

/-- What the scanner tells of the next token once it has been read. -/
theorem ahead_of_cons {l : Lexeme V S} {rest : List (Lexeme V S)}
    (h : feed.input c = l :: rest) : m.ahead c = l.terminal ∧
      m.ahead c ≠ m.tables.endTerminal ∧
      (m.scanner.value (m.fetched c).scanner).1 = l.value ∧
      m.scanner.span (m.fetched c).scanner = l.span ∧
      feed.pending (m.fetched c).scanner = rest := by
  have hf : feed.input (m.fetched c) = l :: rest := by rw [input_fetched, h]
  simp only [input, Machine.lookahead_fetched] at hf
  split at hf
  · simp at hf
  · rename_i hne
    obtain ⟨rfl, rfl⟩ := List.cons.inj hf
    exact ⟨rfl, hne, rfl, rfl, rfl⟩

theorem ahead_eq (c : Config σ α V S) : m.ahead c =
    ((feed.input c).head?.map Lexeme.terminal).getD m.tables.endTerminal := by
  cases h : feed.input c with
  | nil => simpa using feed.ahead_of_nil h
  | cons l rest => simpa using (feed.ahead_of_cons h).1

theorem input_eq_nil_iff : feed.input c = [] ↔ m.ahead c = m.tables.endTerminal := by
  refine ⟨feed.ahead_of_nil, fun h => ?_⟩
  cases hi : feed.input c with
  | nil => rfl
  | cons l rest => exact absurd h (feed.ahead_of_cons hi).2.1

/-- A token that was read and is no longer buffered has left the input. -/
theorem discarded {d : Config σ α V S} (more : m.ahead c ≠ m.tables.endTerminal)
    (hs : d.scanner = (m.fetched c).scanner) (hl : d.lookahead = none) :
    ∃ l, feed.input c = l :: feed.input d := by
  obtain ⟨l, rest, hinput⟩ := List.exists_cons_of_ne_nil
    (mt feed.ahead_of_nil more)
  refine ⟨l, hinput.trans ?_⟩
  rw [input, hl, hs, (feed.ahead_of_cons hinput).2.2.2.2]

/-- A shifted token leaves the input and comes to stand on top of the stack. -/
theorem shifted_cons {l : Lexeme V S} {rest : List (Lexeme V S)} {target : StateId}
    (hs : m.Shifted c target c') (h : feed.input c = l :: rest) :
    c'.stack.items = ⟨target, l.value, l.span⟩ :: c.stack.items ∧ feed.input c' = rest := by
  obtain ⟨-, hne, hv, hsp, hp⟩ := feed.ahead_of_cons h
  have hval := feed.after_value (m.fetched c).scanner
  refine ⟨by rw [hs.items, hs.scanner, hval.2, hv, hsp], ?_⟩
  simp only [input, hs.lookahead, if_neg hne, hs.scanner, hval.1, hp]

variable {feed} in
theorem input_poised (s : State) (frames : List (Frame V S)) :
    feed.input (m.poised c s frames) = feed.input c := by
  rcases Machine.poised_cases m c s frames with h | ⟨h, -, -⟩
  · rw [h, input_fetched]
  · rw [h]

theorem acted {s : State} {r : RuleId} {frames : List (Frame V S)} {reply : Reply α V}
    {d : Config σ α V S} (h : m.Acted c s r frames reply d) : feed.input d = feed.input c := by
  rw [feed.input_congr h.scanner h.lookahead, input_poised]

theorem recovered {expected : List Terminal} {kept : List (Frame V S)} {target : StateId}
    (h : m.Recovered c expected kept target c') : feed.input c' = feed.input c := by
  rw [← feed.input_fetched (c := c)]
  simp only [input, h.lookahead, Machine.lookahead_fetched, h.scanner]
  split
  · rfl
  · split
    · obtain ⟨hp, hsp, hv⟩ := feed.after_report
        (m.describe c.actions (m.ahead c) expected) (m.scanner.span (m.fetched c).scanner)
        (m.fetched c).scanner
      rw [hp, hsp, hv]
    · rfl

end Supply

end ShiftReduce
