import ShiftReduce.Proofs.Calculator.Tree
import ShiftReduce.Proofs.Machine.Turn

namespace ShiftReduce

def Actions.Proceeding {α V S φ : Type} (acts : Actions α V S φ) : Prop :=
  ∀ r v a, ∃ reply, acts.reduce r v a = .ok reply ∧ reply.control = .proceed

theorem Actions.Proceeding.control_eq {α V S φ : Type} {acts : Actions α V S φ}
    (h : acts.Proceeding) {r : Reduction V S} {v : V} {a : α} {reply : Reply α V}
    (hreply : acts.reduce r v a = .ok reply) : reply.control = .proceed := by
  obtain ⟨reply', hreply', hcontrol⟩ := h r v a
  rwa [Except.ok.inj (hreply.symm.trans hreply')]

namespace Calculator.Tree

variable {α V S φ : Type} [Merge S] (acts : Actions α V S φ) (e : S)

/-- What a semantic action answers for a production with the given parts, if it lets the parse
proceed. -/
def conclude (p : Production) (parts : List (V × S)) (a : α) : Option ((V × S) × α) :=
  let span := stretch e (parts.map Prod.snd)
  match acts.reduce ⟨p.ruleId, p.rule, parts.map Prod.fst, parts.map Prod.snd, span⟩
      ((parts.head?.map Prod.fst).getD acts.blank) a with
  | .ok reply => if reply.control = .proceed then some ((reply.value, span), reply.state) else none
  | .error _ => none

mutual

/-- The value and the location of a tree, with the state that the semantic actions come to, if they
let the parse proceed at every node. -/
def meaning : Tree V S → α → Option ((V × S) × α)
  | leaf l, a => some ((l.value, l.span), a)
  | node p ts, a => (meanings ts a).bind fun r => conclude acts e p r.1 r.2

def meanings : List (Tree V S) → α → Option (List (V × S) × α)
  | [], a => some ([], a)
  | t :: ts, a => (meaning t a).bind fun r => (meanings ts r.2).map fun q => (r.1 :: q.1, q.2)

end

variable {acts e} {t : Tree V S} {ts us : List (Tree V S)} {p : Production} {a b : α}
  {v : V × S} {vs : List (V × S)}

theorem conclude_eq_some : conclude acts e p vs a = some (v, b) ↔ ∃ reply,
    acts.reduce ⟨p.ruleId, p.rule, vs.map Prod.fst, vs.map Prod.snd,
        stretch e (vs.map Prod.snd)⟩ ((vs.head?.map Prod.fst).getD acts.blank) a = .ok reply ∧
      reply.control = .proceed ∧ v = (reply.value, stretch e (vs.map Prod.snd)) ∧
      b = reply.state := by
  unfold conclude
  dsimp only
  split
  · rename_i reply hreply
    rw [hreply]
    by_cases hc : reply.control = .proceed
    · simp [hc, eq_comm]
    · simp [hc]
  · rename_i f hf
    simp [hf]

@[simp] theorem meaning_leaf (l : Lexeme V S) (a : α) :
    meaning acts e (leaf l) a = some ((l.value, l.span), a) := by rw [meaning]

theorem meaning_node : meaning acts e (node p ts) a = some (v, b) ↔ ∃ vs a',
    meanings acts e ts a = some (vs, a') ∧ conclude acts e p vs a' = some (v, b) := by
  rw [meaning]
  simp [Option.bind_eq_some_iff]

@[simp] theorem meanings_nil (a : α) : meanings acts e [] a = some ([], a) := by rw [meanings]

theorem meanings_cons : meanings acts e (t :: ts) a = some (vs, b) ↔ ∃ v a' vs',
    meaning acts e t a = some (v, a') ∧ meanings acts e ts a' = some (vs', b) ∧
      vs = v :: vs' := by
  rw [meanings]
  constructor
  · intro h
    obtain ⟨⟨v, a'⟩, ht, h⟩ := Option.bind_eq_some_iff.1 h
    obtain ⟨⟨vs', b'⟩, hts, h⟩ := Option.map_eq_some_iff.1 h
    obtain ⟨rfl, rfl⟩ := Prod.mk.inj h
    exact ⟨v, a', vs', ht, hts, rfl⟩
  · rintro ⟨v, a', vs', ht, hts, rfl⟩
    simp [ht, hts]

theorem meanings_append : meanings acts e (ts ++ us) a = some (vs, b) ↔ ∃ vs₁ a' vs₂,
    meanings acts e ts a = some (vs₁, a') ∧ meanings acts e us a' = some (vs₂, b) ∧
      vs = vs₁ ++ vs₂ := by
  induction ts generalizing a vs with
  | nil => simp
  | cons t ts ih =>
    simp only [List.cons_append, meanings_cons, ih]
    constructor
    · rintro ⟨v, a₁, vs', ht, ⟨vs₁, a', vs₂, hts, hus, rfl⟩, rfl⟩
      exact ⟨v :: vs₁, a', vs₂, ⟨v, a₁, vs₁, ht, hts, rfl⟩, hus, rfl⟩
    · rintro ⟨_, a', vs₂, ⟨v, a₁, vs₁, ht, hts, rfl⟩, hus, rfl⟩
      exact ⟨v, a₁, vs₁ ++ vs₂, ht, ⟨vs₁, a', vs₂, hts, hus, rfl⟩, rfl⟩

mutual

/-- Actions that always let the parse proceed give every tree a meaning. -/
theorem exists_meaning (h : acts.Proceeding) :
    ∀ (t : Tree V S) (a : α), ∃ v b, meaning acts e t a = some (v, b)
  | leaf l, a => ⟨_, _, meaning_leaf l a⟩
  | node p ts, a => by
    obtain ⟨vs, a', hts⟩ := exists_meanings h ts a
    obtain ⟨reply, hreply, hproceed⟩ := h ⟨p.ruleId, p.rule, vs.map Prod.fst, vs.map Prod.snd,
      stretch e (vs.map Prod.snd)⟩ ((vs.head?.map Prod.fst).getD acts.blank) a'
    have hnode := conclude_eq_some.2 ⟨reply, hreply, hproceed, rfl, rfl⟩
    exact ⟨_, _, meaning_node.2 ⟨vs, a', hts, hnode⟩⟩

theorem exists_meanings (h : acts.Proceeding) :
    ∀ (ts : List (Tree V S)) (a : α), ∃ vs b, meanings acts e ts a = some (vs, b)
  | [], a => ⟨_, _, meanings_nil a⟩
  | t :: ts, a => by
    obtain ⟨v, a', ht⟩ := exists_meaning h t a
    obtain ⟨vs, b, hts⟩ := exists_meanings h ts a'
    exact ⟨_, _, meanings_cons.2 ⟨v, a', vs, ht, hts, rfl⟩⟩

end

end Calculator.Tree

end ShiftReduce
