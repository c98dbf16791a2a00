import Mathlib.Data.List.Forall2
import ShiftReduce.Proofs.Machine.Reach

namespace ShiftReduce

/-- Two computations that both give a result or both halt, with results or halts that are
related. -/
inductive Agrees {β γ ε δ : Type} (Q : β → γ → Prop) (H : ε → δ → Prop) :
    Except ε β → Except δ γ → Prop
  | ok {b : β} {b' : γ} (related : Q b b') : Agrees Q H (.ok b) (.ok b')
  | error {e : ε} {e' : δ} (related : H e e') : Agrees Q H (.error e) (.error e')

namespace Agrees

variable {β β' γ γ' ε δ : Type} {Q : β → γ → Prop} {Q' : β' → γ' → Prop} {H : ε → δ → Prop}

theorem bind {x : Except ε β} {y : Except δ γ} {f : β → Except ε β'} {g : γ → Except δ γ'}
    (h : Agrees Q H x y) (hf : ∀ b b', Q b b' → Agrees Q' H (f b) (g b')) :
    Agrees Q' H (x >>= f) (y >>= g) := by
  cases h with
  | ok related => exact hf _ _ related
  | error related => exact .error related

theorem imp {P : β → γ → Prop} {G : ε → δ → Prop} {x : Except ε β} {y : Except δ γ}
    (h : Agrees Q H x y) (hQ : ∀ b b', Q b b' → P b b') (hH : ∀ e e', H e e' → G e e') :
    Agrees P G x y := by
  cases h with
  | ok related => exact .ok (hQ _ _ related)
  | error related => exact .error (hH _ _ related)

theorem and_left {P : β → Prop} {x : Except ε β} {y : Except δ γ} (h : Agrees Q H x y)
    (hP : ∀ b, x = .ok b → P b) : Agrees (fun b b' => P b ∧ Q b b') H x y := by
  cases h with
  | ok related => exact .ok ⟨hP _ rfl, related⟩
  | error related => exact .error related

/-- What the second computation does where the first gives a result. -/
theorem exists_ok {b : β} {y : Except δ γ} (h : Agrees Q H (.ok b) y) :
    ∃ b', y = .ok b' ∧ Q b b' := by
  cases h with
  | ok related => exact ⟨_, rfl, related⟩

theorem exists_error {e : ε} {y : Except δ γ} (h : Agrees Q H (.error e) y) :
    ∃ e', y = .error e' ∧ H e e' := by
  cases h with
  | error related => exact ⟨_, rfl, related⟩

end Agrees

namespace Machine

variable {σ α V S φ : Type} {m : Machine σ α V S φ} {c d : Config σ α V S}

/-- Two stacks with the same states are unwound to the same one, and nothing else happens to the
configurations that they are of. -/
theorem unwind_agrees {F : Frame V S → Frame V S → Prop}
    (hF : ∀ {f g : Frame V S}, F f g → g.state = f.state) {fs gs : List (Frame V S)}
    (h : List.Forall₂ F fs gs) {c' d' : Config σ α V S} (hc : c'.stack.items = fs)
    (hd : d'.stack.items = gs) (hcc : Alike c c') (hdd : Alike d d') :
    Agrees (fun x y => y.1 = x.1 ∧ List.Forall₂ F x.2.stack.items y.2.stack.items ∧
        Alike c x.2 ∧ Alike d y.2)
      (fun h h' => h'.verdict = h.verdict ∧ Alike c h.config ∧ Alike d h'.config)
      (m.unwind c' fs) (m.unwind d' gs) := by
  induction h generalizing c' d' with
  | nil =>
    have cornered (c : Config σ α V S) : Alike c (c.emit .cornered) :=
      ⟨rfl, rfl, rfl, rfl, rfl, rfl, by simp [Event.rule?], by simp [Event.report?]⟩
    exact .error ⟨rfl, hcc.trans (cornered c'), hdd.trans (cornered d')⟩
  | @cons f g fs gs hfg hrest ih =>
    unfold unwind
    rw [hF hfg]
    cases m.tables.state f.state with
    | error e => exact .error ⟨rfl, hcc, hdd⟩
    | ok s =>
      simp only [Config.demand, bind, Except.bind]
      cases s.shiftTarget? m.tables.errorTerminal with
      | some target => exact .ok ⟨rfl, by rw [hc, hd]; exact .cons hfg hrest, hcc, hdd⟩
      | none =>
        exact ih (by simp [hc]) (by simp [hd]) (hcc.trans (.pop c' _ _))
          (hdd.trans (.pop d' _ _))

/-- A run that does in each step what another one does ends as the other one does. -/
theorem lockstep [Merge S] {R : Config σ α V S → Config σ α V S → Prop}
    {H : Halt σ α V S φ → Halt σ α V S φ → Prop} {c' : Config σ α V S} {h : Halt σ α V S φ}
    (hstep : ∀ {c d}, R c d → Agrees R H (m.step c) (m.step d)) (hR : R c d)
    (hr : m.Reaches c c') (hs : m.step c' = .error h) :
    ∃ d' h', m.Reaches d d' ∧ m.step d' = .error h' ∧ H h h' := by
  induction hr using Relation.ReflTransGen.head_induction_on generalizing d with
  | refl =>
    obtain ⟨h', hh', hH⟩ := (hs ▸ hstep hR).exists_error
    exact ⟨d, h', .refl, hh', hH⟩
  | head hc _ ih =>
    obtain ⟨d₁, hd₁, hR₁⟩ := (hc ▸ hstep hR).exists_ok
    obtain ⟨d', h', hr', hs', hH⟩ := ih hR₁
    exact ⟨d', h', .head hd₁ hr', hs', hH⟩

end Machine

end ShiftReduce
