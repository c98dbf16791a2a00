import ShiftReduce.Proofs.Machine.History

namespace ShiftReduce

/-- Where locations start and where they end, for locations that are joined from the start of the
first one to the end of the last one. -/
structure Ends (S P : Type) [Merge S] where
  first : S → P
  last : S → P
  first_merge : ∀ s s', first (Merge.merge s s') = first s
  last_merge : ∀ s s', last (Merge.merge s s') = last s'

def Span.ends : Ends Span Position :=
  ⟨Span.start, Span.stop, fun _ _ => rfl, fun _ _ => rfl⟩

def ByteRange.ends : Ends ByteRange Nat :=
  ⟨ByteRange.start, ByteRange.stop, fun _ _ => rfl, fun _ _ => rfl⟩

section Fits

variable {S P : Type}

def lastSpanOf (origin : S) (tokens : List (Terminal × S)) : S :=
  (tokens.getLast?.map Prod.snd).getD origin

@[simp] theorem lastSpanOf_concat (origin : S) (tokens : List (Terminal × S))
    (p : Terminal × S) : lastSpanOf origin (tokens ++ [p]) = p.2 := by
  simp [lastSpanOf]

variable [Merge S] {E : Ends S P} {origin : S} {before block after : List (Terminal × S)}
  {span : S}

variable (E origin before) in
/-- The location of a phrase that covers a block of tokens, with the tokens before it and those
after it. An empty phrase lies between two tokens: it starts where the next one starts and ends
where the one before ends. -/
def Fits (block after : List (Terminal × S)) (span : S) : Prop :=
  match block with
  | [] => (∃ next ∈ after.head?, E.first span = E.first next.2) ∧
      E.last span = E.last (lastSpanOf origin before)
  | t :: rest => E.first span = E.first t.2 ∧
      E.last span = E.last ((t :: rest).getLast (List.cons_ne_nil t rest)).2

/-- Both ends of a phrase, whether it is empty or not. -/
theorem fits_iff : Fits E origin before block after span ↔
    (∃ next ∈ (block ++ after).head?, E.first span = E.first next.2) ∧
      E.last span = E.last (lastSpanOf origin (before ++ block)) := by
  cases block with
  | nil => simp [Fits]
  | cons t rest =>
    have hlast : lastSpanOf origin (before ++ t :: rest) =
        ((t :: rest).getLast (List.cons_ne_nil t rest)).2 := by
      simp [lastSpanOf, List.getLast?_eq_some_getLast]
    rw [hlast]
    simp [Fits]

theorem Fits.append (h : Fits E origin before block after span) (more : List (Terminal × S)) :
    Fits E origin before block (after ++ more) span := by
  rw [fits_iff] at h ⊢
  obtain ⟨⟨next, hnext, hfirst⟩, hlast⟩ := h
  refine ⟨⟨next, ?_, hfirst⟩, hlast⟩
  rw [← List.append_assoc, Option.mem_def, List.head?_append, Option.mem_def.1 hnext]
  rfl

end Fits

section Tile

structure Tile (V S : Type) where
  frame : Frame V S
  block : List (Terminal × S)

variable {V S P : Type}

def joined (tiles : List (Tile V S)) : List (Terminal × S) := tiles.reverse.flatMap Tile.block

@[simp] theorem joined_nil : joined ([] : List (Tile V S)) = [] := rfl

@[simp] theorem joined_cons (t : Tile V S) (tiles : List (Tile V S)) :
    joined (t :: tiles) = joined tiles ++ t.block := by
  simp [joined]

theorem joined_append (above below : List (Tile V S)) :
    joined (above ++ below) = joined below ++ joined above := by
  simp [joined]

/-- The frames above the start frame, the top one first, each with the tokens it stands for: a
shifted token for itself, and a phrase for what the frames that it replaced stood for. -/
def tiles : List (Event V S) → List (Tile V S)
  | [] => []
  | .shifted t f :: past => ⟨f, [(t, f.span)]⟩ :: tiles past
  | .folded n f :: past => ⟨f, joined ((tiles past).take n)⟩ :: (tiles past).drop n
  | _ :: past => tiles past

theorem joined_tiles_folded (n : Nat) (f : Frame V S) (past : List (Event V S)) :
    joined (tiles (.folded n f :: past)) = joined (tiles past) := by
  rw [tiles, joined_cons, ← joined_append, List.take_append_drop]

/-- The frames stand for the tokens that were shifted, in this order. -/
theorem joined_tiles (trace : List (Event V S)) :
    joined (tiles trace) = (told Event.shift? trace).map fun p => (p.1, p.2.span) := by
  induction trace with
  | nil => rfl
  | cons e past ih =>
    cases e with
    | folded n f => simpa [joined_tiles_folded, Event.shift?] using ih
    | _ => simpa [tiles, Event.shift?] using ih

theorem tiles_quiet {e : Event V S} (h : e.quiet = true) (past : List (Event V S)) :
    tiles (e :: past) = tiles past := by
  cases e <;> first | rfl | cases h

variable [Merge S]

def Tiled (E : Ends S P) (origin : S) : List (Tile V S) → List (Terminal × S) → Prop
  | [], _ => True
  | t :: below, after => Fits E origin (joined below) t.block after t.frame.span ∧
      Tiled E origin below (t.block ++ after)

variable {E : Ends S P} {origin : S} {above below : List (Tile V S)} {t : Tile V S}
  {after : List (Terminal × S)}

theorem ends_spread (E : Ends S P) (gap : S) {frames : List (Frame V S)} (h : frames ≠ []) :
    E.first (Machine.spread gap frames) = E.first (frames.head h).span ∧
      E.last (Machine.spread gap frames) = E.last (frames.getLast h).span := by
  match frames with
  | [f] => exact ⟨rfl, rfl⟩
  | f :: g :: rest => exact ⟨E.first_merge _ _, by simp [Machine.spread, E.last_merge]⟩

namespace Tiled

theorem append {tiles : List (Tile V S)} (h : Tiled E origin tiles after)
    (more : List (Terminal × S)) : Tiled E origin tiles (after ++ more) := by
  induction tiles generalizing after with
  | nil => trivial
  | cons t below ih =>
    refine ⟨h.1.append more, ?_⟩
    rw [← List.append_assoc]
    exact ih h.2

theorem drop (h : Tiled E origin (above ++ below) after) :
    Tiled E origin below (joined above ++ after) := by
  induction above generalizing after with
  | nil => exact h
  | cons t above ih =>
    rw [joined_cons, List.append_assoc]
    exact ih h.2

theorem fits (h : Tiled E origin (above ++ t :: below) after) :
    Fits E origin (joined below) t.block (joined above ++ after) t.frame.span := h.drop.1

/-- The location of a phrase that is not empty starts with its lowest frame and ends with its top
frame. -/
theorem fits_spread {top : List (Tile V S)} (h : Tiled E origin (top ++ below) after) (gap : S)
    (hgap : top = [] → Fits E origin (joined below) [] after gap) :
    Fits E origin (joined below) (joined top) after
      (Machine.spread gap (top.map Tile.frame).reverse) := by
  by_cases htop : top = []
  · subst htop
    exact hgap rfl
  have hframes : (top.map Tile.frame).reverse ≠ [] := by simpa using htop
  obtain ⟨hfirst, hlast⟩ := ends_spread E gap hframes
  rw [fits_iff, hfirst, hlast]
  constructor
  · obtain ⟨init, low, rfl⟩ := List.eq_nil_or_concat top |>.resolve_left htop
    rw [List.concat_eq_append, List.append_assoc, List.singleton_append] at h
    obtain ⟨⟨next, hnext, hlow⟩, -⟩ := fits_iff.1 h.fits
    refine ⟨next, ?_, ?_⟩
    · simpa [joined_append] using hnext
    · simpa using hlow
  · obtain ⟨t, rest, rfl⟩ := List.exists_cons_of_ne_nil htop
    obtain ⟨-, ht⟩ := fits_iff.1 h.1
    rw [List.append_eq, joined_append, List.append_assoc] at ht
    simpa using ht

end Tiled

end Tile

end ShiftReduce
