import ShiftReduce.Proofs.Calculator.Munch
import ShiftReduce.Proofs.Calculator.Seam

namespace ShiftReduce

/-- A longer text ends later. -/
theorem Position.precedes_ofText (s : List Char) {t : List Char} (h : t ≠ []) :
    (ofText s).Precedes (ofText (s ++ t)) := by
  rw [← advance_ofText]
  exact .of_text _ h

namespace Calculator

namespace Cut

variable {before l : List Char} {parts : List Part}

theorem text_ne_nil (h : Cut before l parts) : ∀ i ∈ parts, i.text ≠ [] := by
  induction h with
  | nil => simp
  | cons split taken rest ih =>
    obtain ⟨c, rest, -, -, rfl⟩ := takes_iff.1 taken
    exact List.forall_mem_cons.2 ⟨List.cons_ne_nil _ _, ih⟩

/-- The parts lie within the text, one behind the other. -/
theorem within (h : Cut before l parts) :
    ∀ i ∈ parts, before <+: i.before ∧ i.before ++ i.text <+: before ++ l := by
  induction h with
  | nil => simp
  | @cons before l text after kind parts split taken rest ih =>
    subst split
    refine List.forall_mem_cons.2 ⟨⟨List.prefix_refl _, ?_⟩, fun i hi => ?_⟩
    · rw [← List.append_assoc]
      exact List.prefix_append _ _
    · obtain ⟨hbefore, htext⟩ := ih i hi
      rw [List.append_assoc] at htext
      exact ⟨(List.prefix_append before text).trans hbefore, htext⟩

theorem successive (h : Cut before l parts) :
    parts.Pairwise fun i j => i.before ++ i.text <+: j.before := by
  induction h with
  | nil => exact .nil
  | cons split taken rest ih => exact .cons (fun j hj => (rest.within j hj).1) ih

end Cut

section Spots

variable {source : List Char} {parts : List Part} {i : Part} {j k : Nat}

variable (source parts) in
def spots : List Span := (parts.filter Part.isToken).map Part.span ++ [.point (.ofText source)]

def spot (source : List Char) (parts : List Part) (j : Nat) : Span :=
  (spots source parts).getD j (.point (.ofText source))

theorem length_spots : (spots source parts).length = (parts.filter Part.isToken).length + 1 := by
  simp [spots]

theorem spot_of_some (h : (parts.filter Part.isToken)[j]? = some i) :
    spot source parts j = i.span := by
  have hlt := (List.getElem?_eq_some_iff.1 h).1
  rw [spot, List.getD_eq_getElem?_getD, spots, List.getElem?_append_left (by simpa using hlt),
    List.getElem?_map, h]
  rfl

theorem spot_of_none (h : (parts.filter Part.isToken)[j]? = none) :
    spot source parts j = .point (.ofText source) := by
  rw [spot, List.getD_eq_getElem?_getD, spots, List.getElem?_append_right (by simpa using h)]
  cases hj : j - ((parts.filter Part.isToken).map Part.span).length with
  | zero => rfl
  | succ n => simp

theorem spot_eq_getElem (h : j < (spots source parts).length) :
    spot source parts j = (spots source parts)[j] := by
  rw [spot, List.getD_eq_getElem?_getD, List.getElem?_eq_getElem h]
  rfl

/-- Each token starts before the next one, and the last one before the end of the source. -/
theorem spots_pairwise (h : Cut [] source parts) :
    (spots source parts).Pairwise fun s t => s.start.Precedes t.start := by
  have hsub : (parts.filter Part.isToken).Sublist parts := List.filter_sublist
  refine List.pairwise_append.2 ⟨?_, List.pairwise_singleton _ _, ?_⟩
  · refine List.pairwise_map.2 ((h.successive.sublist hsub).imp_of_mem fun {i j} hi _ hij => ?_)
    obtain ⟨more, hmore⟩ := hij
    change (Position.ofText i.before).Precedes (.ofText j.before)
    rw [← hmore, List.append_assoc]
    refine Position.precedes_ofText _ fun hnil => ?_
    exact h.text_ne_nil i (hsub.subset hi) (List.append_eq_nil_iff.1 hnil).1
  · intro s hs t ht
    obtain ⟨i, hi, rfl⟩ := List.mem_map.1 hs
    obtain rfl := List.mem_singleton.1 ht
    obtain ⟨more, hmore⟩ := (h.within i (hsub.subset hi)).2
    change (Position.ofText i.before).Precedes (.ofText source)
    rw [List.nil_append] at hmore
    rw [← hmore, List.append_assoc]
    refine Position.precedes_ofText _ fun hnil => ?_
    exact h.text_ne_nil i (hsub.subset hi) (List.append_eq_nil_iff.1 hnil).1

theorem spot_precedes (h : Cut [] source parts) (hjk : j < k)
    (hk : k ≤ (parts.filter Part.isToken).length) :
    (spot source parts j).start.Precedes (spot source parts k).start := by
  have hlk : k < (spots source parts).length := by
    rw [length_spots]
    omega
  have hlj : j < (spots source parts).length := hjk.trans hlk
  rw [spot_eq_getElem hlj, spot_eq_getElem hlk]
  exact List.pairwise_iff_getElem.1 (spots_pairwise h) j k hlj hlk hjk

theorem spot_injective (h : Cut [] source parts) (hj : j ≤ (parts.filter Part.isToken).length)
    (hk : k ≤ (parts.filter Part.isToken).length)
    (heq : spot source parts j = spot source parts k) : j = k := by
  rcases Nat.lt_trichotomy j k with hlt | rfl | hlt
  · exact absurd (congrArg Span.start heq) (spot_precedes h hlt hk).ne
  · rfl
  · exact absurd (congrArg Span.start heq.symm) (spot_precedes h hlt hj).ne

end Spots

section Annotated

variable {source : List Char} {parts : List Part} {held : Option Terminal} {k : Nat}
  {notes : List (Nat × String)} {x : Lexer} {t : Terminal}

/-- What the lexer notes of itself when it reads the token with the given index. -/
def remarks (parts : List Part) (k : Nat) : List (Nat × String) :=
  ((parts.filter Part.isToken)[k]?.elim [] Part.complaint).map fun d => (k, d.message)

theorem mem_remarks {a : Nat × String} : a ∈ remarks parts k ↔
    ∃ i, (parts.filter Part.isToken)[k]? = some i ∧ i.tooLarge = true ∧
      a = (k, Lexer.oversized i.text) := by
  unfold remarks
  cases (parts.filter Part.isToken)[k]? with
  | none => simp
  | some i =>
    unfold Part.complaint
    dsimp only [Option.elim_some]
    split
    · simp_all
    · simp_all

/-- The lexer has read `k` tokens of a source, the last of which may be held back, and its
diagnostics are notes on tokens that it has read, one at most on each, the newest first. -/
structure Annotated (source : List Char) (parts : List Part) (held : Option Terminal) (k : Nat)
    (notes : List (Nat × String)) (x : Lexer) : Prop where
  stands : StandsBehind source parts k x
  bound : k ≤ (parts.filter Part.isToken).length + 1
  /-- Nothing is read after the end. -/
  more : held ≠ some Token.endOfInput.terminal → k ≤ (parts.filter Part.isToken).length
  current : held ≠ none → 0 < k ∧ x.span = spot source parts (k - 1)
  diagnostics : x.diagnostics = notes.map fun a => ⟨a.2, spot source parts a.1⟩
  ordered : notes.Pairwise fun a b => b.1 < a.1
  read : ∀ a ∈ notes, a.1 < k
  remarked : ∀ j < k, ∀ a ∈ remarks parts j, a ∈ notes

namespace Annotated

theorem messages (h : Annotated source parts held k notes x) :
    x.diagnostics.map Diagnostic.message = notes.map Prod.snd := by
  rw [h.diagnostics, List.map_map]
  rfl

theorem ofString {s : String} (h : Cut [] s.toList parts) :
    Annotated s.toList parts none 0 [] (.ofString s) where
  stands := ⟨[], parts, rfl, rfl, h, rfl⟩
  bound := Nat.zero_le _
  more _ := Nat.zero_le _
  current hn := absurd rfl hn
  diagnostics := rfl
  ordered := .nil
  read := by simp
  remarked j hj := absurd hj (Nat.not_lt_zero j)

/-- What reading a token does to the lexer. -/
theorem next_reads (h : Annotated source parts held k notes x) :
    x.next.2.span = spot source parts k ∧
      x.next.2.diagnostics =
        (remarks parts k).map (fun a => ⟨a.2, spot source parts a.1⟩) ++ x.diagnostics ∧
      (x.next.1.terminal ≠ Token.endOfInput.terminal → k < (parts.filter Part.isToken).length) := by
  have hreads := h.stands.reads
  cases htoken : (parts.filter Part.isToken)[k]? with
  | none =>
    rw [htoken] at hreads
    rw [spot_of_none htoken, remarks, htoken]
    exact ⟨hreads.span, hreads.diagnostics, fun hne => absurd hreads.terminal hne⟩
  | some i =>
    rw [htoken] at hreads
    refine ⟨(spot_of_some htoken).symm ▸ hreads.span, ?_,
      fun _ => (List.getElem?_eq_some_iff.1 htoken).1⟩
    have hcomplaint : i.complaint =
        (i.complaint.map fun d => (k, d.message)).map fun a => ⟨a.2, spot source parts a.1⟩ := by
      rw [List.map_map]
      unfold Part.complaint
      split
      · rw [List.map_singleton, Function.comp_apply, spot_of_some htoken]
      · rfl
    rw [remarks, htoken, Option.elim_some, ← hcomplaint]
    exact hreads.diagnostics

theorem next (h : Annotated source parts none k notes x) :
    Annotated source parts (some x.next.1.terminal) (k + 1) (remarks parts k ++ notes)
      x.next.2 := by
  obtain ⟨hspan, hdiagnostics, hmore⟩ := h.next_reads
  have hindex : ∀ a ∈ remarks parts k, a.1 = k := by
    intro a ha
    obtain ⟨i, -, -, rfl⟩ := mem_remarks.1 ha
    rfl
  have hone : (remarks parts k).Pairwise fun a b => b.1 < a.1 := by
    unfold remarks
    cases (parts.filter Part.isToken)[k]? with
    | none => exact .nil
    | some i =>
      unfold Part.complaint
      dsimp only [Option.elim_some]
      split
      · exact List.pairwise_singleton _ _
      · exact .nil
  have hread : ∀ a ∈ remarks parts k ++ notes, a.1 < k + 1 := by
    intro a ha
    rcases List.mem_append.1 ha with ha | ha
    · rw [hindex a ha]
      exact Nat.lt_succ_self k
    · exact Nat.lt_succ_of_lt (h.read a ha)
  exact
    { stands := h.stands.next
      bound := Nat.succ_le_succ (h.more (by simp))
      more := fun hne => hmore fun hend => hne (congrArg some hend)
      current := fun _ => ⟨Nat.succ_pos k, hspan⟩
      diagnostics := by rw [hdiagnostics, h.diagnostics, List.map_append]
      ordered := by
        refine List.pairwise_append.2 ⟨hone, h.ordered, fun a ha b hb => ?_⟩
        rw [hindex a ha]
        exact h.read b hb
      read := hread
      remarked := fun j hj a ha => by
        rcases Nat.lt_succ_iff_lt_or_eq.1 hj with hj | rfl
        · exact List.mem_append_right _ (h.remarked j hj a ha)
        · exact List.mem_append_left _ ha }

theorem take (h : Annotated source parts held k notes x) :
    Annotated source parts held k notes x.take.2 :=
  { h with stands := h.stands }

theorem drop (h : Annotated source parts (some t) k notes x)
    (ht : t ≠ Token.endOfInput.terminal) : Annotated source parts none k notes x :=
  { h with
    more := fun _ => h.more fun heq => ht (Option.some.inj heq)
    current := fun hn => absurd rfl hn }

/-- The token read last has been noted on if the newest note is on it. -/
theorem isReported_eq (h : Annotated source parts (some t) k notes x)
    (hcut : Cut [] source parts) :
    x.isReported x.span = notes.head?.any fun a => a.1 + 1 = k := by
  obtain ⟨hpos, hspan⟩ := h.current (by simp)
  rw [Lexer.isReported, h.diagnostics, hspan, List.head?_map]
  cases hnotes : notes with
  | nil => rfl
  | cons a older =>
    have hlt := h.read a (hnotes ▸ List.mem_cons_self)
    have hbound := h.bound
    change decide (spot source parts a.1 = spot source parts (k - 1)) = decide (a.1 + 1 = k)
    rw [decide_eq_decide]
    constructor
    · intro heq
      have hindex := spot_injective hcut (by omega) (by omega) heq
      omega
    · rintro rfl
      rw [Nat.add_sub_cancel]

/-- A token that has a note gets no other one. -/
theorem report (h : Annotated source parts (some t) k notes x) (hcut : Cut [] source parts)
    (message : String) : Annotated source parts (some t) k
      (if notes.head?.any (fun a => a.1 + 1 = k) then notes else (k - 1, message) :: notes)
      (x.report message x.span) := by
  obtain ⟨hpos, hspan⟩ := h.current (by simp)
  unfold Lexer.report
  rw [h.isReported_eq hcut]
  split
  · exact h
  · rename_i hfresh
    have hread : ∀ a ∈ (k - 1, message) :: notes, a.1 < k :=
      List.forall_mem_cons.2 ⟨Nat.sub_lt hpos Nat.one_pos, h.read⟩
    have hearlier : ∀ b ∈ notes, b.1 < k - 1 := by
      intro b hb
      obtain ⟨a, older, rfl⟩ := List.exists_cons_of_ne_nil (List.ne_nil_of_mem hb)
      have hne : a.1 + 1 ≠ k := by simpa using hfresh
      have hlt := h.read a List.mem_cons_self
      have hle : b.1 ≤ a.1 := by
        rcases List.mem_cons.1 hb with rfl | hb
        · exact Nat.le_refl _
        · exact Nat.le_of_lt (List.rel_of_pairwise_cons h.ordered hb)
      omega
    exact
      { h with
        stands := h.stands
        current := h.current
        diagnostics := by rw [List.map_cons, ← h.diagnostics, ← hspan]
        ordered := .cons hearlier h.ordered
        read := hread
        remarked := fun j hj a ha => List.mem_cons_of_mem _ (h.remarked j hj a ha) }

end Annotated

end Annotated

end Calculator

end ShiftReduce
