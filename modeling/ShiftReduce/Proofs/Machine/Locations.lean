import ShiftReduce.Proofs.Machine.Discipline
import ShiftReduce.Proofs.Machine.Record
import ShiftReduce.Proofs.Machine.Tiles

namespace ShiftReduce.Machine

variable {σ α V S φ P : Type}

section Account

variable (m : Machine σ α V S φ) (c : Config σ α V S)

def upcoming (a : Account σ V S) : List (Terminal × S) :=
  a.lookahead.toList.map fun t => (t, m.scanner.span a.scanner)

/-- The tokens that were read, each with the location that the scanner told when it had read it,
the first one first. -/
def located (m : Machine σ α V S φ) (c : Config σ α V S) :
    List (Event V S) → List (Terminal × S)
  | [] => []
  | .fetched t :: past =>
    m.located c past ++ [(t, m.scanner.span (m.account c (.fetched t :: past)).scanner)]
  | _ :: past => m.located c past

variable {m c}

theorem located_quiet {e : Event V S} (h : e.quiet = true) (past : List (Event V S)) :
    m.located c (e :: past) = m.located c past := by
  cases e <;> first | rfl | cases h

end Account

section Clean

variable {trace past : List (Event V S)}

/-- A history in which no error has been met and the end terminal has not been shifted. -/
structure Clean (m : Machine σ α V S φ) (trace : List (Event V S)) : Prop where
  errors : told Event.error? trace = []
  stops : ∀ p ∈ told Event.shift? trace, p.1 ≠ m.tables.endTerminal

variable {m : Machine σ α V S φ}

theorem Clean.of_suffix (h : m.Clean trace) (hs : past <:+ trace) : m.Clean past := by
  obtain ⟨later, rfl⟩ := hs
  have herrors := h.errors
  have hstops := h.stops
  rw [told_append] at herrors hstops
  exact ⟨(List.append_eq_nil_iff.1 herrors).1, fun p hp =>
    hstops p (List.mem_append_left _ hp)⟩

theorem Clean.shiftsSinceError (h : m.Clean trace) : shiftsSinceError trace = none :=
  shiftsSinceError_eq_none_iff.2 h.errors

end Clean

variable [Merge S] {m : Machine σ α V S φ} {c d : Config σ α V S} {E : Ends S P}
  {trace past : List (Event V S)}

variable (m c E) in
structure Laid (trace : List (Event V S)) : Prop where
  frames : (m.account c trace).frames = (tiles trace).map Tile.frame ++ [m.bottom c]
  located : m.located c trace = joined (tiles trace) ++ m.upcoming (m.account c trace)
  tiled : Tiled E (m.scanner.span c.scanner) (tiles trace) (m.upcoming (m.account c trace))
  resting : (m.account c trace).lookahead = none →
    m.scanner.span (m.account c trace).scanner =
      lastSpanOf (m.scanner.span c.scanner) (joined (tiles trace))
  reading : (m.account c trace).lookahead ≠ none →
    (m.account c trace).lastSpan = lastSpanOf (m.scanner.span c.scanner) (joined (tiles trace))

namespace Laid

theorem quiet {e : Event V S} (h : m.Laid c E past) (he : e.quiet = true) :
    m.Laid c E (e :: past) := by
  constructor
  all_goals rw [account_quiet he, tiles_quiet he]
  · exact h.frames
  · rw [located_quiet he]
    exact h.located
  · exact h.tiled
  · exact h.resting
  · exact h.reading

theorem shifting (h : m.Laid c E past) (t : Terminal) (target : StateId) :
    m.Laid c E (.shifting t target :: past) :=
  ⟨h.frames, h.located, h.tiled, h.resting, h.reading⟩

section Reduced

variable {r : Reduction V S} {given made : V} {control : Control}

theorem reduced (h : m.Laid c E past) : m.Laid c E (.reduced r given made control :: past) :=
  ⟨h.frames, h.located, h.tiled, h.resting, h.reading⟩

theorem of_reduced (h : m.Laid c E (.reduced r given made control :: past)) :
    m.Laid c E past :=
  ⟨h.frames, h.located, h.tiled, h.resting, h.reading⟩

end Reduced

theorem fetched (h : m.Laid c E past) (hfree : (m.account c past).lookahead = none)
    (t : Terminal) : m.Laid c E (.fetched t :: past) := by
  have hnone : m.upcoming (m.account c past) = [] := by simp [upcoming, hfree]
  have hlocated := h.located
  have htiled := h.tiled
  rw [hnone, List.append_nil] at hlocated
  rw [hnone] at htiled
  constructor
  · exact h.frames
  · rw [Machine.located, hlocated]
    rfl
  · exact htiled.append _
  · exact fun hnone => by simp [account_cons, enter] at hnone
  · exact fun _ => h.resting hfree

/-- Handing over its value does not move the scanner. -/
theorem taken (h : m.Laid c E past) (hspan : ∀ x, m.scanner.span (m.scanner.value x).2 =
    m.scanner.span x) (v : V) : m.Laid c E (.taken v :: past) := by
  have hsame : m.scanner.span (m.account c (.taken v :: past)).scanner =
      m.scanner.span (m.account c past).scanner := hspan _
  have hupcoming : m.upcoming (m.account c (.taken v :: past)) =
      m.upcoming (m.account c past) := by
    rw [upcoming, hsame]
    rfl
  constructor
  · exact h.frames
  · rw [hupcoming]
    exact h.located
  · rw [hupcoming]
    exact h.tiled
  · rw [hsame]
    exact h.resting
  · exact h.reading

/-- The buffered token becomes a frame. -/
theorem shifted {t : Terminal} {f : Frame V S} (h : m.Laid c E past)
    (hready : (m.account c past).lookahead = some t)
    (hf : f.span = m.scanner.span (m.account c past).scanner) (ht : t ≠ m.tables.endTerminal) :
    m.Laid c E (.shifted t f :: past) := by
  have hnext : m.upcoming (m.account c past) = [(t, f.span)] := by simp [upcoming, hready, hf]
  have hnone : m.upcoming (m.account c (.shifted t f :: past)) = [] := by
    simp [upcoming, account_cons, enter, ht]
  have htiles : tiles (.shifted t f :: past) = ⟨f, [(t, f.span)]⟩ :: tiles past := rfl
  have hlocated := h.located
  have htiled := h.tiled
  rw [hnext] at hlocated htiled
  constructor
  · rw [htiles, account_cons]
    simp [enter, h.frames]
  · rw [hnone, htiles, joined_cons, List.append_nil]
    exact hlocated
  · rw [hnone, htiles]
    exact ⟨⟨rfl, rfl⟩, htiled⟩
  · intro _
    rw [htiles, joined_cons, lastSpanOf_concat]
    exact hf.symm
  · exact fun hsome => absurd (by simp [account_cons, enter, ht]) hsome

/-- The frames of a right-hand side that leaves the start frame on the stack. -/
theorem top_frames {phrase below : List (Frame V S)} (h : m.Laid c E past)
    (hitems : (m.account c past).frames = phrase.reverse ++ below)
    (hproper : phrase.length ≤ (tiles past).length) :
    (((tiles past).take phrase.length).map Tile.frame).reverse = phrase := by
  have hle : phrase.length ≤ ((tiles past).map Tile.frame).length := by
    rwa [List.length_map]
  have hphrase : (phrase.reverse ++ below).take phrase.length = phrase.reverse :=
    List.take_left' (List.length_reverse)
  rw [List.map_take, ← List.take_append_of_le_length hle, ← h.frames, hitems, hphrase,
    List.reverse_reverse]

/-- A left-hand side is given the location of the tokens that the right-hand side stands for. -/
theorem fits_offer {r : RuleId} {rule : Rule} {phrase below : List (Frame V S)}
    (h : m.Laid c E past) (hitems : (m.account c past).frames = phrase.reverse ++ below)
    (hproper : phrase.length ≤ (tiles past).length)
    (hknown : phrase = [] → (m.account c past).lookahead ≠ none) :
    Fits E (m.scanner.span c.scanner) (joined ((tiles past).drop phrase.length))
      (joined ((tiles past).take phrase.length)) (m.upcoming (m.account c past))
      (m.offer (m.account c past) r rule phrase).span := by
  have htiled := h.tiled
  rw [← List.take_append_drop phrase.length (tiles past)] at htiled
  have hgap (hempty : (tiles past).take phrase.length = []) :
      Fits E (m.scanner.span c.scanner) (joined ((tiles past).drop phrase.length)) []
        (m.upcoming (m.account c past)) (m.gapIn (m.account c past)) := by
    have hphrase : phrase = [] := by
      rw [← h.top_frames hitems hproper, hempty]
      rfl
    obtain ⟨t, ht⟩ := Option.ne_none_iff_exists'.1 (hknown hphrase)
    have hnext : m.upcoming (m.account c past) =
        [(t, m.scanner.span (m.account c past).scanner)] := by simp [upcoming, ht]
    rw [hnext, hphrase]
    refine ⟨⟨_, rfl, E.first_merge _ _⟩, ?_⟩
    rw [gapIn, E.last_merge, h.reading (hknown hphrase)]
    rfl
  have hfits := htiled.fits_spread (m.gapIn (m.account c past)) hgap
  rwa [h.top_frames hitems hproper] at hfits

/-- It becomes a frame for these tokens. -/
theorem folded {n : Nat} {f : Frame V S} (h : m.Laid c E past) (hn : n ≤ (tiles past).length)
    (hfits : Fits E (m.scanner.span c.scanner) (joined ((tiles past).drop n))
      (joined ((tiles past).take n)) (m.upcoming (m.account c past)) f.span) :
    m.Laid c E (.folded n f :: past) := by
  have htiles : tiles (.folded n f :: past) =
      ⟨f, joined ((tiles past).take n)⟩ :: (tiles past).drop n := rfl
  have hjoined : joined (tiles (.folded n f :: past)) = joined (tiles past) :=
    joined_tiles_folded n f past
  have htiled := h.tiled
  rw [← List.take_append_drop n (tiles past)] at htiled
  constructor
  · have hle : n ≤ ((tiles past).map Tile.frame).length := by rwa [List.length_map]
    rw [htiles, account_cons, List.map_cons, List.map_drop, List.cons_append,
      ← List.drop_append_of_le_length hle, ← h.frames]
    rfl
  · rw [hjoined]
    exact h.located
  · rw [htiles]
    exact ⟨hfits, htiled.drop⟩
  · rw [hjoined]
    exact h.resting
  · rw [hjoined]
    exact h.reading

end Laid

theorem Follows.fits {r : Reduction V S} {given made : V} {control : Control}
    (h : m.Follows c (.reduced r given made control) past) (hlaid : m.Laid c E past)
    (hproper : r.rule.length ≤ (tiles past).length) :
    Fits E (m.scanner.span c.scanner) (joined ((tiles past).drop r.rule.length))
      (joined ((tiles past).take r.rule.length)) (m.upcoming (m.account c past)) r.span := by
  obtain ⟨phrase, below, hitems, hlength, hknown, hoffer, -⟩ := h
  rw [← hlength] at hproper ⊢
  rw [hoffer]
  exact hlaid.fits_offer hitems hproper hknown

/-- Before the first error the frames of a parse are laid out as the tokens are. -/
theorem Lawful.laid (h : m.Lawful c trace) (hclean : m.Clean trace) (hc : c.stack.items = [])
    (hspan : ∀ x, m.scanner.span (m.scanner.value x).2 = m.scanner.span x) :
    m.Laid c E trace := by
  induction trace with
  | nil =>
    refine ⟨?_, rfl, trivial, fun _ => rfl, fun hnone => absurd rfl hnone⟩
    simp [account, hc, tiles, bottom]
  | cons e past ih =>
    have hclean' := hclean.of_suffix (List.suffix_cons e past)
    have hunhurt := hclean'.shiftsSinceError
    have hpast := ih h.tail hclean'
    have hfollows := h.head
    cases e with
    | fetched t => exact hpast.fetched hfollows.1 t
    | shifting t target => exact hpast.shifting t target
    | taken v => exact hpast.taken hspan v
    | shifted t f =>
      obtain ⟨past', rfl, hready, -, hf, -⟩ := hfollows
      exact hpast.shifted hready hf (hclean.stops (t, f) (by simp [Event.shift?]))
    | reduced r given made control => exact hpast.reduced
    | folded n f =>
      obtain ⟨r, given, past', rfl, rfl, hf, hproper, -⟩ := hfollows
      have hlaid := hpast.of_reduced
      have hle : r.rule.length ≤ (tiles past').length := by
        rw [hlaid.frames, List.length_append, List.length_map, List.length_singleton] at hproper
        omega
      have hfits := Follows.fits h.tail.head hlaid hle
      rw [← hf] at hfits
      exact hpast.folded hle hfits
    -- Without an error nothing is reported, popped, caught or discarded.
    | stuck t span => simpa [Event.error?] using hclean.errors
    | reported message span =>
      obtain ⟨t, past', rfl, -⟩ := hfollows
      simpa [Event.error?] using hclean'.errors
    | popped state => exact absurd hunhurt hfollows
    | caught f => exact absurd hunhurt hfollows.1
    | discarded t => exact absurd hunhurt hfollows.1
    | _ => exact hpast.quiet rfl

section Depth

/-- The frames that a trace tells of never come to more than the limit. -/
theorem Lawful.length_frames_le (h : m.Lawful c trace) (hc : c.stack.items.length < m.maxDepth) :
    (m.account c trace).frames.length ≤ m.maxDepth := by
  induction trace with
  | nil => exact hc
  | cons e past ih =>
    have hpast := ih h.tail
    have hfollows := h.head
    cases e with
    | shifted t f =>
      obtain ⟨past', rfl, -, -, -, hroom⟩ := hfollows
      exact hroom
    | folded n f =>
      obtain ⟨r, given, past', rfl, -, -, hproper, hroom⟩ := hfollows
      have hlength : ((m.account c past').frames.drop n).length < m.maxDepth := by
        rwa [List.length_drop]
      exact hlength
    | popped state =>
      rw [account_cons, enter, List.length_drop]
      omega
    | caught f => exact hfollows.2
    | _ => exact hpast

/-- A parse that began with no frames has those its trace tells of, unless it has none. -/
theorem Closed.items_eq (h : m.Closed c d) (hc : c.stack.items = [])
    (hd : d.stack.Upright m.tables m.maxDepth) :
    d.stack.items = (m.account c d.trace).frames ∨ d.stack.items = [] := by
  obtain ⟨hdepth, hknown, -, -⟩ := FrameStack.upright_iff.1 hd
  cases h with
  | standing recorded => exact Or.inl (by rw [recorded.account])
  | bare recorded items => exact Or.inr items
  | lost recorded below mem state =>
    obtain ⟨row, hrow⟩ := Tables.exists_state (hknown _ mem)
    simp [hrow] at state
  | @full frames recorded below full =>
    by_cases hzero : m.maxDepth = 0
    · rw [hzero, Nat.le_zero, List.length_eq_zero_iff] at hdepth
      exact Or.inr hdepth
    · have hlength := recorded.chronicle.lawful.length_frames_le (by rw [hc]; simp; omega)
      rw [recorded.account] at hlength ⊢
      exact Or.inl (below.eq_of_length_le (hlength.trans full))

end Depth

variable (m E) in
/-- How the locations in a parse that was started in `c` and has come to `d` fit the tokens, as long
as no error has been met and the end terminal has not been shifted. -/
structure LocationsExact (c d : Config σ α V S) : Prop where
  scanner : d.scanner = (m.account c d.trace).scanner
  lookahead : d.lookahead = (m.account c d.trace).lookahead
  stack : d.stack.items = (m.account c d.trace).frames ∨ d.stack.items = []
  frames : ∀ {past}, past <:+ d.trace → m.Clean past →
    (m.account c past).frames = (tiles past).map Tile.frame ++ [m.bottom c]
  /-- The frames stand for the shifted tokens, in their order. -/
  shifted : ∀ {past}, past <:+ d.trace → m.Clean past →
    joined (tiles past) = (told Event.shift? past).map fun p => (p.1, p.2.span)
  /-- These are the tokens that were read, each at the location that it was read at, apart from the
  buffered one. -/
  read : ∀ {past}, past <:+ d.trace → m.Clean past →
    m.located c past = joined (tiles past) ++ m.upcoming (m.account c past)
  /-- Each frame has the location of its tokens. -/
  frame : ∀ {past} above tile below, past <:+ d.trace → m.Clean past →
    tiles past = above ++ tile :: below →
      Fits E (m.scanner.span c.scanner) (joined below) tile.block
        (joined above ++ m.upcoming (m.account c past)) tile.frame.span
  /-- A semantic action is given the location of the tokens of its right-hand side. -/
  action : ∀ {past r given made control}, .reduced r given made control :: past <:+ d.trace →
    m.Clean past → r.rule.length ≤ (tiles past).length →
      Fits E (m.scanner.span c.scanner) (joined ((tiles past).drop r.rule.length))
        (joined ((tiles past).take r.rule.length)) (m.upcoming (m.account c past)) r.span

/-- Locations are exact for every grammar: before the first error each frame and each left-hand
side has the location of the tokens that it stands for, whatever the tables and the actions do. -/
theorem locations_exact (m : Machine σ α V S φ) (E : Ends S P) {c : Config σ α V S}
    (hc : c.stack.items = [])
    (hspan : ∀ x, m.scanner.span (m.scanner.value x).2 = m.scanner.span x) (n : Nat) :
    m.LocationsExact E c (m.progress n c).config := by
  have hclosed := progress_closed m c n
  have hupright : (m.progress n c).config.stack.Upright m.tables m.maxDepth :=
    progress_keeps (start_stands hc) And.left Stands.keeps n
  obtain ⟨frames, hrecorded, -⟩ := hclosed.recorded
  have hlawful := hrecorded.chronicle.lawful
  have hlaid {past : List (Event V S)} (hpast : past <:+ (m.progress n c).config.trace)
      (hclean : m.Clean past) : m.Laid c E past :=
    (hlawful.of_suffix hpast).laid hclean hc hspan
  constructor
  case scanner => rw [hrecorded.account]
  case lookahead => rw [hrecorded.account]
  case stack => exact hclosed.items_eq hc hupright
  case frames => exact fun hpast hclean => (hlaid hpast hclean).frames
  case shifted => exact fun _ _ => joined_tiles _
  case read => exact fun hpast hclean => (hlaid hpast hclean).located
  case frame =>
    intro past above tile below hpast hclean htiles
    have htiled := (hlaid hpast hclean).tiled
    rw [htiles] at htiled
    exact htiled.fits
  case action =>
    intro past r given made control hreduced hclean hproper
    have hpast := (List.suffix_cons _ past).trans hreduced
    exact Follows.fits (hlawful hreduced) (hlaid hpast hclean) hproper

def padded : Tables where
  rules := #[⟨⟨0⟩, []⟩, ⟨⟨1⟩, []⟩, ⟨⟨2⟩, [.nonterminal ⟨1⟩, .terminal ⟨3⟩]⟩, ⟨⟨3⟩, []⟩]
  states := #[
    { gotos := .ofList [(⟨1⟩, ⟨1⟩), (⟨2⟩, ⟨3⟩)], fallback := -1 },
    { actions := .ofList [(⟨3⟩, 2)] },
    { fallback := -2 },
    { fallback := -3 }]
  acceptRule := ⟨3⟩
  sound := by decide

def padder : Machine Nat Unit Unit ByteRange Empty where
  tables := padded
  scanner := {
    next x := (if x = 0 then ⟨3⟩ else padded.endTerminal, x + 1, [])
    value x := ((), x)
    span x := if x = 0 then {} else if x = 1 then ⟨2, 5⟩ else ⟨7, 7⟩
    report _ _ x := (x, [])
    proper x := by dsimp only; split <;> decide }
  actions := { blank := (), reduce := fun _ value state => .ok { value, state } }

theorem locations_exact_padder : (padder.init 0 ()).stack.items = [] ∧
    (∀ x, padder.scanner.span (padder.scanner.value x).2 = padder.scanner.span x) ∧
    padder.Clean (padder.progress 2 (padder.init 0 ())).config.trace ∧
    (padder.progress 2 (padder.init 0 ())).config.stack.items.map Frame.span =
      [⟨2, 5⟩, ⟨2, 0⟩, {}] ∧
    Fits ByteRange.ends {} [] [] [(⟨3⟩, ⟨2, 5⟩)] ⟨2, 0⟩ ∧
    Fits ByteRange.ends {} [] [(⟨3⟩, ⟨2, 5⟩)] [] ⟨2, 5⟩ := by
  have hempty : (padder.init 0 ()).stack.items = [] := rfl
  have hspan : ∀ x, padder.scanner.span (padder.scanner.value x).2 = padder.scanner.span x :=
    fun _ => rfl
  have hclean : padder.Clean (padder.progress 2 (padder.init 0 ())).config.trace :=
    ⟨by decide, by decide⟩
  have hexact := locations_exact padder ByteRange.ends hempty hspan 2
  have htiles : tiles (padder.progress 2 (padder.init 0 ())).config.trace =
      [⟨⟨⟨2⟩, (), ⟨2, 5⟩⟩, [(⟨3⟩, ⟨2, 5⟩)]⟩, ⟨⟨⟨1⟩, (), ⟨2, 0⟩⟩, []⟩] := rfl
  refine ⟨hempty, hspan, hclean, by decide, ?_, ?_⟩
  · exact hexact.frame [_] _ [] (List.suffix_refl _) hclean htiles
  · exact hexact.frame [] _ [_] (List.suffix_refl _) hclean htiles

end ShiftReduce.Machine
