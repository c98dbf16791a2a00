import Mathlib.Data.List.Basic
import ShiftReduce.Listing
import ShiftReduce.Proofs.Tables.Validation

namespace ShiftReduce

def Unbroken (s : String) : Prop := '\n' ∉ s.toList

instance (s : String) : Decidable (Unbroken s) := inferInstanceAs (Decidable (¬_))

/-- The lines of a text. A line break at its end has an empty line behind it. -/
def textLines (text : String) : List String := (text.split '\n').toList.map String.Slice.copy

section Unbroken

@[simp] theorem unbroken_append {s s' : String} :
    Unbroken (s ++ s') ↔ Unbroken s ∧ Unbroken s' := by
  simp [Unbroken]

@[simp] theorem unbroken_ofList {l : List Char} : Unbroken (String.ofList l) ↔ '\n' ∉ l := by
  simp [Unbroken]

@[simp] theorem unbroken_repr (n : Nat) : Unbroken n.repr := by
  intro h
  rw [Nat.toList_repr] at h
  have hdigit := Nat.isDigit_of_mem_toDigits (by decide) (by decide) h
  exact absurd hdigit (by decide)

theorem unbroken_intercalate {sep : String} {parts : List String} (hsep : Unbroken sep)
    (hparts : ∀ s ∈ parts, Unbroken s) : Unbroken (sep.intercalate parts) := by
  match parts with
  | [] => simp [Unbroken]
  | [s] => simpa using hparts
  | s :: s' :: rest =>
    have hrest := unbroken_intercalate hsep fun p hp => hparts p (List.mem_cons_of_mem s hp)
    simp [String.intercalate_cons_cons, hsep, hrest, hparts]

/-- The lines that are written are the lines that are read. -/
theorem textLines_join {lines : List String} (h : ∀ s ∈ lines, Unbroken s) :
    textLines (String.join (lines.map (· ++ "\n"))) = lines ++ [""] := by
  have hjoin : String.join (lines.map (· ++ "\n")) = "\n".intercalate (lines ++ [""]) := by
    induction lines with
    | nil => rfl
    | cons s rest ih =>
      rw [List.map_cons, String.join_cons, ih fun s hs => h s (List.mem_cons_of_mem _ hs)]
      cases rest <;> simp [String.intercalate_cons_cons, String.append_assoc]
  have hfree : ∀ s ∈ lines ++ [""], '\n' ∉ s.toList := by
    intro s hs
    rcases List.mem_append.1 hs with hs | hs
    · exact h s hs
    · simp [List.mem_singleton.1 hs]
  have hsplit := String.toList_split_intercalate hfree
  rw [if_neg (by simp)] at hsplit
  rw [hjoin]
  exact hsplit

end Unbroken

def cellText (c : Cell) : String :=
  if 0 < c.toInt then s!"Shift(StateId({c.toInt.natAbs}))"
  else if c.toInt < 0 then s!"Reduce(RuleId({c.toInt.natAbs}))"
  else "Error"

theorem unbroken_cellText (c : Cell) : Unbroken (cellText c) := by
  unfold cellText
  split
  · simp +decide [toString]
  · split
    · simp +decide [toString]
    · decide

/-- A number that passes the checks is shown with all its bits. -/
theorem render_decode {d : Draft} {i : Nat} {c : Cell} (h : d.cellViolation i c = none) :
    (Action.decode c).render = cellText c := by
  have hpos : 0 < c ↔ 0 < c.toInt := Int32.lt_iff_toInt_lt
  have hneg : c < 0 ↔ c.toInt < 0 := Int32.lt_iff_toInt_lt
  cases ha : Action.decode c with
  | shift target =>
    obtain ⟨hc, hn⟩ := Action.toNat_of_decode_shift ha
    rw [cellText, if_pos (hpos.1 hc), ← hn]
    rfl
  | reduce r =>
    obtain ⟨hc, hn⟩ := Action.toNat_of_decode_reduce ha
    have hc' := hneg.1 hc
    have hsmall : c.toInt.natAbs < UInt16.size := by
      refine Nat.lt_of_not_le fun hle => ?_
      simp [Draft.cellViolation, hpos, hc, hle, Int.not_lt.2 (Int.le_of_lt hc')] at h
    have hr : r.id.toNat = c.toInt.natAbs := hn.trans (Nat.mod_eq_of_lt hsmall)
    rw [cellText, if_neg (by omega), if_pos hc', ← hr]
    rfl
  | error =>
    obtain rfl := Action.decode_eq_error_iff.1 ha
    rfl

namespace Tables

inductive Row
  | rule (index : Nat) (r : Rule)
  | state (index : Nat)
  | entry (a : Terminal) (c : Cell)
  | fallback (c : Cell)
  | goto (n : Nonterminal) (target : StateId)

variable (t : Tables)

def ruleParts (r : Rule) : List String :=
  t.nonterminalName r.lhs :: "->" :: r.rhs.map t.symbolName

def rowText : Row → String
  | .rule index r => s!"rule {index}: " ++ " ".intercalate (t.ruleParts r)
  | .state index => s!"state {index}:"
  | .entry a c => s!"    {padded (t.terminalName a)} {cellText c}"
  | .fallback c => "    " ++ padded "$default" ++ s!" {cellText c}"
  | .goto n target => s!"    {padded (t.nonterminalName n)} goto {target.id.toNat}"

def stateRows (index : Nat) (s : State) : List Row :=
  .state index :: s.actions.entries.map (fun p => .entry p.1 p.2) ++
    .fallback s.fallback :: s.gotos.entries.map (fun p => .goto p.1 p.2)

def listingRows (rules : List Rule) : List Row :=
  rules.zipIdx.map (fun p => .rule p.2 p.1) ++
    t.states.toList.zipIdx.flatMap fun p => stateRows p.2 p.1

/-- At each index the rule that its low sixteen bits name. -/
def shownRules : List Rule :=
  t.rules.toList.zipIdx.map fun p => t.rules[p.2 % UInt16.size]?.getD p.1

theorem ruleText_eq (r : Rule) : t.ruleText r = " ".intercalate (t.ruleParts r) := by
  have hfold (head : String) (rest : List String) :
      " ".intercalate (head :: rest) = rest.foldl (fun text s => text ++ " " ++ s) head := by
    induction rest generalizing head with
    | nil => simp
    | cons s rest ih =>
      rw [List.foldl_cons, ← ih, String.intercalate_cons_cons]
      cases rest <;> simp [String.intercalate_cons_cons, String.append_assoc]
  have harrow : t.nonterminalName r.lhs ++ " " ++ "->" = t.nonterminalName r.lhs ++ " ->" := by
    rw [String.append_assoc]
    rfl
  rw [ruleText, ruleParts, hfold, List.foldl_cons, List.foldl_map, harrow]

theorem ruleLine_eq (index : Nat) (r : Rule) : t.ruleLine index r =
    t.rowText (.rule index (t.rules[index % UInt16.size]?.getD r)) ++ "\n" := by
  have hindex : index.toUInt16.toNat = index % UInt16.size := by simp
  rw [ruleLine, hindex, ruleText_eq]
  rfl

theorem cellLine_eq {d : Draft} {i : Nat} {c : Cell} (h : d.cellViolation i c = none)
    (name : String) : cellLine name c = "    " ++ padded name ++ " " ++ cellText c ++ "\n" := by
  rw [cellLine, render_decode h]
  rfl

variable {t}

theorem stateLines_eq {i : Nat} {s : State} (h : t.stateViolation i s = none) :
    t.stateLines i s = (stateRows i s).map fun row => t.rowText row ++ "\n" := by
  obtain ⟨hfallback, hentries, -⟩ := Draft.stateViolation_eq_none_iff.1 h
  have hhead : s!"state {i}:\n" = t.rowText (.state i) ++ "\n" := by
    have hbreak : toString ":\n" = ":" ++ "\n" := rfl
    rw [hbreak, ← String.append_assoc]
    rfl
  have hactions : s.actions.entries.map (fun p => cellLine (t.terminalName p.1) p.2) =
      s.actions.entries.map fun p => t.rowText (.entry p.1 p.2) ++ "\n" :=
    List.map_congr_left fun p hp =>
      cellLine_eq (Draft.cellViolation_of_entryViolation (hentries p hp)) _
  have hdefault : cellLine "$default" s.fallback = t.rowText (.fallback s.fallback) ++ "\n" :=
    cellLine_eq hfallback _
  simp only [stateLines, stateRows, List.map_append, List.map_cons, List.map_map, hhead, hactions,
    hdefault]
  rfl

variable (t)

theorem listingLines_eq : t.listingLines =
    (t.listingRows t.shownRules).map fun row => t.rowText row ++ "\n" := by
  have hstates := (Draft.firstViolation_eq_none_iff.1 t.sound).2
  have hrules : t.shownRules.zipIdx = t.rules.toList.zipIdx.map fun p =>
      (t.rules[p.2 % UInt16.size]?.getD p.1, p.2) := by
    refine List.ext_getElem? fun i => ?_
    simp only [shownRules, List.getElem?_zipIdx, List.getElem?_map]
    cases t.rules.toList[i]? <;> rfl
  rw [listingLines, listingRows, List.map_append, List.map_flatMap, hrules, List.map_map,
    List.map_map]
  congr 1
  · exact List.map_congr_left fun p _ => t.ruleLine_eq p.2 p.1
  · refine List.flatMap_congr fun p hp => ?_
    have hp' : t.states[p.2]? = some p.1 := by
      simpa [List.mem_zipIdx_iff_getElem?] using hp
    exact stateLines_eq (hstates _ _ hp')

variable {t}

theorem getElem?_shownRules (i : Nat) : t.shownRules[i]? =
    t.rules[i]?.map fun r => t.rules[i % UInt16.size]?.getD r := by
  simp only [shownRules, List.getElem?_map, List.getElem?_zipIdx, Array.getElem?_toList,
    Option.map_map, Nat.zero_add]
  rfl

/-- If there are no more rules than rule numbers, each index has a number of its own. -/
theorem shownRules_eq (h : t.rules.size ≤ UInt16.size) : t.shownRules = t.rules.toList := by
  refine List.ext_getElem? fun i => ?_
  rw [getElem?_shownRules, Array.getElem?_toList]
  by_cases hi : i < t.rules.size
  · simp [hi, Nat.mod_eq_of_lt (Nat.lt_of_lt_of_le hi h)]
  · simp [hi]

variable (t)

def names : List String := t.terminalNames.toList ++ t.nonterminalNames.toList

variable {t}

theorem unbroken_rowText (h : ∀ name ∈ t.names, Unbroken name) (row : Row) :
    Unbroken (t.rowText row) := by
  have hterminal (a : Terminal) : Unbroken (t.terminalName a) := by
    unfold terminalName
    cases hname : t.terminalNames[a.id.toNat]? with
    | none => simp +decide [toString]
    | some name =>
      exact h name (List.mem_append_left _ (Array.mem_toList_iff.2 (Array.mem_of_getElem? hname)))
  have hnonterminal (n : Nonterminal) : Unbroken (t.nonterminalName n) := by
    unfold nonterminalName
    cases hname : t.nonterminalNames[n.id.toNat]? with
    | none => simp +decide [toString]
    | some name =>
      exact h name (List.mem_append_right _ (Array.mem_toList_iff.2 (Array.mem_of_getElem? hname)))
  have hpadded {name : String} (hname : Unbroken name) : Unbroken (padded name) := by
    simp [padded, hname]
  cases row with
  | rule index r =>
    have hsymbol (x : Symbol) : Unbroken (t.symbolName x) := by
      cases x with
      | terminal a => exact hterminal a
      | nonterminal n => exact hnonterminal n
    have hparts : ∀ s ∈ t.ruleParts r, Unbroken s := by
      have harrow : Unbroken "->" := by decide
      simp [ruleParts, hnonterminal, harrow, hsymbol]
    have htext := unbroken_intercalate (by decide : Unbroken " ") hparts
    simp +decide [rowText, toString, htext]
  | state index => simp +decide [rowText, toString]
  | entry a c => simp +decide [rowText, toString, hpadded (hterminal a), unbroken_cellText c]
  | fallback c => simp +decide [rowText, toString, unbroken_cellText c]
  | goto n target => simp +decide [rowText, toString, hpadded (hnonterminal n)]

theorem textLines_listing (h : ∀ name ∈ t.names, Unbroken name) :
    textLines t.listing = (t.listingRows t.shownRules).map t.rowText ++ [""] := by
  rw [listing, listingLines_eq, ← textLines_join]
  · rw [List.map_map]
    rfl
  · intro s hs
    obtain ⟨row, -, rfl⟩ := List.mem_map.1 hs
    exact unbroken_rowText h row

/-- The rules come first. -/
theorem getElem?_listingRows {rules : List Rule} {i : Nat} {r : Rule} (h : rules[i]? = some r) :
    ((t.listingRows rules).map t.rowText ++ [""])[i]? = some (t.rowText (.rule i r)) := by
  obtain ⟨hi, rfl⟩ := List.getElem?_eq_some_iff.1 h
  simp [listingRows, List.getElem?_append, hi]

/-- The listing has a line for each rule, showing the rule that the low sixteen bits of its number
name, and then for each state, its heading, its entries, its default and its gotos, showing what is
stored. If there are no more rules than rule numbers each rule is shown as it is. -/
theorem listing_faithful (t : Tables) (h : ∀ name ∈ t.names, Unbroken name) :
    textLines t.listing = (t.listingRows t.shownRules).map t.rowText ++ [""] ∧
      (t.rules.size ≤ UInt16.size →
        textLines t.listing = (t.listingRows t.rules.toList).map t.rowText ++ [""]) := by
  refine ⟨textLines_listing h, fun hsize => ?_⟩
  rw [textLines_listing h, shownRules_eq hsize]

/-- Tables of a grammar for bracketed names. -/
def bracketed : Tables where
  rules := #[⟨⟨0⟩, []⟩, ⟨⟨1⟩, [.nonterminal ⟨2⟩]⟩,
    ⟨⟨2⟩, [.terminal ⟨3⟩, .nonterminal ⟨2⟩, .terminal ⟨4⟩]⟩, ⟨⟨2⟩, [.terminal ⟨5⟩]⟩]
  states := #[
    { actions := .ofList [(⟨3⟩, 1), (⟨5⟩, 2)], gotos := .ofList [(⟨2⟩, ⟨3⟩)] },
    { actions := .ofList [(⟨5⟩, 2), (⟨4⟩, 0)], fallback := -2 },
    { fallback := -3 },
    { actions := .ofList [(⟨1⟩, -1)] }]
  terminalNames := #["none", "end", "error", "[", "]", "name"]
  nonterminalNames := #["", "text", "item"]
  sound := by decide

theorem listing_faithful_bracketed : (∀ name ∈ bracketed.names, Unbroken name) ∧
    bracketed.rules.size ≤ UInt16.size ∧ textLines bracketed.listing = [
      "rule 0:  ->", "rule 1: text -> item", "rule 2: item -> [ item ]", "rule 3: item -> name",
      "state 0:", "    [            Shift(StateId(1))", "    name         Shift(StateId(2))",
      "    $default     Error", "    item         goto 3",
      "state 1:", "    name         Shift(StateId(2))", "    ]            Error",
      "    $default     Reduce(RuleId(2))",
      "state 2:", "    $default     Reduce(RuleId(3))",
      "state 3:", "    end          Reduce(RuleId(1))", "    $default     Error", ""] := by
  have hnames : ∀ name ∈ bracketed.names, Unbroken name := by decide
  have hsize : bracketed.rules.size ≤ UInt16.size := by decide
  refine ⟨hnames, hsize, ((listing_faithful bracketed hnames).2 hsize).trans ?_⟩
  decide +kernel

/-- Tables with one rule more than there are rule numbers. -/
def crowded : Tables where
  rules := (Array.replicate UInt16.size ⟨⟨0⟩, []⟩).push ⟨⟨1⟩, []⟩
  states := #[{}]
  sound := by
    have hsize : ((Array.replicate UInt16.size (⟨⟨0⟩, []⟩ : Rule)).push ⟨⟨1⟩, []⟩).size = 65537 := by
      simp
    simp only [Draft.firstViolation, Draft.overallViolation, hsize]
    decide

/-- The last rule has nonterminal 1 on its left-hand side, and its line shows nonterminal 0. -/
theorem listing_crowded : (∀ name ∈ crowded.names, Unbroken name) ∧
    crowded.rules[65536]? = some ⟨⟨1⟩, []⟩ ∧
    (textLines crowded.listing)[65536]? = some "rule 65536: <0> ->" ∧
    textLines crowded.listing ≠
      (crowded.listingRows crowded.rules.toList).map crowded.rowText ++ [""] := by
  have hnames : ∀ name ∈ crowded.names, Unbroken name := by simp [crowded, names]
  have hfirst : crowded.rules[0]? = some ⟨⟨0⟩, []⟩ := by simp [crowded, Array.getElem_push]
  have hlast : crowded.rules[65536]? = some ⟨⟨1⟩, []⟩ := by simp [crowded, Array.getElem_push]
  have hshown : crowded.shownRules[65536]? = some ⟨⟨0⟩, []⟩ := by
    rw [getElem?_shownRules, hlast, Option.map_some, Nat.mod_self, hfirst]
    rfl
  have hline : (textLines crowded.listing)[65536]? = some "rule 65536: <0> ->" := by
    rw [textLines_listing hnames, getElem?_listingRows hshown]
    decide +kernel
  have hown : ((crowded.listingRows crowded.rules.toList).map crowded.rowText ++ [""])[65536]? =
      some "rule 65536: <1> ->" := by
    rw [getElem?_listingRows ((Array.getElem?_toList ..).trans hlast)]
    decide +kernel
  refine ⟨hnames, hlast, hline, fun heq => ?_⟩
  rw [heq, hown] at hline
  revert hline
  decide

end Tables

end ShiftReduce
