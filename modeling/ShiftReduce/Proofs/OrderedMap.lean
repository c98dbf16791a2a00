import ShiftReduce.OrderedMap

namespace ShiftReduce.OrderedMap

variable {κ ν : Type} [DecidableEq κ]

def keys (m : OrderedMap κ ν) : List κ := m.entries.map Prod.fst

theorem find_of_mem {k : κ} {v : ν} {l : List (κ × ν)} (hl : (l.map Prod.fst).Nodup)
    (h : (k, v) ∈ l) : find k l = some v := by
  induction l with
  | nil => simp at h
  | cons p rest ih =>
    obtain ⟨a, b⟩ := p
    rw [List.map_cons, List.nodup_cons] at hl
    rcases List.mem_cons.1 h with heq | hrest
    · obtain ⟨rfl, rfl⟩ := Prod.mk.inj heq
      exact if_pos rfl
    · have hne : a ≠ k := by
        rintro rfl
        exact hl.1 (List.mem_map.2 ⟨_, hrest, rfl⟩)
      rw [find, if_neg hne]
      exact ih hl.2 hrest

/-- Each key is found with the value that stands beside it. -/
theorem get?_of_mem {m : OrderedMap κ ν} {p : κ × ν} (h : p ∈ m.entries) :
    m.get? p.1 = some p.2 := find_of_mem m.nodup h

theorem mem_of_find {k : κ} {v : ν} {l : List (κ × ν)} (h : find k l = some v) :
    (k, v) ∈ l := by
  induction l with
  | nil => simp [find] at h
  | cons p rest ih =>
    obtain ⟨a, b⟩ := p
    by_cases ha : a = k
    · simp only [find, ha, if_true, Option.some.injEq] at h
      rw [ha, h]
      exact List.mem_cons_self
    · simp only [find, ha, if_false] at h
      exact List.mem_cons_of_mem _ (ih h)

theorem mem_of_get? {m : OrderedMap κ ν} {k : κ} {v : ν} (h : m.get? k = some v) :
    (k, v) ∈ m.entries := mem_of_find h

theorem get?_eq_some_iff {m : OrderedMap κ ν} {k : κ} {v : ν} :
    m.get? k = some v ↔ (k, v) ∈ m.entries := ⟨mem_of_get?, get?_of_mem⟩

theorem get?_eq_none_iff {m : OrderedMap κ ν} {k : κ} : m.get? k = none ↔ k ∉ m.keys := by
  simp [Option.eq_none_iff_forall_ne_some, get?_eq_some_iff, keys]

def insertAll (m : OrderedMap κ ν) (l : List (κ × ν)) : OrderedMap κ ν :=
  l.foldl (fun m p => m.insert p.1 p.2) m

theorem insertAll_cons (m : OrderedMap κ ν) (p : κ × ν) (l : List (κ × ν)) :
    m.insertAll (p :: l) = (m.insert p.1 p.2).insertAll l := rfl

theorem insertAll_append (m : OrderedMap κ ν) (l l' : List (κ × ν)) :
    m.insertAll (l ++ l') = (m.insertAll l).insertAll l' := List.foldl_append

theorem keys_insert (m : OrderedMap κ ν) (k : κ) (v : ν) :
    (m.insert k v).keys = if k ∈ m.keys then m.keys else m.keys ++ [k] := keys_put k v m.entries

/-- The old keys stay where they are, and the new ones come behind them in the order in which they
came first. -/
theorem keys_insertAll (m : OrderedMap κ ν) (l : List (κ × ν)) : (m.insertAll l).keys =
    m.keys ++ ((l.map Prod.fst).filter (· ∉ m.keys)).eraseDups := by
  induction l generalizing m with
  | nil => simp [insertAll]
  | cons p l ih =>
    rw [insertAll_cons, ih, keys_insert, List.map_cons]
    by_cases hp : p.1 ∈ m.keys
    · simp [hp]
    · rw [if_neg hp, List.filter_cons_of_pos (by simpa using hp), List.eraseDups_cons,
        List.filter_filter, List.append_assoc, List.singleton_append]
      congr 3
      refine List.filter_congr fun k _ => ?_
      by_cases hk : k = p.1 <;> simp [hk]

/-- Each key has the value that came last for it. -/
theorem get?_insertAll (m : OrderedMap κ ν) (l : List (κ × ν)) (k : κ) :
    (m.insertAll l).get? k = (l.reverse.lookup k).or (m.get? k) := by
  induction l generalizing m with
  | nil => rfl
  | cons p l ih =>
    obtain ⟨a, v⟩ := p
    rw [insertAll_cons, ih, get?_insert, List.reverse_cons, List.lookup_append, Option.or_assoc]
    by_cases hk : a = k
    · simp [hk]
    · have hk' : (k == a) = false := by simpa using Ne.symm hk
      simp [hk, hk', List.lookup_cons]

end ShiftReduce.OrderedMap
