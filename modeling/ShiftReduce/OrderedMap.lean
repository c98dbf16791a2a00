namespace ShiftReduce

/-- Pairs in the order in which their keys first came, each key once. -/
structure OrderedMap (κ ν : Type) where
  entries : List (κ × ν) := []
  nodup : (entries.map Prod.fst).Nodup := by simp

namespace OrderedMap

variable {κ ν : Type}

def empty : OrderedMap κ ν := {}

variable [DecidableEq κ]

/-- A known key keeps its place and takes the new value; a new one goes to the end. -/
def put (k : κ) (v : ν) : List (κ × ν) → List (κ × ν)
  | [] => [(k, v)]
  | (a, b) :: rest => if a = k then (a, v) :: rest else (a, b) :: put k v rest

def find (k : κ) : List (κ × ν) → Option ν
  | [] => none
  | (a, b) :: rest => if a = k then some b else find k rest

theorem keys_put (k : κ) (v : ν) (l : List (κ × ν)) :
    (put k v l).map Prod.fst =
      if k ∈ l.map Prod.fst then l.map Prod.fst else l.map Prod.fst ++ [k] := by
  induction l with
  | nil => simp [put]
  | cons p rest ih =>
    obtain ⟨a, b⟩ := p
    by_cases h : a = k
    · simp [put, h]
    · have h' : ¬ k = a := fun e => h e.symm
      simp only [put, h, if_false, List.map_cons, List.mem_cons, h', false_or, ih]
      split <;> simp

theorem nodup_keys_put (k : κ) (v : ν) {l : List (κ × ν)} (h : (l.map Prod.fst).Nodup) :
    ((put k v l).map Prod.fst).Nodup := by
  rw [keys_put]
  split
  · exact h
  · rename_i hk
    refine List.nodup_append.2 ⟨h, by simp, ?_⟩
    intro a ha b hb e
    rw [List.mem_singleton.1 hb] at e
    exact hk (e ▸ ha)

def insert (m : OrderedMap κ ν) (k : κ) (v : ν) : OrderedMap κ ν where
  entries := put k v m.entries
  nodup := nodup_keys_put k v m.nodup

def get? (m : OrderedMap κ ν) (k : κ) : Option ν := find k m.entries

theorem find_put (k a : κ) (v : ν) (l : List (κ × ν)) :
    find a (put k v l) = if k = a then some v else find a l := by
  induction l with
  | nil => rfl
  | cons p rest ih =>
    obtain ⟨b, w⟩ := p
    by_cases hb : b = k
    · by_cases ha : k = a <;> simp [put, find, hb, ha]
    · by_cases hab : b = a
      · subst hab
        have ha : ¬k = b := fun e => hb e.symm
        simp [put, find, hb, ha]
      · simp [put, find, hb, hab, ih]

@[simp] theorem get?_insert (m : OrderedMap κ ν) (k a : κ) (v : ν) :
    (m.insert k v).get? a = if k = a then some v else m.get? a :=
  find_put k a v m.entries

def size (m : OrderedMap κ ν) : Nat := m.entries.length

def isEmpty (m : OrderedMap κ ν) : Bool := m.entries.isEmpty

def ofList (l : List (κ × ν)) : OrderedMap κ ν := l.foldl (fun m p => m.insert p.1 p.2) empty

end OrderedMap

end ShiftReduce
