namespace ShiftReduce.Calculator.Checked

def ofInt? (n : Int) : Option Int64 :=
  if Int64.minValue.toInt ≤ n ∧ n ≤ Int64.maxValue.toInt then some (Int64.ofInt n) else none

/-- A result is found if and only if it is in range. -/
theorem ofInt?_eq_some {k : Int} {n : Int64} : ofInt? k = some n ↔ n.toInt = k := by
  have hmin : Int64.minValue.toInt = -2 ^ 63 := rfl
  have hmax : Int64.maxValue.toInt = 2 ^ 63 - 1 := rfl
  unfold ofInt?
  constructor
  · intro h
    split at h
    · rename_i hk
      rw [← Option.some.inj h]
      exact Int64.toInt_ofInt_of_le (by omega) (by omega)
    · simp at h
  · rintro rfl
    have hlo := n.le_toInt
    have hhi := n.toInt_lt
    rw [if_pos (by omega), Int64.ofInt_toInt]

def add (a b : Int64) : Option Int64 := ofInt? (a.toInt + b.toInt)

def sub (a b : Int64) : Option Int64 := ofInt? (a.toInt - b.toInt)

def mul (a b : Int64) : Option Int64 := ofInt? (a.toInt * b.toInt)

/-- Quotients are rounded toward zero. -/
def div (a b : Int64) : Option Int64 :=
  if b = 0 then none else ofInt? (a.toInt.tdiv b.toInt)

def neg (a : Int64) : Option Int64 := ofInt? (-a.toInt)

end ShiftReduce.Calculator.Checked
