/-!
# Places in lists

A place says where in a list something stands: counted from the start, or, below zero, from the end.
In a list of a given length it stands for at most one index (`Place.index?`).
-/

namespace ModelProvision

/-- A place in a list. -/
abbrev Place := Int

namespace Place

/-- The index that a place stands for in a list of that length. -/
def index? (place : Place) (length : Nat) : Option (Fin length) :=
  let fromStart := if place < 0 then place + length else place
  if h : 0 ≤ fromStart ∧ fromStart < length then some ⟨fromStart.toNat, (Int.toNat_lt h.1).2 h.2⟩
  else none

theorem index?_natCast {i length : Nat} (h : i < length) :
    index? (i : Int) length = some ⟨i, h⟩ := by
  have hsign : ¬ (i : Int) < 0 := by omega
  have hrange : 0 ≤ (i : Int) ∧ (i : Int) < length := by omega
  simp only [index?, if_neg hsign, dif_pos hrange, Int.toNat_natCast]

end Place

end ModelProvision
