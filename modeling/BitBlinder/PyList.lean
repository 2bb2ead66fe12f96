import BitBlinder.Basic

/-!
# Indexes of sequences

What Python makes of an index: a negative number counts from the end, and an index outside of the
sequence raises.
-/

namespace BitBlinder

set_option autoImplicit false

theorem PyExcept.error_ne_ok {α : Type} {e : PyError} {a : α} (h : (Except.error e : PyExcept α) = .ok a) : False := by
  cases h

namespace PyList

/-- The position that index `i` names in a sequence of `n` items. -/
def place (n : Nat) (i : Int) : Option Nat :=
  let k := if i < 0 then n + i else i
  if 0 ≤ k ∧ k < n then some k.toNat else none

theorem place_natCast {n k : Nat} : place n k = if k < n then some k else none := by
  have hk : (if (k : Int) < 0 then (n + k : Int) else k) = k := if_neg (by omega)
  unfold place
  dsimp only
  rw [hk, Int.toNat_natCast]
  by_cases h : k < n
  · rw [if_pos h, if_pos ⟨Int.natCast_nonneg k, by omega⟩]
  · rw [if_neg h, if_neg (by omega)]

theorem place_of_lt {n k : Nat} (h : k < n) : place n k = some k := place_natCast.trans (if_pos h)

end PyList

end BitBlinder
