import Mathlib.Data.List.Nodup
import Mathlib.Data.List.Range

/-!
# Positions in a list of tiers

The entries of a list of lists in the order of their tiers. `following` goes from one
position to the next; it may lead to the begin of an empty tier, which is then no
position of the list.
-/

namespace BitBlinder.Tiers

set_option autoImplicit false

universe u
variable {α : Type u}

def row (t n : Nat) : List (Nat × Nat) := (List.range n).map fun i => (t, i)

def width (l : List (List α)) (t : Nat) : Nat := (l.getD t []).length

def before (l : List (List α)) (p : Nat × Nat) : List (Nat × Nat) :=
  ((List.range p.1).flatMap fun t => row t (width l t)) ++ row p.1 p.2

def positions (l : List (List α)) : List (Nat × Nat) := before l (l.length, 0)

def following (l : List (List α)) (p : Nat × Nat) : Option (Nat × Nat) :=
  if p.2 + 1 = width l p.1 then
    if p.1 + 1 = l.length then none else some (p.1 + 1, 0)
  else some (p.1, p.2 + 1)

def get? (l : List (List α)) (p : Nat × Nat) : Option α := (l.getD p.1 [])[p.2]?

variable {l : List (List α)} {p q : Nat × Nat}

theorem row_succ (t n : Nat) : row t (n + 1) = row t n ++ [(t, n)] := by
  simp [row, List.range_succ]

theorem mem_row {t n : Nat} : p ∈ row t n ↔ p.1 = t ∧ p.2 < n := by
  obtain ⟨s, i⟩ := p
  simp [row, eq_comm, and_comm]

theorem before_succ (t i : Nat) : before l (t, i + 1) = before l (t, i) ++ [(t, i)] := by
  simp [before, row_succ]

theorem before_tier (t : Nat) : before l (t + 1, 0) = before l (t, width l t) := by
  simp [before, List.range_succ, row]

theorem mem_before : p ∈ before l q ↔ p.1 < q.1 ∧ p.2 < width l p.1 ∨ p.1 = q.1 ∧ p.2 < q.2 := by
  simp only [before, List.mem_append, List.mem_flatMap, List.mem_range, mem_row]
  constructor
  · rintro (⟨t, ht, rfl, hi⟩ | h)
    · exact .inl ⟨ht, hi⟩
    · exact .inr h
  · rintro (⟨ht, hi⟩ | h)
    · exact .inl ⟨p.1, ht, rfl, hi⟩
    · exact .inr h

theorem lt_length_of_width {t : Nat} (h : 0 < width l t) : t < l.length := by
  by_contra hge
  have hnil : l.getD t [] = [] := by simp [List.getD, List.getElem?_eq_none (Nat.le_of_not_lt hge)]
  rw [width, hnil] at h
  exact Nat.lt_irrefl 0 h

theorem mem_positions : p ∈ positions l ↔ p.2 < width l p.1 := by
  rw [positions, mem_before]
  constructor
  · rintro (⟨-, hi⟩ | ⟨-, hi⟩)
    · exact hi
    · exact absurd hi (Nat.not_lt_zero _)
  · intro h
    exact .inl ⟨lt_length_of_width (Nat.lt_of_le_of_lt (Nat.zero_le _) h), h⟩

theorem mem_positions_of_get? {a : α} (h : get? l p = some a) : p ∈ positions l :=
  mem_positions.mpr (List.getElem?_eq_some_iff.mp h).1

theorem before_prefix_tier {t i : Nat} (hi : i ≤ width l t) : before l (t, i) <+: before l (t + 1, 0) := by
  rw [before_tier]
  simp only [before, List.prefix_append_right_inj]
  obtain ⟨k, hk⟩ := Nat.exists_eq_add_of_le hi
  rw [row, row, hk, List.range_add, List.map_append]
  exact List.prefix_append _ _

theorem before_prefix_positions {t i : Nat} (ht : t < l.length) (hi : i ≤ width l t) :
    before l (t, i) <+: positions l := by
  have htiers : ∀ n, before l (t + 1, 0) <+: before l (t + 1 + n, 0) := by
    intro n
    induction n with
    | zero => exact List.prefix_rfl
    | succ n ih => exact ih.trans (before_prefix_tier (Nat.zero_le _))
  obtain ⟨k, hk⟩ := Nat.exists_eq_add_of_le (Nat.succ_le_of_lt ht)
  rw [positions, hk]
  exact (before_prefix_tier hi).trans (htiers k)

/-- What comes before the next position comes before this one, or is it. -/
theorem before_following (h : following l p = some q) : before l q = before l p ++ [p] := by
  obtain ⟨t, i⟩ := p
  unfold following at h
  split at h
  case isTrue hlast =>
    obtain ⟨-, ⟨⟩⟩ := Option.ite_none_left_eq_some.mp h
    rw [before_tier, ← hlast, before_succ]
  case isFalse =>
    obtain rfl := Option.some.inj h
    exact before_succ t i

theorem following_lt_length (hp : p ∈ positions l) (h : following l p = some q) :
    q.1 < l.length ∧ q.2 ≤ width l q.1 := by
  have hi := mem_positions.mp hp
  have ht := lt_length_of_width (Nat.lt_of_le_of_lt (Nat.zero_le _) hi)
  unfold following at h
  split at h
  case isTrue hlast =>
    obtain ⟨hne, ⟨⟩⟩ := Option.ite_none_left_eq_some.mp h
    exact ⟨Nat.lt_of_le_of_ne ht hne, Nat.zero_le _⟩
  case isFalse =>
    obtain rfl := Option.some.inj h
    exact ⟨ht, hi⟩

theorem prefix_of_following (hp : p ∈ positions l) (h : following l p = some q) : before l q <+: positions l := by
  obtain ⟨ht, hi⟩ := following_lt_length hp h
  exact before_prefix_positions ht hi

theorem prefix_of_mem (hp : p ∈ positions l) : before l p ++ [p] <+: positions l := by
  obtain ⟨t, i⟩ := p
  have hi := mem_positions.mp hp
  rw [← before_succ]
  exact before_prefix_positions (lt_length_of_width (Nat.lt_of_le_of_lt (Nat.zero_le _) hi)) hi

theorem nodup_before (p : Nat × Nat) : (before l p).Nodup := by
  have hrow (t n) : (row t n).Nodup := List.nodup_range.map fun i j h => (Prod.mk.inj h).2
  refine List.Nodup.append ?_ (hrow p.1 p.2) ?_
  · refine List.nodup_flatMap.mpr ⟨fun t _ => hrow t _, List.nodup_range.imp ?_⟩
    intro s t hst x hs ht
    exact hst ((mem_row.mp hs).1.symm.trans (mem_row.mp ht).1)
  · intro x hx hrow
    obtain ⟨t, ht, hx⟩ := List.mem_flatMap.mp hx
    have hlt := List.mem_range.mp ht
    have heq : t = p.1 := (mem_row.mp hx).1.symm.trans (mem_row.mp hrow).1
    omega

theorem nodup_positions (l : List (List α)) : (positions l).Nodup := nodup_before _

end BitBlinder.Tiers
