import Mathlib.Data.List.Infix

/-!
# The first place of a pattern

`find` of Python's strings, and what it becomes when the text is longer or when a part
that holds no match is taken from it.
-/

namespace BitBlinder.Search

set_option autoImplicit false

variable {α : Type} {pat s t : List α} {i : Nat}

/-- `s[-k:]`. -/
def lastItems (k : Nat) (s : List α) : List α := if k = 0 then s else s.drop (s.length - k)

theorem lastItems_length_le {k : Nat} : (lastItems k s).length ≤ s.length := by
  unfold lastItems
  split
  · exact Nat.le_refl _
  · simp

theorem lastItems_append {k : Nat} (hk : k ≠ 0) : lastItems k s ++ t = (s ++ t).drop (s.length - k) := by
  unfold lastItems
  rw [if_neg hk, List.drop_append_of_le_length (by omega)]

theorem lastItems_length {k : Nat} (hk : k ≠ 0) : (lastItems k s).length = min k s.length := by
  unfold lastItems
  rw [if_neg hk, List.length_drop]
  omega

/-- The last items may be taken when there is more. -/
theorem lastItems_lastItems {k : Nat} (hk : k ≠ 0) : lastItems k (lastItems k s ++ t) = lastItems k (s ++ t) := by
  rw [lastItems_append hk]
  unfold lastItems
  rw [if_neg hk, List.drop_drop, List.length_drop, List.length_append, if_neg hk]
  congr 1
  omega

/-- A match that lies in the first of two texts is one of it. -/
theorem prefix_drop_of_append {j : Nat} (hmatch : pat <+: (s ++ t).drop j) (hj : j + pat.length ≤ s.length) :
    pat <+: s.drop j := by
  rw [List.drop_append_of_le_length (by omega)] at hmatch
  exact List.prefix_of_prefix_length_le hmatch (List.prefix_append _ _) (by rw [List.length_drop]; omega)

variable [DecidableEq α]

/-- `s.find(pat)`. -/
def find (pat s : List α) : Option Nat := s.tails.findIdx? fun t => pat.isPrefixOf t

theorem find_eq_some_iff :
    find pat s = some i ↔ i ≤ s.length ∧ pat <+: s.drop i ∧ ∀ j < i, ¬ pat <+: s.drop j := by
  unfold find
  rw [List.findIdx?_eq_some_iff_getElem]
  constructor
  · rintro ⟨hi, hmatch, hfirst⟩
    rw [List.getElem_tails, List.isPrefixOf_iff_prefix] at hmatch
    rw [List.length_tails] at hi
    refine ⟨by omega, hmatch, fun j hj hprefix => ?_⟩
    have hno := hfirst j hj
    rw [List.getElem_tails, List.isPrefixOf_iff_prefix] at hno
    exact hno hprefix
  · rintro ⟨hi, hmatch, hfirst⟩
    refine ⟨by rw [List.length_tails]; omega, ?_, fun j hj => ?_⟩
    · rwa [List.getElem_tails, List.isPrefixOf_iff_prefix]
    · rw [List.getElem_tails, List.isPrefixOf_iff_prefix]
      exact hfirst j hj

theorem find_eq_none_iff : find pat s = none ↔ ∀ j ≤ s.length, ¬ pat <+: s.drop j := by
  unfold find
  rw [List.findIdx?_eq_none_iff]
  constructor
  · intro h j hj hprefix
    have hno := h (s.drop j) ((List.mem_tails _ _).mpr (List.drop_suffix j s))
    rw [← List.isPrefixOf_iff_prefix, hno] at hprefix
    exact Bool.false_ne_true hprefix
  · intro h u hu
    obtain ⟨v, rfl⟩ := (List.mem_tails _ _).mp hu
    have hno := h v.length (by simp)
    rw [List.drop_left, ← List.isPrefixOf_iff_prefix] at hno
    exact Bool.eq_false_iff.mpr hno

theorem find_bound (h : find pat s = some i) : i + pat.length ≤ s.length := by
  rw [find_eq_some_iff] at h
  have hlength := h.2.1.length_le
  rw [List.length_drop] at hlength
  omega

theorem find_short (h : s.length < pat.length) : find pat s = none := by
  rw [find_eq_none_iff]
  intro j _ hmatch
  have hlength := hmatch.length_le
  rw [List.length_drop] at hlength
  omega

theorem find_self_append : find pat (pat ++ t) = some 0 := by
  rw [find_eq_some_iff]
  exact ⟨Nat.zero_le _, List.prefix_append _ _, fun _ hj => absurd hj (Nat.not_lt_zero _)⟩

theorem find_append (h : find pat s = some i) (t : List α) : find pat (s ++ t) = some i := by
  have hbound := find_bound h
  rw [find_eq_some_iff] at h ⊢
  obtain ⟨hi, hmatch, hfirst⟩ := h
  refine ⟨by rw [List.length_append]; omega, ?_, fun j hj hprefix => ?_⟩
  · rw [List.drop_append_of_le_length hi]
    exact hmatch.trans (List.prefix_append _ _)
  · exact hfirst j hj (prefix_drop_of_append hprefix (by omega))

theorem find_of_append (h : find pat (s ++ t) = some i) (hi : i + pat.length ≤ s.length) : find pat s = some i := by
  cases hfind : find pat s with
  | none =>
    rw [find_eq_some_iff] at h
    rw [find_eq_none_iff] at hfind
    exact absurd (prefix_drop_of_append h.2.1 hi) (hfind i (by omega))
  | some j => rw [← h, find_append hfind t]

/-- The beginning of a text may be left when no match starts there. -/
theorem find_drop {k : Nat} (hk : k ≤ s.length) (hno : ∀ j < k, ¬ pat <+: s.drop j) :
    find pat s = (find pat (s.drop k)).map (· + k) := by
  cases hrest : find pat (s.drop k) with
  | none =>
    rw [find_eq_none_iff] at hrest
    rw [Option.map_none, find_eq_none_iff]
    intro j hj
    by_cases hjk : j < k
    · exact hno j hjk
    · have hlate := hrest (j - k) (by rw [List.length_drop]; omega)
      rwa [List.drop_drop, Nat.add_sub_cancel' (by omega)] at hlate
  | some i =>
    obtain ⟨hi, hmatch, hfirst⟩ : i ≤ (s.drop k).length ∧ pat <+: (s.drop k).drop i ∧
        ∀ j < i, ¬pat <+: (s.drop k).drop j := by
      rwa [find_eq_some_iff] at hrest
    rw [List.length_drop] at hi
    rw [List.drop_drop, Nat.add_comm] at hmatch
    rw [Option.map_some, find_eq_some_iff]
    refine ⟨by omega, hmatch, fun j hj => ?_⟩
    by_cases hjk : j < k
    · exact hno j hjk
    · have hlate := hfirst (j - k) (by omega)
      rwa [List.drop_drop, Nat.add_sub_cancel' (by omega)] at hlate

/-- Less than a pattern is enough of what was searched. -/
theorem find_lastItems (hpat : 1 < pat.length) (hnone : find pat s = none) (t : List α) :
    find pat (s ++ t) =
      (find pat (lastItems (pat.length - 1) s ++ t)).map (· + (s.length - (pat.length - 1))) := by
  rw [find_eq_none_iff] at hnone
  rw [lastItems_append (by omega)]
  refine find_drop (by rw [List.length_append]; omega) fun j hj hmatch => ?_
  exact hnone j (by omega) (prefix_drop_of_append hmatch (by omega))

end BitBlinder.Search
