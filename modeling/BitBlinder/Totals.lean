import Mathlib.Algebra.BigOperators.Group.List.Basic

/-!
# Totals by key

Entries with a key and an amount are posted to rows, of which each has the total of a
key: a row that is there is added to, and else a new one is made. From no rows at all,
posting leads to exactly one row for each key that occurs.
-/

namespace BitBlinder.Totals

set_option autoImplicit false

universe u v
variable {κ : Type u} {M : Type v} [DecidableEq κ]

def rowsOf (key : κ) (rows : List (κ × M)) : List (κ × M) := rows.filter fun r => r.1 = key

theorem rowsOf_append (key : κ) (rows rows' : List (κ × M)) :
    rowsOf key (rows ++ rows') = rowsOf key rows ++ rowsOf key rows' := List.filter_append ..

theorem rowsOf_singleton_self (key : κ) (amount : M) : rowsOf key [(key, amount)] = [(key, amount)] :=
  List.filter_cons_of_pos (decide_eq_true rfl)

theorem rowsOf_singleton_of_ne {key key' : κ} (h : key' ≠ key) (amount : M) : rowsOf key [(key', amount)] = [] :=
  List.filter_cons_of_neg (by simpa using h)

theorem rowsOf_eq_nil_iff {key : κ} {rows : List (κ × M)} : rowsOf key rows = [] ↔ key ∉ rows.map Prod.fst := by
  unfold rowsOf
  rw [List.filter_eq_nil_iff]
  constructor
  · intro h hmem
    obtain ⟨r, hr, hkey⟩ := List.mem_map.mp hmem
    exact h r hr (decide_eq_true hkey)
  · intro h r hr hkey
    exact h (List.mem_map.mpr ⟨r, hr, of_decide_eq_true hkey⟩)

variable [AddMonoid M]

def total (key : κ) (entries : List (κ × M)) : M := ((rowsOf key entries).map Prod.snd).sum

def addTo (key : κ) (amount : M) (rows : List (κ × M)) : List (κ × M) :=
  rows.map fun r => if r.1 = key then (r.1, r.2 + amount) else r

def post (key : κ) (amount : M) (rows : List (κ × M)) : List (κ × M) :=
  if rowsOf key rows = [] then rows ++ [(key, amount)] else addTo key amount rows

/-- Each key of an entry has one row, with its total, and there are no other rows. -/
def Summarises (entries rows : List (κ × M)) : Prop :=
  ∀ key, rowsOf key rows = if key ∈ entries.map Prod.fst then [(key, total key entries)] else []

theorem rowsOf_addTo (key key' : κ) (amount : M) (rows : List (κ × M)) :
    rowsOf key (addTo key' amount rows) = addTo key' amount (rowsOf key rows) := by
  unfold rowsOf addTo
  rw [List.filter_map]
  congr 1
  apply List.filter_congr
  intro r _
  rw [Function.comp_apply]
  split <;> rfl

theorem addTo_rowsOf_of_ne {key key' : κ} (h : key ≠ key') (amount : M) (rows : List (κ × M)) :
    addTo key' amount (rowsOf key rows) = rowsOf key rows := by
  refine (List.map_congr_left fun r hr => if_neg ?_).trans (List.map_id _)
  have hkey : r.1 = key := of_decide_eq_true (List.mem_filter.mp hr).2
  exact fun heq => h (hkey.symm.trans heq)

theorem total_append_self (key : κ) (amount : M) (entries : List (κ × M)) :
    total key (entries ++ [(key, amount)]) = total key entries + amount := by
  unfold total
  rw [rowsOf_append, rowsOf_singleton_self, List.map_append, List.sum_append, List.map_singleton, List.sum_singleton]

theorem total_append_of_ne {key key' : κ} (h : key' ≠ key) (amount : M) (entries : List (κ × M)) :
    total key (entries ++ [(key', amount)]) = total key entries := by
  unfold total
  rw [rowsOf_append, rowsOf_singleton_of_ne h, List.append_nil]

theorem total_of_not_mem {key : κ} {entries : List (κ × M)} (h : key ∉ entries.map Prod.fst) : total key entries = 0 := by
  unfold total
  rw [rowsOf_eq_nil_iff.mpr h]
  rfl

namespace Summarises
variable {entries rows : List (κ × M)}

theorem nil : Summarises ([] : List (κ × M)) [] := fun _ => rfl

theorem rowsOf_nil_iff (h : Summarises entries rows) (key : κ) : rowsOf key rows = [] ↔ key ∉ entries.map Prod.fst := by
  rw [h key]
  split
  · rename_i hmem
    exact ⟨fun heq => absurd heq (List.cons_ne_nil _ _), fun hnot => absurd hmem hnot⟩
  · rename_i hnot
    exact ⟨fun _ => hnot, fun _ => rfl⟩

theorem rowsOf_of_mem (h : Summarises entries rows) {key : κ} (hmem : key ∈ entries.map Prod.fst) :
    rowsOf key rows = [(key, total key entries)] := (h key).trans (if_pos hmem)

/-- Where a key has a row, it has exactly one. -/
theorem length_rowsOf (h : Summarises entries rows) {key : κ} (hne : rowsOf key rows ≠ []) :
    (rowsOf key rows).length = 1 := by
  rw [h.rowsOf_of_mem (by_contra fun hnot => hne ((h.rowsOf_nil_iff key).mpr hnot))]
  rfl

/-- A row is the row of a key that occurs. -/
theorem mem_row (h : Summarises entries rows) {r : κ × M} (hr : r ∈ rows) :
    r.1 ∈ entries.map Prod.fst ∧ r.2 = total r.1 entries := by
  have hmem : r ∈ rowsOf r.1 rows := List.mem_filter.mpr ⟨hr, decide_eq_true rfl⟩
  have hkey : r.1 ∈ entries.map Prod.fst := by
    by_contra hnot
    rw [(h.rowsOf_nil_iff r.1).mpr hnot] at hmem
    cases hmem
  rw [h.rowsOf_of_mem hkey] at hmem
  exact ⟨hkey, congrArg Prod.snd (List.mem_singleton.mp hmem)⟩

theorem post (h : Summarises entries rows) (key : κ) (amount : M) :
    Summarises (entries ++ [(key, amount)]) (post key amount rows) := by
  intro other
  have hkeys : (entries ++ [(key, amount)]).map Prod.fst = entries.map Prod.fst ++ [key] := by
    rw [List.map_append]
    rfl
  unfold Totals.post
  rw [hkeys]
  by_cases hother : other = key
  · subst hother
    have hmem : other ∈ entries.map Prod.fst ++ [other] := List.mem_append_right _ (List.mem_singleton.mpr rfl)
    rw [if_pos hmem, total_append_self]
    split
    · rename_i hnone
      rw [rowsOf_append, hnone, rowsOf_singleton_self, total_of_not_mem ((h.rowsOf_nil_iff other).mp hnone), zero_add]
      rfl
    · rename_i hsome
      have hold : other ∈ entries.map Prod.fst := by_contra fun hnot => hsome ((h.rowsOf_nil_iff other).mpr hnot)
      rw [rowsOf_addTo, h.rowsOf_of_mem hold]
      unfold addTo
      rw [List.map_singleton, if_pos rfl]
  · have hmem : other ∈ entries.map Prod.fst ++ [key] ↔ other ∈ entries.map Prod.fst := by
      rw [List.mem_append, List.mem_singleton]
      exact ⟨fun hor => hor.resolve_right hother, Or.inl⟩
    have hrows : rowsOf other (if rowsOf key rows = [] then rows ++ [(key, amount)] else addTo key amount rows) =
        rowsOf other rows := by
      split
      · rw [rowsOf_append, rowsOf_singleton_of_ne (Ne.symm hother), List.append_nil]
      · rw [rowsOf_addTo, addTo_rowsOf_of_ne hother]
    rw [hrows, h other, total_append_of_ne (Ne.symm hother)]
    simp only [hmem]

end Summarises

end BitBlinder.Totals
