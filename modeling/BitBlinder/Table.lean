import Mathlib.Algebra.BigOperators.Group.List.Basic
import Mathlib.Algebra.Order.Ring.Int
import Mathlib.Data.List.Nodup

/-!
# Database tables with a primary key

`select` and `update` are the two statements
`SELECT … WHERE key = k` and `UPDATE … SET … WHERE key = k`, each atomic.
A statement on a key without a row reads nothing and changes nothing.
-/

namespace BitBlinder

set_option autoImplicit false

universe u v

structure Table (κ : Type u) (ν : Type v) where
  rows : List (κ × ν)
  nodup : (rows.map Prod.fst).Nodup

namespace Table
variable {κ : Type u} {ν : Type v} [DecidableEq κ]

def select (t : Table κ ν) (k : κ) : List ν :=
  (t.rows.filter fun r => r.1 = k).map Prod.snd

def updateRows (rows : List (κ × ν)) (k : κ) (f : ν → ν) : List (κ × ν) :=
  rows.map fun r => if r.1 = k then (r.1, f r.2) else r

theorem updateRows_keys (rows : List (κ × ν)) (k : κ) (f : ν → ν) :
    (updateRows rows k f).map Prod.fst = rows.map Prod.fst := by
  simp only [updateRows, List.map_map]
  apply List.map_congr_left
  intro r _
  simp only [Function.comp_apply]
  split <;> rfl

def update (t : Table κ ν) (k : κ) (f : ν → ν) : Table κ ν where
  rows := updateRows t.rows k f
  nodup := by
    rw [updateRows_keys]
    exact t.nodup

/-- `INSERT` fails on a key that has a row. -/
def insert (t : Table κ ν) (k : κ) (v : ν) : Option (Table κ ν) :=
  if h : k ∈ t.rows.map Prod.fst then
    none
  else
    some
      { rows := t.rows ++ [(k, v)]
        nodup := by
          rw [List.map_append]
          refine t.nodup.append (List.nodup_singleton k) ?_
          intro x hx hk
          rw [List.mem_singleton.mp hk] at hx
          exact h hx }

theorem mem_select {t : Table κ ν} {k : κ} {v : ν} : v ∈ t.select k ↔ (k, v) ∈ t.rows := by
  simp [select]

theorem mem_select_insert {t t' : Table κ ν} {k k' : κ} {v v' : ν} (h : t.insert k v = some t')
    (hv' : v' ∈ t'.select k') : v' ∈ t.select k' ∨ (k' = k ∧ v' = v) := by
  rw [mem_select] at hv' ⊢
  unfold insert at h
  split at h
  · cases h
  · cases h
    rcases List.mem_append.mp hv' with hold | hnew
    · exact Or.inl hold
    · exact Or.inr (by simpa using hnew)

theorem mem_select_update {t : Table κ ν} {k k' : κ} {f : ν → ν} {v' : ν}
    (hv' : v' ∈ (t.update k f).select k') :
    (k' ≠ k ∧ v' ∈ t.select k') ∨ (k' = k ∧ ∃ v ∈ t.select k, v' = f v) := by
  rw [mem_select] at hv' ⊢
  obtain ⟨r, hr, hrk⟩ := List.mem_map.mp hv'
  by_cases hk : r.1 = k
  · simp only [hk, ↓reduceIte, Prod.mk.injEq] at hrk
    refine Or.inr ⟨hrk.1.symm, r.2, ?_, hrk.2.symm⟩
    rw [mem_select, ← hk]
    exact hr
  · simp only [hk, ↓reduceIte] at hrk
    subst hrk
    exact Or.inl ⟨hk, hr⟩

theorem select_update (t : Table κ ν) (k : κ) (f : ν → ν) : (t.update k f).select k = (t.select k).map f := by
  obtain ⟨rows, hrows⟩ := t
  simp only [select, update, updateRows]
  clear hrows
  induction rows with
  | nil => rfl
  | cons r rows ih =>
    by_cases hk : r.1 = k
    · simp [hk, ih]
    · simp [hk, ih]

/-- A key has at most one row. -/
theorem select_eq_nil_or (t : Table κ ν) (k : κ) : t.select k = [] ∨ ∃ v, t.select k = [v] := by
  rcases hrows : t.select k with _ | ⟨v, _ | ⟨v', rest⟩⟩
  · exact .inl rfl
  · exact .inr ⟨v, rfl⟩
  · -- Two rows of one key would be the same key twice.
    have hkeys : (t.rows.filter fun r => r.1 = k).map Prod.fst = List.replicate (t.select k).length k := by
      refine List.eq_replicate_iff.mpr ⟨by simp [select], fun k' hk' => ?_⟩
      obtain ⟨r, hr, rfl⟩ := List.mem_map.mp hk'
      simpa using (List.mem_filter.mp hr).2
    have hnodup : ((t.rows.filter fun r => r.1 = k).map Prod.fst).Nodup :=
      t.nodup.sublist (List.filter_sublist.map _)
    rw [hkeys, hrows] at hnodup
    simp at hnodup

/-- The sum of a numeric column. -/
def total (t : Table κ Int) : Int := (t.rows.map Prod.snd).sum

theorem total_update (t : Table κ Int) (k : κ) (f : Int → Int) :
    (t.update k f).total = t.total + ((t.select k).map fun v => f v - v).sum := by
  obtain ⟨rows, hrows⟩ := t
  simp only [total, select, update, updateRows]
  clear hrows
  induction rows with
  | nil => rfl
  | cons r rows ih =>
    by_cases hk : r.1 = k
    · simp only [hk, List.map_cons, ↓reduceIte, List.sum_cons, decide_true, List.filter_cons_of_pos]
      omega
    · simp only [hk, List.map_cons, ↓reduceIte, List.sum_cons, decide_false, Bool.false_eq_true,
        not_false_eq_true, List.filter_cons_of_neg]
      omega

end Table

end BitBlinder
