import Mathlib.Data.List.Perm.Basic

/-!
# Interleavings of several sequences

At every step an interleaving takes the head of one of the sequences, so the
order within each sequence is kept and nothing else is.
-/

namespace BitBlinder

set_option autoImplicit false

universe u
variable {α : Type u}

inductive Interleaving : List (List α) → List α → Prop where
  | done {ls : List (List α)} : (∀ l ∈ ls, l = []) → Interleaving ls []
  | take {ls : List (List α)} {i : Nat} {a : α} {l as : List α} :
      ls[i]? = some (a :: l) → Interleaving (ls.set i l) as → Interleaving ls (a :: as)

theorem cons_flatten_set_perm {ls : List (List α)} {i : Nat} {a : α} {l : List α}
    (h : ls[i]? = some (a :: l)) : (a :: (ls.set i l).flatten).Perm ls.flatten := by
  induction ls generalizing i with
  | nil => simp at h
  | cons x xs ih =>
    cases i with
    | zero =>
      simp only [List.getElem?_cons_zero, Option.some.injEq] at h
      subst h
      exact List.Perm.refl _
    | succ i =>
      simp only [List.getElem?_cons_succ] at h
      simp only [List.set_cons_succ, List.flatten_cons]
      exact List.perm_middle.symm.trans ((ih h).append_left x)

theorem Interleaving.perm {ls : List (List α)} {as : List α} (h : Interleaving ls as) :
    as.Perm ls.flatten := by
  induction h with
  | done hnil =>
    have hflat : List.flatten _ = [] := List.flatten_eq_nil_iff.mpr hnil
    rw [hflat]
  | take hget _ ih => exact (ih.cons _).trans (cons_flatten_set_perm hget)

theorem Interleaving.cons_nil {ls : List (List α)} {as : List α} (h : Interleaving ls as) :
    Interleaving ([] :: ls) as := by
  induction h with
  | done hnil =>
    apply Interleaving.done
    intro l hl
    rcases List.mem_cons.mp hl with rfl | hl
    · rfl
    · exact hnil l hl
  | @take ls i a l as hget _ ih => exact Interleaving.take (i := i + 1) hget ih

/-- One sequence after the other is an interleaving. -/
theorem interleaving_flatten (ls : List (List α)) : Interleaving ls ls.flatten := by
  induction ls with
  | nil => exact .done (by simp)
  | cons l ls ih =>
    rw [List.flatten_cons]
    induction l with
    | nil => exact ih.cons_nil
    | cons a l ihl => exact Interleaving.take (i := 0) rfl ihl

end BitBlinder
