import Mathlib.Data.List.Lattice
import Mathlib.Data.List.Nodup
import Mathlib.Logic.Function.Basic

/-!
# Links that are kept on both sides

A member knows its owner, and an owner has two lists of its members: those that are
active and those that wait. `Linked` says that the two sides agree. The two lists
play the same part, so each operation is stated for the active members only.
-/

namespace BitBlinder

set_option autoImplicit false

universe u v
variable {ι : Type u} {α : Type v}

structure Linked (active waiting : ι → List α) (owner : α → Option ι) : Prop where
  mem_iff : ∀ i x, x ∈ active i ∨ x ∈ waiting i ↔ owner x = some i
  disjoint : ∀ i, (active i).Disjoint (waiting i)
  nodup_active : ∀ i, (active i).Nodup
  nodup_waiting : ∀ i, (waiting i).Nodup

namespace Linked
variable {active waiting : ι → List α} {owner : α → Option ι}

theorem symm (h : Linked active waiting owner) : Linked waiting active owner where
  mem_iff := fun i x => or_comm.trans (h.mem_iff i x)
  disjoint := fun i => (h.disjoint i).symm
  nodup_active := h.nodup_waiting
  nodup_waiting := h.nodup_active

theorem unique (h : Linked active waiting owner) {i j : ι} {x : α} (hi : x ∈ active i ∨ x ∈ waiting i)
    (hj : x ∈ active j ∨ x ∈ waiting j) : i = j :=
  Option.some.inj (((h.mem_iff i x).mp hi).symm.trans ((h.mem_iff j x).mp hj))

theorem notMem (h : Linked active waiting owner) {x : α} (hx : owner x = none) (i : ι) :
    x ∉ active i ∧ x ∉ waiting i := by
  rw [← not_or, h.mem_iff, hx]
  exact Option.some_ne_none i ∘ Eq.symm

variable [DecidableEq ι]

/-- All members of an owner become active. -/
theorem activate (h : Linked active waiting owner) {i : ι} {members : List α} (hnodup : members.Nodup)
    (hmem : ∀ x, x ∈ members ↔ x ∈ active i ∨ x ∈ waiting i) :
    Linked (Function.update active i members) (Function.update waiting i []) owner where
  mem_iff := fun j x => by
    rw [Function.update_apply, Function.update_apply, ← h.mem_iff]
    split
    · rename_i hj
      rw [hj, hmem]
      simp
    · rfl
  disjoint := fun j => by
    rw [Function.update_apply, Function.update_apply]
    split
    · exact List.disjoint_nil_right members
    · exact h.disjoint j
  nodup_active := fun j => by
    rw [Function.update_apply]
    split
    · exact hnodup
    · exact h.nodup_active j
  nodup_waiting := fun j => by
    rw [Function.update_apply]
    split
    · exact List.nodup_nil
    · exact h.nodup_waiting j

/-- An owner's lists have its members and nothing twice. -/
theorem perm (h : Linked active waiting owner) {i : ι} {all : List α} (hnodup : all.Nodup)
    (hall : ∀ x, owner x = some i → x ∈ all) :
    (active i ++ waiting i).Perm (all.filter fun x => owner x = some i) := by
  refine (List.perm_ext_iff_of_nodup ?_ (hnodup.filter _)).mpr fun x => ?_
  · exact List.Nodup.append (h.nodup_active i) (h.nodup_waiting i) (h.disjoint i)
  · rw [List.mem_append, h.mem_iff, List.mem_filter, decide_eq_true_iff]
    exact ⟨fun howner => ⟨hall x howner, howner⟩, And.right⟩

variable [DecidableEq α]

/-- One without an owner becomes an active member. -/
theorem join (h : Linked active waiting owner) {x : α} (hx : owner x = none) (i : ι) :
    Linked (Function.update active i ((active i).insert x)) waiting (Function.update owner x (some i)) where
  mem_iff := fun j y => by
    rw [Function.update_apply, Function.update_apply]
    by_cases hj : j = i
    · subst hj
      rw [if_pos rfl, List.mem_insert_iff, or_assoc, h.mem_iff]
      by_cases hy : y = x
      · rw [if_pos hy]
        exact iff_of_true (Or.inl hy) rfl
      · rw [if_neg hy]
        exact or_iff_right hy
    · rw [if_neg hj, h.mem_iff]
      by_cases hy : y = x
      · rw [if_pos hy, hy, hx]
        refine iff_of_false (by simp) fun heq => hj (Option.some.inj heq).symm
      · rw [if_neg hy]
  disjoint := fun j => by
    rw [Function.update_apply]
    split
    · rename_i hj
      rw [hj]
      intro y hy hwait
      rcases List.mem_insert_iff.mp hy with rfl | hy
      · exact (h.notMem hx i).2 hwait
      · exact h.disjoint i hy hwait
    · exact h.disjoint j
  nodup_active := fun j => by
    rw [Function.update_apply]
    split
    · exact (h.nodup_active i).insert
    · exact h.nodup_active j
  nodup_waiting := h.nodup_waiting

/-- An active member loses its owner. -/
theorem leave (h : Linked active waiting owner) {i : ι} {x : α} (hx : x ∈ active i) :
    Linked (Function.update active i ((active i).erase x)) waiting (Function.update owner x none) where
  mem_iff := fun j y => by
    have howner := (h.mem_iff i x).mp (Or.inl hx)
    rw [Function.update_apply, Function.update_apply]
    by_cases hy : y = x
    · subst hy
      rw [if_pos rfl]
      refine iff_of_false (fun hmem => ?_) (by simp)
      by_cases hj : j = i
      · rw [if_pos hj, hj, (h.nodup_active i).mem_erase_iff] at hmem
        rcases hmem with hmem | hwait
        · exact hmem.1 rfl
        · exact h.disjoint i hx hwait
      · rw [if_neg hj] at hmem
        exact hj (h.unique hmem (Or.inl hx))
    · rw [if_neg hy, ← h.mem_iff]
      split
      · rename_i hj
        rw [hj, List.mem_erase_of_ne hy]
      · rfl
  disjoint := fun j => by
    rw [Function.update_apply]
    split
    · rename_i hj
      rw [hj]
      exact fun y hy hwait => h.disjoint i (List.mem_of_mem_erase hy) hwait
    · exact h.disjoint j
  nodup_active := fun j => by
    rw [Function.update_apply]
    split
    · exact (h.nodup_active i).erase x
    · exact h.nodup_active j
  nodup_waiting := h.nodup_waiting

end Linked

end BitBlinder
