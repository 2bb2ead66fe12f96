import Mathlib.Algebra.BigOperators.Group.List.Basic
import Mathlib.Algebra.Ring.Nat
import Mathlib.Data.List.Nodup
import Mathlib.Data.List.Perm.Basic

/-!
# A whole whose parts are handed out

Each part of a whole is free, out or done: `Shared` says that the three lists together are the
whole, and is kept when a part is taken, given back or done.
-/

namespace BitBlinder.Shares

set_option autoImplicit false

universe u

variable {α : Type u} {whole free free' out done : List α} {a : α}

def Shared (whole free out done : List α) : Prop := (free ++ out ++ done).Perm whole

namespace Shared

theorem all (whole : List α) : Shared whole whole [] [] := by
  unfold Shared
  rw [List.append_nil, List.append_nil]

theorem perm_out (h : Shared whole free out done) {out' : List α} (hperm : out'.Perm out) :
    Shared whole free out' done := ((hperm.append_left free).append_right done).trans h

theorem perm_free (h : Shared whole free out done) (hperm : free'.Perm free) : Shared whole free' out done :=
  ((hperm.append_right out).append_right done).trans h

theorem take (h : Shared whole (a :: free) out done) : Shared whole free (a :: out) done := by
  have hmid : (free ++ a :: out).Perm (a :: free ++ out) := List.perm_middle
  exact (hmid.append_right done).trans h

theorem giveBack (h : Shared whole free (a :: out) done) : Shared whole (a :: free) out done := by
  have hmid : (a :: free ++ out).Perm (free ++ a :: out) := List.perm_middle.symm
  exact (hmid.append_right done).trans h

theorem settle (h : Shared whole free (a :: out) done) : Shared whole free out (done ++ [a]) := by
  unfold Shared at h ⊢
  refine List.Perm.trans ?_ h
  have hmid : (free ++ a :: out).Perm (a :: (free ++ out)) := List.perm_middle
  have hlast : (free ++ out ++ (done ++ [a])).Perm (a :: (free ++ out ++ done)) := by
    rw [← List.append_assoc]
    exact List.perm_append_singleton a _
  exact hlast.trans (hmid.append_right done).symm

theorem nodup (h : Shared whole free out done) (hw : whole.Nodup) : (free ++ out ++ done).Nodup :=
  h.nodup_iff.mpr hw

theorem mem_whole (h : Shared whole free out done) (ha : a ∈ out) : a ∈ whole :=
  h.mem_iff.mp (List.mem_append_left done (List.mem_append_right free ha))

theorem not_free (h : Shared whole free out done) (hw : whole.Nodup) (ha : a ∈ out) : a ∉ free := fun hfree =>
  List.disjoint_of_nodup_append (List.nodup_append.mp (h.nodup hw)).1 hfree ha

theorem out_nodup (h : Shared whole free out done) (hw : whole.Nodup) : out.Nodup :=
  (List.nodup_append.mp (List.nodup_append.mp (h.nodup hw)).1).2.1

theorem sum (h : Shared whole free out done) (f : α → Nat) :
    (free.map f).sum + (out.map f).sum + (done.map f).sum = (whole.map f).sum := by
  rw [← (h.map f).sum_eq, List.map_append, List.map_append, List.sum_append, List.sum_append]

end Shared

end BitBlinder.Shares
