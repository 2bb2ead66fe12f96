import Mathlib.Algebra.BigOperators.Group.List.Basic
import Mathlib.Algebra.Ring.Nat
import Mathlib.Data.List.Nodup
import Mathlib.Data.List.Perm.Basic

/-!
# Cutting a length into ranges

A range is a position and a length. `parts` cuts a length into ranges of one size and a last
one, `Tiles` says of a list of ranges that it covers a length with no gap and no overlap, and
data written range by range is known once each range of a tiling is.
-/

namespace BitBlinder.Tiling

set_option autoImplicit false

universe u

/-- The ranges of `length` from position `x` on; `fuel` bounds their number. -/
def partsFrom (size length : Nat) : Nat → Nat → List (Nat × Nat)
  | 0, x => [(x, length - x)]
  | fuel + 1, x =>
    if x + size < length then (x, size) :: partsFrom size length fuel (x + size) else [(x, length - x)]

def parts (size length : Nat) : List (Nat × Nat) := partsFrom size length length 0

/-- The ranges follow on each other from `x` to `y`, and none is empty. -/
def Tiles : Nat → List (Nat × Nat) → Nat → Prop
  | x, [], y => x = y
  | x, r :: rest, y => r.1 = x ∧ 0 < r.2 ∧ Tiles (x + r.2) rest y

variable {size length fuel x y : Nat} {r r' : Nat × Nat} {l : List (Nat × Nat)}

theorem tiles_partsFrom (hsize : 0 < size) (hlength : x < length) (hfuel : length ≤ x + fuel * size) :
    Tiles x (partsFrom size length fuel x) length := by
  induction fuel generalizing x with
  | zero => omega
  | succ fuel ih =>
    rw [partsFrom]
    rw [Nat.succ_mul] at hfuel
    split
    · rename_i hlt
      exact ⟨rfl, hsize, ih hlt (by omega)⟩
    · refine ⟨rfl, Nat.sub_pos_of_lt hlength, ?_⟩
      change x + (length - x) = length
      omega

theorem tiles_parts (hsize : 0 < size) (hlength : 0 < length) : Tiles 0 (parts size length) length := by
  refine tiles_partsFrom hsize hlength ?_
  have := Nat.le_mul_of_pos_right length hsize
  omega

theorem parts_ne_nil (size length : Nat) : parts size length ≠ [] := by
  unfold parts
  cases length with
  | zero => exact List.cons_ne_nil _ _
  | succ length =>
    rw [partsFrom]
    split <;> exact List.cons_ne_nil _ _

namespace Tiles

theorem le (h : Tiles x l y) : x ≤ y := by
  induction l generalizing x with
  | nil => exact Nat.le_of_eq h
  | cons r rest ih => exact Nat.le_trans (Nat.le_add_right x r.2) (ih h.2.2)

theorem sum (h : Tiles x l y) : (l.map Prod.snd).sum = y - x := by
  induction l generalizing x with
  | nil =>
    have hxy : x = y := h
    rw [hxy, Nat.sub_self]
    rfl
  | cons r rest ih =>
    have hle := h.2.2.le
    rw [List.map_cons, List.sum_cons, ih h.2.2]
    omega

theorem bounds (h : Tiles x l y) (hr : r ∈ l) : x ≤ r.1 ∧ 0 < r.2 ∧ r.1 + r.2 ≤ y := by
  induction l generalizing x with
  | nil => cases hr
  | cons a rest ih =>
    have hle := h.2.2.le
    have hstart := h.1
    rcases List.mem_cons.mp hr with rfl | hr
    · exact ⟨by omega, h.2.1, by omega⟩
    · obtain ⟨hx, hpos, hy⟩ := ih h.2.2 hr
      exact ⟨by omega, hpos, hy⟩

theorem length_le (h : Tiles x l y) : l.length ≤ y - x := by
  induction l generalizing x with
  | nil => exact Nat.zero_le _
  | cons a rest ih =>
    have := ih h.2.2
    have := h.2.1
    have := h.2.2.le
    rw [List.length_cons]
    omega

theorem pos (h : Tiles x l y) (hr : r ∈ l) : 0 < r.2 := (h.bounds hr).2.1

/-- Ranges that stand earlier end before the later ones begin. -/
theorem pairwise (h : Tiles x l y) : l.Pairwise fun a b => a.1 + a.2 ≤ b.1 := by
  induction l generalizing x with
  | nil => exact List.Pairwise.nil
  | cons a rest ih =>
    refine List.pairwise_cons.mpr ⟨fun b hb => ?_, ih h.2.2⟩
    have := (h.2.2.bounds hb).1
    have := h.1
    omega

theorem nodup (h : Tiles x l y) : l.Nodup :=
  h.pairwise.imp_of_mem fun {a b} ha _ hab heq => by
    have := h.pos ha
    rw [← heq] at hab
    omega

theorem disjoint (h : Tiles x l y) (hr : r ∈ l) (hr' : r' ∈ l) (hne : r ≠ r') :
    r.1 + r.2 ≤ r'.1 ∨ r'.1 + r'.2 ≤ r.1 := by
  refine List.Pairwise.forall_of_forall_of_flip
    (R := fun a b : Nat × Nat => a ≠ b → a.1 + a.2 ≤ b.1 ∨ b.1 + b.2 ≤ a.1) (fun a _ hbad => absurd rfl hbad)
    (h.pairwise.imp fun {a b} hab _ => Or.inl hab) (h.pairwise.imp fun {a b} hab _ => Or.inr hab) hr hr' hne

end Tiles

/-! ### Writing range by range -/

section Writing
variable {α : Type u}

def slice (data : List α) (b k : Nat) : List α := (data.drop b).take k

/-- `piece` written over `data` from position `b` on. -/
def patch (data : List α) (b : Nat) (piece : List α) : List α :=
  data.take b ++ piece ++ data.drop (b + piece.length)

variable {data data' piece : List α} {b k b' k' : Nat}

theorem length_patch (h : b + piece.length ≤ data.length) : (patch data b piece).length = data.length := by
  unfold patch
  rw [List.length_append, List.length_append, List.length_take, List.length_drop]
  omega

theorem slice_patch_self (h : b ≤ data.length) : slice (patch data b piece) b piece.length = piece := by
  have hlen : (data.take b).length = b := List.length_take_of_le h
  unfold slice patch
  rw [List.append_assoc, List.drop_left' hlen, List.take_left' rfl]

theorem getElem?_slice (data : List α) (b k i : Nat) : (slice data b k)[i]? = if i < k then data[b + i]? else none := by
  unfold slice
  rw [List.getElem?_take, List.getElem?_drop]

theorem getElem?_patch (h : b + piece.length ≤ data.length) (i : Nat) :
    (patch data b piece)[i]? = if b ≤ i ∧ i < b + piece.length then piece[i - b]? else data[i]? := by
  have hlen : (data.take b).length = b := List.length_take_of_le (by omega)
  unfold patch
  rw [List.append_assoc]
  by_cases hb : i < b
  · rw [List.getElem?_append_left (by omega), List.getElem?_take, if_pos hb, if_neg (by omega)]
  · rw [List.getElem?_append_right (by omega), hlen]
    by_cases hend : i - b < piece.length
    · rw [List.getElem?_append_left hend, if_pos (by omega)]
    · rw [List.getElem?_append_right (by omega), List.getElem?_drop, if_neg (by omega)]
      congr 1
      omega

/-- A range that is not written over is left alone. -/
theorem slice_patch_disjoint (h : b + piece.length ≤ data.length) (hdis : b' + k' ≤ b ∨ b + piece.length ≤ b') :
    slice (patch data b piece) b' k' = slice data b' k' := by
  refine List.ext_getElem? fun i => ?_
  rw [getElem?_slice, getElem?_slice, getElem?_patch h]
  split
  · rw [if_neg (by omega)]
  · rfl

theorem take_slice (data : List α) (b k : Nat) : slice data b k ++ data.drop (b + k) = data.drop b := by
  unfold slice
  rw [← List.drop_drop, List.take_append_drop]

/-- Data that agree on each range of a tiling are the same. -/
theorem Tiles.drop_eq (h : Tiles x l data.length) (hlen : data'.length = data.length)
    (hall : ∀ r ∈ l, slice data r.1 r.2 = slice data' r.1 r.2) : data.drop x = data'.drop x := by
  induction l generalizing x with
  | nil =>
    have hx : x = data.length := h
    rw [List.drop_of_length_le (Nat.le_of_eq hx.symm), List.drop_of_length_le (by omega)]
  | cons r rest ih =>
    have hrest := ih h.2.2 fun r' hr' => hall r' (List.mem_cons_of_mem r hr')
    have hhead := hall r List.mem_cons_self
    rw [h.1] at hhead
    rw [← take_slice data x r.2, ← take_slice data' x r.2, hhead, hrest]

theorem Tiles.ext (h : Tiles 0 l data.length) (hlen : data'.length = data.length)
    (hall : ∀ r ∈ l, slice data r.1 r.2 = slice data' r.1 r.2) : data = data' := h.drop_eq hlen hall

end Writing

end BitBlinder.Tiling
