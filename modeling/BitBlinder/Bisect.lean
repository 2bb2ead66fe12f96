import Mathlib.Data.List.Perm.Basic
import Mathlib.Data.List.Pairwise

/-!
# Insertion by bisection

`bisect.insort`: the place of a new item in a sorted list is found by halving, and equal items
stay before it. Items are compared by `lt`, the lemmas ask of it what a total order gives.
-/

namespace BitBlinder.Bisect

set_option autoImplicit false

universe u
variable {α : Type u}

/-- The loop of `bisect_right` between `lo` and `hi`; `fuel` bounds its rounds. -/
def bisectRight (lt : α → α → Bool) (l : List α) (a : α) : Nat → Nat → Nat → Nat
  | 0, lo, _ => lo
  | fuel + 1, lo, hi =>
    if lo < hi then
      let mid := (lo + hi) / 2
      if l[mid]?.any (lt a) then bisectRight lt l a fuel lo mid
      else bisectRight lt l a fuel (mid + 1) hi
    else lo

def insort (lt : α → α → Bool) (l : List α) (a : α) : List α :=
  let p := bisectRight lt l a l.length 0 l.length
  l.take p ++ a :: l.drop p

variable {lt : α → α → Bool} {l : List α} {a : α} {fuel lo hi : Nat}

/-- Wherever the new item goes, the others stay. -/
theorem insort_perm (lt : α → α → Bool) (l : List α) (a : α) : (insort lt l a).Perm (a :: l) := by
  unfold insort
  dsimp only
  refine List.perm_middle.trans ?_
  rw [List.take_append_drop]

theorem mem_insort {b : α} : b ∈ insort lt l a ↔ b = a ∨ b ∈ l :=
  (insort_perm lt l a).mem_iff.trans List.mem_cons

/-- No later item is smaller. -/
def Sorted (lt : α → α → Bool) (l : List α) : Prop := l.Pairwise fun x y => lt y x = false

/-- The place that was found: nothing before it is greater than the new item, all from it on are. -/
theorem bisectRight_spec (hlt : ∀ a b c, lt a b = true → lt c b = false → lt a c = true) (hl : Sorted lt l)
    (hfuel : hi - lo ≤ fuel) (hle : lo ≤ hi) (hhi : hi ≤ l.length)
    (hbefore : ∀ i b, i < lo → l[i]? = some b → lt a b = false)
    (hafter : ∀ i b, hi ≤ i → l[i]? = some b → lt a b = true) :
    (∀ i b, i < bisectRight lt l a fuel lo hi → l[i]? = some b → lt a b = false) ∧
      (∀ i b, bisectRight lt l a fuel lo hi ≤ i → l[i]? = some b → lt a b = true) := by
  induction fuel generalizing lo hi with
  | zero =>
    have heq : lo = hi := by omega
    exact ⟨hbefore, heq ▸ hafter⟩
  | succ fuel ih =>
    rw [bisectRight]
    by_cases hlo : lo < hi
    · rw [if_pos hlo]
      dsimp only
      have hmid : (lo + hi) / 2 < l.length := by omega
      have hget : l[(lo + hi) / 2]? = some l[(lo + hi) / 2] := List.getElem?_eq_getElem hmid
      have hsorted : ∀ {i j : Nat} {b c : α}, i < j → l[i]? = some b → l[j]? = some c → lt c b = false := by
        intro i j b c hij hb hc
        obtain ⟨hi', rfl⟩ := List.getElem?_eq_some_iff.mp hb
        obtain ⟨hj', rfl⟩ := List.getElem?_eq_some_iff.mp hc
        exact List.pairwise_iff_getElem.mp hl i j hi' hj' hij
      rw [hget, Option.any_some]
      by_cases hm : lt a l[(lo + hi) / 2] = true
      · -- The item in the middle is greater, and so are those after it.
        rw [if_pos hm]
        refine ih (by omega) (by omega) (by omega) hbefore fun i b hi' hb => ?_
        rcases Nat.lt_or_eq_of_le hi' with hlt' | heq
        · exact hlt _ _ _ hm (hsorted hlt' hget hb)
        · subst heq
          rw [hget] at hb
          exact Option.some.inj hb ▸ hm
      · rw [if_neg hm]
        refine ih (by omega) (by omega) hhi (fun i b hi' hb => ?_) hafter
        by_contra hbad
        have hab : lt a b = true := eq_true_of_ne_false hbad
        rcases Nat.lt_or_eq_of_le (Nat.le_of_lt_succ hi') with hlt' | heq
        · exact hm (hlt _ _ _ hab (hsorted hlt' hb hget))
        · subst heq
          rw [hget] at hb
          exact hm (Option.some.inj hb ▸ hab)
    · rw [if_neg hlo]
      have heq : lo = hi := by omega
      exact ⟨hbefore, heq ▸ hafter⟩

theorem insort_sorted (hlt : ∀ a b c, lt a b = true → lt c b = false → lt a c = true)
    (hasymm : ∀ a b, lt a b = true → lt b a = false) (hl : Sorted lt l) : Sorted lt (insort lt l a) := by
  obtain ⟨hbefore, hafter⟩ := bisectRight_spec (a := a) hlt hl (Nat.le_refl _) (Nat.zero_le _) (Nat.le_refl _)
    (fun i _ hi _ => absurd hi (Nat.not_lt_zero i))
    (fun i b hi hb => absurd (List.getElem?_eq_some_iff.mp hb).1 (Nat.not_lt.mpr hi))
  unfold insort
  dsimp only
  revert hbefore hafter
  generalize bisectRight lt l a l.length 0 l.length = p
  intro hbefore hafter
  have htake : ∀ b ∈ l.take p, lt a b = false := by
    intro b hb
    obtain ⟨i, hi⟩ := List.mem_iff_getElem?.mp hb
    rw [List.getElem?_take] at hi
    split at hi
    · rename_i hip
      exact hbefore i b hip hi
    · cases hi
  have hdrop : ∀ b ∈ l.drop p, lt a b = true := by
    intro b hb
    obtain ⟨i, hi⟩ := List.mem_iff_getElem?.mp hb
    rw [List.getElem?_drop] at hi
    exact hafter (p + i) b (Nat.le_add_right p i) hi
  have hparts : (l.take p ++ l.drop p).Pairwise fun x y => lt y x = false := by
    rw [List.take_append_drop]
    exact hl
  obtain ⟨hfirst, hsecond, hcross⟩ := List.pairwise_append.mp hparts
  refine List.pairwise_append.mpr ⟨hfirst, List.pairwise_cons.mpr ⟨fun b hb => ?_, hsecond⟩, fun x hx y hy => ?_⟩
  · exact hasymm a b (hdrop b hb)
  · rcases List.mem_cons.mp hy with rfl | hy
    · exact htake x hx
    · exact hcross x hx y hy

/-! ### Pairs of numbers -/

/-- Tuples are compared by their first number, then by their second. -/
def pairLt (a b : Nat × Nat) : Bool := decide (a.1 < b.1 ∨ a.1 = b.1 ∧ a.2 < b.2)

theorem pairLt_iff {a b : Nat × Nat} : pairLt a b = true ↔ a.1 < b.1 ∨ a.1 = b.1 ∧ a.2 < b.2 :=
  decide_eq_true_iff

theorem pairLt_false_iff {a b : Nat × Nat} : pairLt a b = false ↔ ¬(a.1 < b.1 ∨ a.1 = b.1 ∧ a.2 < b.2) :=
  decide_eq_false_iff_not

theorem pairLt_asymm (a b : Nat × Nat) (h : pairLt a b = true) : pairLt b a = false := by
  rw [pairLt_iff] at h
  rw [pairLt_false_iff]
  omega

theorem pairLt_of_lt_of_le (a b c : Nat × Nat) (hab : pairLt a b = true) (hcb : pairLt c b = false) :
    pairLt a c = true := by
  rw [pairLt_iff] at hab ⊢
  rw [pairLt_false_iff] at hcb
  omega

theorem insort_pair_sorted {l : List (Nat × Nat)} (hl : Sorted pairLt l) (a : Nat × Nat) :
    Sorted pairLt (insort pairLt l a) := insort_sorted pairLt_of_lt_of_le pairLt_asymm hl

end BitBlinder.Bisect
