import Mathlib.Data.List.Nodup
import Mathlib.Data.List.Perm.Basic
import Mathlib.Logic.Function.Basic

/-!
# Rows of entries with the place of each entry on record

A list of rows in which every filed entry stands once. `tier` says in which row an
entry is filed, if in any, and `pos` at which position of that row; `Filed` says that
rows and records agree. An entry is taken out by moving the last entry of its row into
its place, and put in at any position by moving the entry found there to the end.
-/

namespace BitBlinder.Rows

set_option autoImplicit false

universe u
variable {α : Type u}

/-- The entry of row `t` at position `i`. -/
def at? (rows : List (List α)) (t i : Nat) : Option α := (rows[t]?).bind fun row => row[i]?

def Filed (rows : List (List α)) (tier : α → Option Nat) (pos : α → Nat) : Prop :=
  ∀ a t i, at? rows t i = some a ↔ tier a = some t ∧ pos a = i

/-- `row[p] = q; del row[-1]`. -/
def swapOut (row : List α) (p : Nat) (q : α) : List α := (row.set p q).dropLast

/-- `row.append(old); row[p] = a`. -/
def swapIn (row : List α) (p : Nat) (old a : α) : List α := (row ++ [old]).set p a

/-- `del row[p]; row.append(a)`. -/
def toEnd (row : List α) (p : Nat) (a : α) : List α := row.eraseIdx p ++ [a]

variable {rows : List (List α)} {row : List α} {tier : α → Option Nat} {pos : α → Nat} {a b q old : α}
  {t s i p : Nat}

theorem at?_of_row (hrow : rows[t]? = some row) (i : Nat) : at? rows t i = row[i]? := by
  unfold at?
  rw [hrow, Option.bind_some]

theorem at?_set (hrow : rows[t]? = some row) (row' : List α) (s i : Nat) :
    at? (rows.set t row') s i = if s = t then row'[i]? else at? rows s i := by
  obtain ⟨hlt, -⟩ := List.getElem?_eq_some_iff.mp hrow
  unfold at?
  rw [List.getElem?_set]
  by_cases hst : t = s
  · rw [if_pos hst, if_pos hst.symm, if_pos (hst ▸ hlt), Option.bind_some]
  · rw [if_neg hst, if_neg fun h => hst h.symm]

/-! ### What stands in the changed rows -/

theorem getElem?_append_one (row : List α) (a : α) (i : Nat) :
    (row ++ [a])[i]? = if i = row.length then some a else row[i]? := by
  by_cases hi : i = row.length
  · rw [if_pos hi, hi, List.getElem?_concat_length]
  · rw [if_neg hi]
    by_cases hlt : i < row.length
    · rw [List.getElem?_append_left hlt]
    · have hlong : (row ++ [a]).length ≤ i := by
        rw [List.length_append, List.length_singleton]
        omega
      rw [List.getElem?_eq_none hlong, List.getElem?_eq_none (Nat.le_of_not_lt hlt)]

theorem getElem?_swapOut (row : List α) (p : Nat) (q : α) (i : Nat) :
    (swapOut row p q)[i]? =
      if i + 1 < row.length then (if i = p then some q else row[i]?) else none := by
  unfold swapOut
  rw [List.getElem?_dropLast, List.length_set]
  by_cases hi : i < row.length - 1
  · rw [if_pos hi, if_pos (Nat.add_lt_of_lt_sub hi), List.getElem?_set]
    by_cases hp : p = i
    · have hlt : p < row.length := by omega
      rw [if_pos hp, if_pos hp.symm, if_pos hlt]
    · rw [if_neg hp, if_neg fun h => hp h.symm]
  · rw [if_neg hi, if_neg (by omega)]

theorem getElem?_swapIn (hold : row[p]? = some old) (a : α) (i : Nat) :
    (swapIn row p old a)[i]? =
      if i = p then some a else if i = row.length then some old else row[i]? := by
  obtain ⟨hlt, -⟩ := List.getElem?_eq_some_iff.mp hold
  unfold swapIn
  rw [List.getElem?_set]
  by_cases hp : p = i
  · rw [if_pos hp, if_pos hp.symm, if_pos (by rw [List.length_append]; omega)]
  · rw [if_neg hp, if_neg fun h => hp h.symm, getElem?_append_one]

theorem getElem?_toEnd (hp : p < row.length) (a : α) (i : Nat) :
    (toEnd row p a)[i]? =
      if i < p then row[i]? else if i + 1 = row.length then some a else row[i + 1]? := by
  have hlen : (row.eraseIdx p).length = row.length - 1 := by rw [List.length_eraseIdx, if_pos hp]
  unfold toEnd
  rw [getElem?_append_one, hlen, List.getElem?_eraseIdx]
  by_cases he : i = row.length - 1
  · rw [if_pos he, if_neg (by omega), if_pos (by omega)]
  · rw [if_neg he]
    by_cases hi : i < p
    · rw [if_pos hi, if_pos hi]
    · rw [if_neg hi, if_neg hi, if_neg (by omega : ¬ i + 1 = row.length)]

section Renumber
variable [DecidableEq α]

/-- The positions of the entries of a row from its position `i` on. -/
def renumber : List α → Nat → (α → Nat) → α → Nat
  | [], _, pos => pos
  | a :: row, i, pos => renumber row (i + 1) (Function.update pos a i)

theorem renumber_of_not_mem (h : a ∉ row) (i : Nat) (pos : α → Nat) : renumber row i pos a = pos a := by
  induction row generalizing i pos with
  | nil => rfl
  | cons b row ih =>
    rw [renumber, ih fun hmem => h (List.mem_cons_of_mem b hmem), Function.update_of_ne]
    rintro rfl
    exact h List.mem_cons_self

theorem renumber_of_getElem? (hnodup : row.Nodup) {k : Nat} (h : row[k]? = some a) (i : Nat) (pos : α → Nat) :
    renumber row i pos a = i + k := by
  induction row generalizing i pos k with
  | nil => exact absurd h.symm (Option.some_ne_none a)
  | cons b row ih =>
    obtain ⟨hb, hrest⟩ := List.nodup_cons.mp hnodup
    cases k with
    | zero =>
      obtain rfl := Option.some.inj h
      rw [renumber, renumber_of_not_mem hb, Function.update_self]
      rfl
    | succ k =>
      rw [renumber, ih hrest h]
      omega

end Renumber

namespace Filed

theorem mem_iff (h : Filed rows tier pos) (hrow : rows[t]? = some row) :
    a ∈ row ↔ tier a = some t := by
  constructor
  · intro ha
    obtain ⟨i, hi⟩ := List.mem_iff_getElem?.mp ha
    exact ((h a t i).mp ((at?_of_row hrow i).trans hi)).1
  · intro ha
    have hat := (h a t (pos a)).mpr ⟨ha, rfl⟩
    rw [at?_of_row hrow] at hat
    exact List.mem_of_getElem? hat

/-- A filed entry is where the records say. -/
theorem getElem? (h : Filed rows tier pos) (hrow : rows[t]? = some row) (ha : tier a = some t) :
    row[pos a]? = some a := by
  rw [← at?_of_row hrow]
  exact (h a t (pos a)).mpr ⟨ha, rfl⟩

theorem exists_row (h : Filed rows tier pos) (ha : tier a = some t) : ∃ row, rows[t]? = some row := by
  have hat := (h a t (pos a)).mpr ⟨ha, rfl⟩
  obtain ⟨row, hrow, -⟩ := Option.bind_eq_some_iff.mp hat
  exact ⟨row, hrow⟩

theorem pos_of_getElem? (h : Filed rows tier pos) (hrow : rows[t]? = some row) (hi : row[i]? = some a) :
    tier a = some t ∧ pos a = i :=
  (h a t i).mp ((at?_of_row hrow i).trans hi)

theorem nodup (h : Filed rows tier pos) (hrow : rows[t]? = some row) : row.Nodup := by
  refine List.nodup_iff_getElem?_ne_getElem?.mpr ?_
  intro i j hij hj heq
  have hi : row[i]? = some row[i] := List.getElem?_eq_getElem (by omega)
  have hposi := (h.pos_of_getElem? hrow hi).2
  have hposj := (h.pos_of_getElem? hrow (heq ▸ hi)).2
  omega

/-- A row without entries at the end. -/
theorem addRow (h : Filed rows tier pos) : Filed (rows ++ [[]]) tier pos := by
  intro a t i
  rw [← h a t i]
  unfold at?
  by_cases ht : t < rows.length
  · rw [List.getElem?_append_left ht]
  · rw [List.getElem?_append_right (by omega), List.getElem?_eq_none (l := rows) (by omega)]
    cases t - rows.length <;> simp

theorem addRows (h : Filed rows tier pos) (k : Nat) : Filed (rows ++ List.replicate k []) tier pos := by
  induction k with
  | zero => rwa [List.replicate_zero, List.append_nil]
  | succ k ih =>
    rw [List.replicate_succ', ← List.append_assoc]
    exact ih.addRow

/-- The first row goes when nothing is filed in it. -/
theorem dropRow (h : Filed rows tier pos) (hzero : ∀ a, tier a ≠ some 0) :
    Filed rows.tail (fun a => (tier a).map (· - 1)) pos := by
  intro a t i
  have hat : at? rows.tail t i = at? rows (t + 1) i := by
    unfold at?
    rw [List.getElem?_tail]
  rw [hat, h a (t + 1) i, Option.map_eq_some_iff]
  refine and_congr_left fun _ => ⟨fun ht => ⟨t + 1, ht, rfl⟩, ?_⟩
  rintro ⟨s, hs, hst⟩
  have hne : s ≠ 0 := by
    rintro rfl
    exact hzero a hs
  rw [hs, ← hst, Nat.sub_add_cancel (Nat.pos_of_ne_zero hne)]

section Update
variable [DecidableEq α]

theorem takeOut (h : Filed rows tier pos) (hrow : rows[t]? = some row) (ha : tier a = some t)
    (hq : row.getLast? = some q) :
    Filed (rows.set t (swapOut row (pos a) q)) (Function.update tier a none) (Function.update pos q (pos a)) := by
  have hlast : row[row.length - 1]? = some q := by rw [← List.getLast?_eq_getElem?, hq]
  obtain ⟨hqt, hqp⟩ := h.pos_of_getElem? hrow hlast
  obtain ⟨hlt, -⟩ := List.getElem?_eq_some_iff.mp (h.getElem? hrow ha)
  intro b s i
  rw [at?_set hrow]
  by_cases hb : b = a
  · subst hb
    rw [Function.update_self]
    refine ⟨fun hat => ?_, fun hbad => absurd hbad.1 (Option.some_ne_none s).symm⟩
    by_cases hst : s = t
    · rw [if_pos hst, getElem?_swapOut] at hat
      split at hat
      · rename_i hi
        split at hat
        · rename_i hip
          obtain rfl := Option.some.inj hat
          omega
        · rename_i hip
          exact absurd (h.pos_of_getElem? hrow hat).2.symm hip
      · exact absurd hat.symm (Option.some_ne_none b)
    · rw [if_neg hst] at hat
      have htier := ((h b s i).mp hat).1
      exact absurd (Option.some.inj (htier.symm.trans ha)) hst
  · rw [Function.update_of_ne hb]
    by_cases hst : s = t
    · subst hst
      rw [if_pos rfl, getElem?_swapOut]
      by_cases hbq : b = q
      · subst hbq
        rw [Function.update_self]
        have hne : pos a ≠ row.length - 1 := by
          intro heq
          have hat := h.getElem? hrow ha
          rw [heq, hlast] at hat
          exact hb (Option.some.inj hat)
        constructor
        · intro hat
          split at hat
          · split at hat
            · rename_i hip
              exact ⟨hqt, hip.symm⟩
            · have := (h.pos_of_getElem? hrow hat).2
              omega
          · exact absurd hat.symm (Option.some_ne_none b)
        · rintro ⟨-, rfl⟩
          rw [if_pos (by omega), if_pos rfl]
      · rw [Function.update_of_ne hbq, ← h b s i, at?_of_row hrow]
        constructor
        · intro hat
          split at hat
          · split at hat
            · exact absurd (Option.some.inj hat).symm hbq
            · exact hat
          · exact absurd hat.symm (Option.some_ne_none b)
        · intro hat
          obtain ⟨hil, -⟩ := List.getElem?_eq_some_iff.mp hat
          have hi : i ≠ row.length - 1 := by
            rintro rfl
            exact hbq (Option.some.inj (hat.symm.trans hlast))
          have hip : i ≠ pos a := by
            rintro rfl
            exact hb (Option.some.inj (hat.symm.trans (h.getElem? hrow ha)))
          rw [if_pos (by omega), if_neg hip, hat]
    · rw [if_neg hst, h b s i]
      by_cases hbq : b = q
      · subst hbq
        have hno : tier b ≠ some s := fun hbs => hst (Option.some.inj (hbs.symm.trans hqt))
        exact ⟨fun hc => absurd hc.1 hno, fun hc => absurd hc.1 hno⟩
      · rw [Function.update_of_ne hbq]

theorem append (h : Filed rows tier pos) (hrow : rows[t]? = some row) (ha : tier a = none) :
    Filed (rows.set t (row ++ [a])) (Function.update tier a (some t)) (Function.update pos a row.length) := by
  intro b s i
  rw [at?_set hrow]
  by_cases hb : b = a
  · subst hb
    rw [Function.update_self, Function.update_self, Option.some.injEq]
    by_cases hst : s = t
    · subst hst
      rw [if_pos rfl, getElem?_append_one]
      by_cases hi : i = row.length
      · rw [if_pos hi]
        exact ⟨fun _ => ⟨rfl, hi.symm⟩, fun _ => rfl⟩
      · rw [if_neg hi]
        refine ⟨fun hat => ?_, fun hc => absurd hc.2.symm hi⟩
        have hbad := (h.pos_of_getElem? hrow hat).1
        exact absurd (hbad.symm.trans ha) (Option.some_ne_none s)
    · rw [if_neg hst]
      refine ⟨fun hat => ?_, fun hc => absurd hc.1.symm hst⟩
      have hbad := ((h b s i).mp hat).1
      exact absurd (hbad.symm.trans ha) (Option.some_ne_none s)
  · rw [Function.update_of_ne hb, Function.update_of_ne hb, ← h b s i]
    by_cases hst : s = t
    · subst hst
      rw [if_pos rfl, at?_of_row hrow, getElem?_append_one]
      by_cases hi : i = row.length
      · rw [if_pos hi, List.getElem?_eq_none (Nat.le_of_eq hi.symm)]
        exact ⟨fun hat => absurd (Option.some.inj hat).symm hb, fun hat => absurd hat.symm (Option.some_ne_none b)⟩
      · rw [if_neg hi]
    · rw [if_neg hst]

theorem putIn (h : Filed rows tier pos) (hrow : rows[t]? = some row) (ha : tier a = none)
    (hold : row[p]? = some old) :
    Filed (rows.set t (swapIn row p old a)) (Function.update tier a (some t))
      (Function.update (Function.update pos old row.length) a p) := by
  obtain ⟨hot, hop⟩ := h.pos_of_getElem? hrow hold
  obtain ⟨hlt, -⟩ := List.getElem?_eq_some_iff.mp hold
  have hoa : old ≠ a := by
    rintro rfl
    exact Option.some_ne_none t (hot.symm.trans ha)
  intro b s i
  rw [at?_set hrow]
  by_cases hb : b = a
  · subst hb
    rw [Function.update_self, Function.update_self, Option.some.injEq]
    by_cases hst : s = t
    · subst hst
      rw [if_pos rfl, getElem?_swapIn hold]
      by_cases hi : i = p
      · rw [if_pos hi]
        exact ⟨fun _ => ⟨rfl, hi.symm⟩, fun _ => rfl⟩
      · rw [if_neg hi]
        refine ⟨fun hat => ?_, fun hc => absurd hc.2.symm hi⟩
        split at hat
        · exact absurd (Option.some.inj hat) hoa
        · have hbad := (h.pos_of_getElem? hrow hat).1
          exact absurd (hbad.symm.trans ha) (Option.some_ne_none s)
    · rw [if_neg hst]
      refine ⟨fun hat => ?_, fun hc => absurd hc.1.symm hst⟩
      have hbad := ((h b s i).mp hat).1
      exact absurd (hbad.symm.trans ha) (Option.some_ne_none s)
  · rw [Function.update_of_ne hb, Function.update_of_ne hb]
    by_cases hbo : b = old
    · subst hbo
      rw [Function.update_self]
      by_cases hst : s = t
      · subst hst
        rw [if_pos rfl, getElem?_swapIn hold]
        constructor
        · intro hat
          split at hat
          · exact absurd (Option.some.inj hat).symm hb
          · split at hat
            · rename_i hi
              exact ⟨hot, hi.symm⟩
            · rename_i hip _
              exact absurd ((h.pos_of_getElem? hrow hat).2.symm.trans hop) hip
        · rintro ⟨-, rfl⟩
          rw [if_neg (by omega), if_pos rfl]
      · rw [if_neg hst]
        have hno : tier b ≠ some s := fun hbs => hst (Option.some.inj (hbs.symm.trans hot))
        exact ⟨fun hat => absurd ((h b s i).mp hat).1 hno, fun hc => absurd hc.1 hno⟩
    · rw [Function.update_of_ne hbo, ← h b s i]
      by_cases hst : s = t
      · subst hst
        rw [if_pos rfl, at?_of_row hrow, getElem?_swapIn hold]
        constructor
        · intro hat
          split at hat
          · exact absurd (Option.some.inj hat).symm hb
          · split at hat
            · exact absurd (Option.some.inj hat).symm hbo
            · exact hat
        · intro hat
          have hip : i ≠ p := by
            rintro rfl
            exact hbo (Option.some.inj (hat.symm.trans hold))
          obtain ⟨hil, -⟩ := List.getElem?_eq_some_iff.mp hat
          rw [if_neg hip, if_neg (by omega), hat]
      · rw [if_neg hst]

theorem renumbered (h : Filed rows tier pos) (hrow : rows[t]? = some row) (ha : tier a = some t) :
    Filed (rows.set t (toEnd row (pos a) a)) tier
      (renumber ((toEnd row (pos a) a).drop (pos a)) (pos a) pos) := by
  have hat := h.getElem? hrow ha
  obtain ⟨hlt, hget⟩ := List.getElem?_eq_some_iff.mp hat
  have hperm : (toEnd row (pos a) a).Perm row := by
    have hcons := List.getElem_cons_eraseIdx_perm hlt
    rw [hget] at hcons
    have hcomm : (row.eraseIdx (pos a) ++ [a]).Perm ([a] ++ row.eraseIdx (pos a)) := List.perm_append_comm
    exact hcomm.trans hcons
  have hnodup : (toEnd row (pos a) a).Nodup := hperm.nodup_iff.mpr (h.nodup hrow)
  intro b s i
  rw [at?_set hrow]
  by_cases hst : s = t
  · subst hst
    rw [if_pos rfl]
    by_cases hb : tier b = some s
    · have hmem : b ∈ toEnd row (pos a) a := hperm.mem_iff.mpr ((h.mem_iff hrow).mpr hb)
      obtain ⟨j, hj⟩ := List.mem_iff_getElem?.mp hmem
      have hpos : renumber ((toEnd row (pos a) a).drop (pos a)) (pos a) pos b = j := by
        by_cases hja : pos a ≤ j
        · have hdrop : ((toEnd row (pos a) a).drop (pos a))[j - pos a]? = some b := by
            rw [List.getElem?_drop, Nat.add_sub_cancel' hja, hj]
          rw [renumber_of_getElem? (hnodup.sublist (List.drop_sublist _ _)) hdrop]
          exact Nat.add_sub_cancel' hja
        · have hold : row[j]? = some b := by
            rw [getElem?_toEnd hlt, if_pos (by omega)] at hj
            exact hj
          rw [renumber_of_not_mem, (h.pos_of_getElem? hrow hold).2]
          intro hbad
          obtain ⟨k, hk⟩ := List.mem_iff_getElem?.mp hbad
          rw [List.getElem?_drop] at hk
          have hsame := (List.getElem?_inj (List.getElem?_eq_some_iff.mp hj).1 hnodup).mp (hj.trans hk.symm)
          omega
      constructor
      · intro hbi
        have hij := (List.getElem?_inj (List.getElem?_eq_some_iff.mp hbi).1 hnodup).mp (hbi.trans hj.symm)
        exact ⟨hb, hpos.trans hij.symm⟩
      · rintro ⟨-, rfl⟩
        rw [hpos, hj]
    · refine ⟨fun hbi => absurd ((h.mem_iff hrow).mp (hperm.mem_iff.mp (List.mem_of_getElem? hbi))) hb, fun hc => absurd hc.1 hb⟩
  · rw [if_neg hst, h b s i]
    refine and_congr_right fun hbs => ?_
    rw [renumber_of_not_mem]
    intro hbad
    have hmem := (h.mem_iff hrow).mp (hperm.mem_iff.mp (List.mem_of_mem_drop hbad))
    exact hst (Option.some.inj (hbs.symm.trans hmem))

end Update

end Filed

end BitBlinder.Rows
