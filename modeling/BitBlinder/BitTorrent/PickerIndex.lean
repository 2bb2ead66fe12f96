import BitBlinder.BitTorrent.PiecePicker
import Mathlib.Algebra.BigOperators.Group.Finset.Piecewise
import Mathlib.Algebra.Order.Ring.Int

/-!
# The index of the piece picker

Every piece that we neither have nor block stands once in `interests`, where the records say,
at a level that is the number of peers that have it plus its priority. Each operation keeps
this, and none of the assertions or indexes in them fails.
-/

namespace BitBlinder.PiecePicker

set_option autoImplicit false

open Rows (Filed swapOut swapIn)

variable {n : Nat}

/-- A piece that we still want. -/
def Listed (s : PiecePicker n) (a : Fin n) : Prop := s.has a = false ∧ s.priority a ≠ -1

instance (s : PiecePicker n) (a : Fin n) : Decidable (s.Listed a) := inferInstanceAs (Decidable (_ ∧ _))

/-- The row in which a piece stands. -/
def tier (s : PiecePicker n) (a : Fin n) : Option Nat :=
  if s.has a = true ∨ s.priority a = -1 then none else some (s.levelInInterests a).toNat

def relocated (s : PiecePicker n) (rows : List (List (Fin n))) (pos : Fin n → Nat) : PiecePicker n :=
  { s with
    interests := rows
    posInInterests := pos }

structure Indexed (s : PiecePicker n) : Prop where
  filed : Filed s.interests s.tier s.posInInterests
  level : ∀ a, s.Listed a → s.levelInInterests a = s.numhaves a + s.priorityStep * s.priority a
  priority : ∀ a, -1 ≤ s.priority a
  haves : ∀ a, 0 ≤ s.numhaves a
  total : s.totalcount = ∑ a, s.numhaves a
  startedNodup : s.started.Nodup
  startedListed : ∀ a ∈ s.started, s.Listed a
  got : s.numgot = (Finset.univ.filter fun a => s.has a = true).card
  done : s.done = true → s.numgot = n

variable {s t : PiecePicker n} {a b : Fin n} {rows : List (List (Fin n))} {pos : Fin n → Nat} {tier' : Fin n → Option Nat}
  {k l newp : Nat} {p d : Int}

theorem not_listed_iff : ¬ s.Listed a ↔ s.has a = true ∨ s.priority a = -1 := by
  unfold Listed
  rw [not_and_or, Bool.not_eq_false, not_not]

theorem tier_of_listed (h : s.Listed a) : s.tier a = some (s.levelInInterests a).toNat :=
  if_neg fun hbad => not_listed_iff.mpr hbad h

theorem tier_of_not_listed (h : ¬ s.Listed a) : s.tier a = none := if_pos (not_listed_iff.mp h)

/-! ### The moves of one piece -/

theorem rowAt_natCast (h : k < s.interests.length) : rowAt s k = .ok k := by
  unfold rowAt
  rw [PyList.place_of_lt h]

theorem takeOut_eq (hf : Filed s.interests tier' s.posInInterests) (ha : tier' a = some k) :
    ∃ rows pos, takeOut s a k = .ok (s.relocated rows pos) ∧ rows.length = s.interests.length ∧
      Filed rows (Function.update tier' a none) pos := by
  obtain ⟨row, hrow⟩ := hf.exists_row ha
  have hat := hf.getElem? hrow ha
  have hrowD : s.interests.getD k [] = row := by rw [List.getD_eq_getElem?_getD, hrow, Option.getD_some]
  cases hq : row.getLast? with
  | none =>
    rw [List.getLast?_eq_none_iff.mp hq] at hat
    exact absurd hat.symm (Option.some_ne_none a)
  | some q =>
    refine ⟨s.interests.set k (swapOut row (s.posInInterests a) q), Function.update s.posInInterests q (s.posInInterests a),
      ?_, List.length_set, hf.takeOut hrow ha hq⟩
    unfold takeOut
    simp only [hrowD, hat, hq]
    rw [if_neg (not_not.mpr rfl)]
    rfl

theorem putIn_eq (hf : Filed s.interests tier' s.posInInterests) (ha : tier' a = none)
    (hk : k < s.interests.length) (hnewp : newp ≤ (s.interests.getD k []).length) :
    ∃ rows pos, putIn s a k newp = .ok (s.relocated rows pos) ∧ rows.length = s.interests.length ∧
      Filed rows (Function.update tier' a (some k)) pos := by
  have hrow : s.interests[k]? = some (s.interests.getD k []) := by
    rw [List.getD_eq_getElem?_getD, List.getElem?_eq_getElem hk, Option.getD_some]
  unfold putIn
  dsimp only
  by_cases hend : newp = (s.interests.getD k []).length
  · rw [if_pos hend]
    exact ⟨_, _, rfl, List.length_set, hf.append hrow ha⟩
  · have hlt : newp < (s.interests.getD k []).length := Nat.lt_of_le_of_ne hnewp hend
    have hold := List.getElem?_eq_getElem hlt
    rw [if_neg hend, hold]
    exact ⟨_, _, rfl, List.length_set, hf.putIn hrow ha hold⟩

/-- `_shift_over` moves a filed piece to any other row. -/
theorem shiftOver_eq (hf : Filed s.interests tier' s.posInInterests) (ha : tier' a = some k)
    (hl : l < s.interests.length) (hlisted : s.Listed a) (hprio : -1 ≤ s.priority a) :
    ∃ rows pos, shiftOver s a k l = .ok (s.relocated rows pos) ∧ rows.length = s.interests.length ∧
      Filed rows (Function.update tier' a (some l)) pos := by
  obtain ⟨row, hrow⟩ := hf.exists_row ha
  have hk : k < s.interests.length := (List.getElem?_eq_some_iff.mp hrow).1
  have hguard : ¬ (s.has a = true ∨ s.priority a < 0) := by
    rintro (hbad | hbad)
    · exact absurd (hlisted.1.symm.trans hbad) Bool.false_ne_true
    · have := hlisted.2
      omega
  obtain ⟨rows, pos, htake, hlen, hf1⟩ := takeOut_eq hf ha
  obtain ⟨rows', pos', hput, hlen', hf2⟩ :=
    putIn_eq (s := s.relocated rows pos) hf1 (Function.update_self a none tier') (hlen.symm ▸ hl)
      (Nat.le_of_lt_succ (Nat.mod_lt (a.val * 13 * (rows.getD k []).length) (Nat.succ_pos _)))
  refine ⟨rows', pos', ?_, hlen'.trans hlen, ?_⟩
  · unfold shiftOver
    rw [rowAt_natCast hk, PyExcept.ok_bind, rowAt_natCast hl, PyExcept.ok_bind, if_neg hguard]
    simp only [PyExcept.ok_bind, htake]
    exact hput
  · rwa [Function.update_idem] at hf2

/-! ### The counts of the peers -/

theorem Indexed.level_nonneg (h : s.Indexed) (ha : s.Listed a) : 0 ≤ s.levelInInterests a := by
  have hprio := h.priority a
  have hne := ha.2
  have hmul : 0 ≤ (s.priorityStep : Int) * s.priority a := Int.mul_nonneg (Int.natCast_nonneg _) (by omega)
  have := h.haves a
  rw [h.level a ha]
  omega

theorem Indexed.all_of_done (h : s.Indexed) (hdone : s.done = true) : s.has a = true := by
  have hcard : (Finset.univ.filter fun a => s.has a = true).card = (Finset.univ : Finset (Fin n)).card := by
    rw [← h.got, h.done hdone, Finset.card_univ, Fintype.card_fin]
  have hall := Finset.filter_card_eq hcard a (Finset.mem_univ a)
  exact hall

theorem Indexed.not_done (h : s.Indexed) (ha : s.Listed a) : s.done = false := by
  cases hdone : s.done with
  | false => rfl
  | true => exact absurd (ha.1.symm.trans (h.all_of_done hdone)) Bool.false_ne_true

theorem sum_update (f : Fin n → Int) (a : Fin n) (d : Int) :
    ∑ b, Function.update f a (f a + d) b = ∑ b, f b + d := by
  rw [Finset.sum_update_of_mem (Finset.mem_univ a), ← Finset.add_sum_erase _ f (Finset.mem_univ a),
    Finset.sdiff_singleton_eq_erase]
  omega

theorem tier_count_listed (h : s.Indexed) (ha : s.Listed a) (d : Int) :
    (count s a d).tier = Function.update s.tier a (some (s.levelInInterests a + d).toNat) := by
  funext b
  have hdone := h.not_done ha
  by_cases hb : b = a
  · subst hb
    have hlisted : (count s b d).Listed b := ha
    rw [Function.update_self, tier_of_listed hlisted]
    simp only [count, hdone, Bool.false_eq_true, if_false, Function.update_self]
  · rw [Function.update_of_ne hb]
    simp only [tier, count, hdone, Bool.false_eq_true, if_false, Function.update_of_ne hb]

theorem tier_count_unlisted (ha : ¬ s.Listed a) (d : Int) : (count s a d).tier = s.tier := by
  funext b
  by_cases hb : b = a
  · subst hb
    have hunlisted : ¬ (count s b d).Listed b := ha
    rw [tier_of_not_listed ha, tier_of_not_listed hunlisted]
  · have hlevel : (count s a d).levelInInterests b = s.levelInInterests b := by
      unfold count
      dsimp only
      split
      · rfl
      · rw [Function.update_of_ne hb]
    unfold tier
    rw [hlevel]
    rfl

theorem Indexed.recount (h : s.Indexed) (hd : 0 ≤ s.numhaves a + d)
    (hf : Filed rows (count s a d).tier pos) : ((count s a d).relocated rows pos).Indexed where
  filed := hf
  level := by
    intro b hb
    have hlisted : s.Listed b := hb
    have hlevel := h.level b hlisted
    change (if s.done then s.levelInInterests else _) b = Function.update s.numhaves a (s.numhaves a + d) b + _
    rw [h.not_done hlisted]
    by_cases hba : b = a
    · subst hba
      rw [Function.update_self]
      change Function.update s.levelInInterests b (s.levelInInterests b + d) b = _ + (s.priorityStep : Int) * s.priority b
      rw [Function.update_self]
      omega
    · rw [Function.update_of_ne hba]
      change Function.update s.levelInInterests a (s.levelInInterests a + d) b = _ + (s.priorityStep : Int) * s.priority b
      rw [Function.update_of_ne hba]
      exact hlevel
  priority := h.priority
  haves := by
    intro b
    by_cases hba : b = a
    · subst hba
      change 0 ≤ Function.update s.numhaves b (s.numhaves b + d) b
      rwa [Function.update_self]
    · change 0 ≤ Function.update s.numhaves a (s.numhaves a + d) b
      rw [Function.update_of_ne hba]
      exact h.haves b
  total := by
    change s.totalcount + d = ∑ b, Function.update s.numhaves a (s.numhaves a + d) b
    rw [sum_update, h.total]
  startedNodup := h.startedNodup
  startedListed := h.startedListed
  got := h.got
  done := h.done

theorem gotHave_spec (h : s.Indexed) (a : Fin n) :
    ∃ rows pos, gotHave s a = .ok ((count s a 1).relocated rows pos) ∧ ((count s a 1).relocated rows pos).Indexed := by
  have hhaves := h.haves a
  unfold gotHave
  dsimp only
  by_cases ha : s.Listed a
  · rw [if_neg (not_listed_iff.not.mp (not_not.mpr ha)), h.not_done ha]
    have hlevel := h.level_nonneg ha
    obtain ⟨k, hk⟩ := Int.eq_ofNat_of_zero_le hlevel
    have htier : s.tier a = some k := by rw [tier_of_listed ha, hk, Int.toNat_natCast]
    obtain ⟨row, hrow⟩ := h.filed.exists_row htier
    have hklt : k < s.interests.length := (List.getElem?_eq_some_iff.mp hrow).1
    have hnext : (s.levelInInterests a + 1).toNat = k + 1 := by omega
    simp only [Bool.false_eq_true, if_false]
    -- a row is added when the piece stands in the last one
    obtain ⟨rows0, hrows0, hf0, hlt0⟩ : ∃ rows0,
        (if s.levelInInterests a = ((count s a 1).interests.length : Int) - 1 then
          { count s a 1 with interests := (count s a 1).interests ++ [[]] } else count s a 1) =
            (count s a 1).relocated rows0 s.posInInterests ∧
          Filed rows0 s.tier s.posInInterests ∧ k + 1 < rows0.length := by
      by_cases hlast : s.levelInInterests a = ((count s a 1).interests.length : Int) - 1
      · rw [if_pos hlast]
        refine ⟨s.interests ++ [[]], rfl, h.filed.addRow, ?_⟩
        rw [List.length_append, List.length_singleton]
        omega
      · rw [if_neg hlast]
        refine ⟨s.interests, rfl, h.filed, ?_⟩
        change s.levelInInterests a ≠ (s.interests.length : Int) - 1 at hlast
        omega
    rw [hrows0]
    obtain ⟨rows, pos, hshift, -, hf⟩ := shiftOver_eq (s := (count s a 1).relocated rows0 s.posInInterests) hf0 htier hlt0
      ha (h.priority a)
    refine ⟨rows, pos, ?_, h.recount (by omega) ?_⟩
    · rw [hk]
      exact hshift
    · rwa [tier_count_listed h ha, hnext]
  · rw [if_pos (not_listed_iff.mp ha)]
    refine ⟨s.interests, s.posInInterests, rfl, h.recount (by omega) ?_⟩
    rw [tier_count_unlisted ha]
    exact h.filed

theorem lostHave_spec (h : s.Indexed) (hone : 1 ≤ s.numhaves a) :
    ∃ rows pos, lostHave s a = .ok ((count s a (-1)).relocated rows pos) ∧
      ((count s a (-1)).relocated rows pos).Indexed := by
  unfold lostHave
  dsimp only
  by_cases ha : s.Listed a
  · rw [if_neg (not_listed_iff.not.mp (not_not.mpr ha)), h.not_done ha]
    have hprio := h.priority a
    have hne := ha.2
    have hmul : 0 ≤ (s.priorityStep : Int) * s.priority a := Int.mul_nonneg (Int.natCast_nonneg _) (by omega)
    have hlevel := h.level a ha
    obtain ⟨k, hk⟩ := Int.eq_ofNat_of_zero_le (show 0 ≤ s.levelInInterests a - 1 by omega)
    have hlevel' : s.levelInInterests a = ((k + 1 : Nat) : Int) := by omega
    have htier : s.tier a = some (k + 1) := by rw [tier_of_listed ha, hlevel', Int.toNat_natCast]
    obtain ⟨row, hrow⟩ := h.filed.exists_row htier
    have hlt : k < s.interests.length := Nat.lt_of_succ_lt (List.getElem?_eq_some_iff.mp hrow).1
    have hnext : (s.levelInInterests a + -1).toNat = k := by omega
    simp only [Bool.false_eq_true, if_false]
    obtain ⟨rows, pos, hshift, -, hf⟩ := shiftOver_eq (s := count s a (-1)) h.filed htier hlt ha (h.priority a)
    refine ⟨rows, pos, ?_, h.recount (by omega) ?_⟩
    · rw [hk, hlevel']
      exact hshift
    · rwa [tier_count_listed h ha, hnext]
  · rw [if_pos (not_listed_iff.mp ha)]
    refine ⟨s.interests, s.posInInterests, rfl, h.recount (by omega) ?_⟩
    rw [tier_count_unlisted ha]
    exact h.filed

/-! ### Seeds -/

theorem Indexed.gotSeed (h : s.Indexed) : (gotSeed s).Indexed :=
  ⟨h.filed, h.level, h.priority, h.haves, h.total, h.startedNodup, h.startedListed, h.got, h.done⟩

theorem Indexed.lostSeed (h : s.Indexed) : (lostSeed s).Indexed :=
  ⟨h.filed, h.level, h.priority, h.haves, h.total, h.startedNodup, h.startedListed, h.got, h.done⟩

/-- A peer that has every piece was counted for each of them, so nothing stands in the row
that goes. -/
theorem Indexed.becameSeed (h : s.Indexed) (hone : ∀ a, 1 ≤ s.numhaves a) : (becameSeed s).Indexed := by
  have hlevel : ∀ a, s.Listed a → 1 ≤ s.levelInInterests a := by
    intro a ha
    have hprio := h.priority a
    have hne := ha.2
    have hmul : 0 ≤ (s.priorityStep : Int) * s.priority a := Int.mul_nonneg (Int.natCast_nonneg _) (by omega)
    have := hone a
    rw [h.level a ha]
    omega
  refine ⟨?_, ?_, h.priority, fun a => ?_, ?_, h.startedNodup, h.startedListed, h.got, h.done⟩
  · cases hdone : s.done with
    | true =>
      have hnone : ∀ t : PiecePicker n, t.has = s.has → t.tier = fun _ => none := by
        intro t ht
        funext a
        exact if_pos (.inl (ht ▸ h.all_of_done hdone))
      have hf := h.filed
      rw [hnone s rfl] at hf
      rw [hnone (PiecePicker.becameSeed s) rfl]
      simp only [PiecePicker.becameSeed, PiecePicker.gotSeed, hdone, if_true]
      exact hf
    | false =>
      have htier : (PiecePicker.becameSeed s).tier = fun a => (s.tier a).map (· - 1) := by
        funext a
        by_cases ha : s.Listed a
        · have hlisted : (PiecePicker.becameSeed s).Listed a := ha
          have := hlevel a ha
          rw [tier_of_listed ha, tier_of_listed hlisted, Option.map_some]
          simp only [PiecePicker.becameSeed, PiecePicker.gotSeed, hdone, Bool.false_eq_true, if_false]
          congr 1
          omega
        · have hunlisted : ¬ (PiecePicker.becameSeed s).Listed a := ha
          rw [tier_of_not_listed ha, tier_of_not_listed hunlisted, Option.map_none]
      have hzero : ∀ a, s.tier a ≠ some 0 := by
        intro a hbad
        by_cases ha : s.Listed a
        · have := hlevel a ha
          have hzero := Option.some.inj ((tier_of_listed ha).symm.trans hbad)
          omega
        · exact Option.some_ne_none 0 (hbad.symm.trans (tier_of_not_listed ha))
      rw [htier]
      simp only [PiecePicker.becameSeed, PiecePicker.gotSeed, hdone, Bool.false_eq_true, if_false]
      exact h.filed.dropRow hzero
  · intro a ha
    have hlisted : s.Listed a := ha
    have hl := h.level a hlisted
    simp only [PiecePicker.becameSeed, PiecePicker.gotSeed, h.not_done hlisted, Bool.false_eq_true, if_false]
    omega
  · have := hone a
    change 0 ≤ s.numhaves a - 1
    omega
  · change s.totalcount - n = ∑ a, (s.numhaves a - 1)
    rw [Finset.sum_sub_distrib, h.total, Finset.sum_const, Finset.card_univ, Fintype.card_fin]
    simp

/-! ### Our own pieces -/

theorem Indexed.requested (h : s.Indexed) (ha : s.Listed a) : (requested s a).Indexed := by
  unfold PiecePicker.requested
  by_cases hmem : a ∈ s.started
  · rwa [if_pos hmem]
  · rw [if_neg hmem]
    refine ⟨h.filed, h.level, h.priority, h.haves, h.total, ?_, ?_, h.got, h.done⟩
    · refine h.startedNodup.append (List.nodup_singleton a) ?_
      intro b hb hba
      exact hmem (List.mem_singleton.mp hba ▸ hb)
    · intro b hb
      rcases List.mem_append.mp hb with hb | hb
      · exact h.startedListed b hb
      · exact List.mem_singleton.mp hb ▸ ha

/-- A listed piece leaves the rows and the list of the pieces that are started. -/
theorem removeFromInterests_eq (hf : Filed s.interests tier' s.posInInterests)
    (ha : tier' a = some k) (hk : s.levelInInterests a = k) (keepPartial : Bool) :
    ∃ rows pos partials, removeFromInterests s a keepPartial = .ok { s.relocated rows pos with
        started := s.started.erase a
        removedPartials := partials } ∧ Filed rows (Function.update tier' a none) pos := by
  obtain ⟨row, hrow⟩ := hf.exists_row ha
  have hlt : k < s.interests.length := (List.getElem?_eq_some_iff.mp hrow).1
  obtain ⟨rows, pos, htake, -, hf'⟩ := takeOut_eq hf ha
  unfold removeFromInterests
  rw [hk, rowAt_natCast hlt, PyExcept.ok_bind, htake, PyExcept.ok_bind]
  by_cases hmem : a ∈ s.started
  · rw [if_pos (show a ∈ (s.relocated rows pos).started from hmem)]
    exact ⟨rows, pos, _, rfl, hf'⟩
  · rw [if_neg (show ¬ a ∈ (s.relocated rows pos).started from hmem)]
    refine ⟨rows, pos, s.removedPartials, ?_, hf'⟩
    rw [List.erase_of_not_mem hmem]
    rfl

theorem tier_of_cleared (hlevel : t.levelInInterests = s.levelInInterests) (ha : ¬ t.Listed a)
    (hother : ∀ b, b ≠ a → (t.Listed b ↔ s.Listed b)) : t.tier = Function.update s.tier a none := by
  funext b
  by_cases hb : b = a
  · subst hb
    rw [Function.update_self, tier_of_not_listed ha]
  · rw [Function.update_of_ne hb]
    by_cases hs : s.Listed b
    · rw [tier_of_listed hs, tier_of_listed ((hother b hb).mpr hs), hlevel]
    · rw [tier_of_not_listed hs, tier_of_not_listed ((hother b hb).not.mpr hs)]

theorem Indexed.natLevel (h : s.Indexed) (ha : s.Listed a) :
    ∃ k : Nat, s.levelInInterests a = k ∧ s.tier a = some k := by
  obtain ⟨k, hk⟩ := Int.eq_ofNat_of_zero_le (h.level_nonneg ha)
  exact ⟨k, hk, by rw [tier_of_listed ha, hk, Int.toNat_natCast]⟩

theorem mem_erase_started (h : s.Indexed) {b : Fin n} (hb : b ∈ s.started.erase a) : b ≠ a ∧ b ∈ s.started :=
  h.startedNodup.mem_erase_iff.mp hb

theorem complete_spec (h : s.Indexed) (ha : s.Listed a) :
    ∃ t, complete s a = .ok t ∧ t.Indexed ∧ t.numhaves = s.numhaves ∧ t.priority = s.priority ∧
      t.has = Function.update s.has a true ∧ t.seedsConnected = s.seedsConnected := by
  obtain ⟨k, hk, htier⟩ := h.natLevel ha
  obtain ⟨rows, pos, partials, hrun, hf⟩ := removeFromInterests_eq
    (s := { s with
      has := Function.update s.has a true
      numgot := s.numgot + 1
      done := s.done || s.numgot + 1 == n }) h.filed htier hk false
  unfold PiecePicker.complete
  rw [if_neg (by rw [ha.1]; exact Bool.false_ne_true), hrun]
  refine ⟨_, rfl, ⟨?_, ?_, h.priority, h.haves, h.total, h.startedNodup.erase a, ?_, ?_, ?_⟩, rfl, rfl, rfl, rfl⟩
  · rw [tier_of_cleared (s := s) (a := a)]
    · exact hf
    · rfl
    · rw [not_listed_iff]
      have hhas : Function.update s.has a true a = true := Function.update_self a true s.has
      exact .inl hhas
    · intro b hb
      unfold Listed
      change Function.update s.has a true b = false ∧ _ ↔ _
      rw [Function.update_of_ne hb]
      rfl
  · intro b hb
    refine h.level b ⟨?_, hb.2⟩
    have hhas : Function.update s.has a true b = false := hb.1
    by_cases hba : b = a
    · subst hba
      rw [Function.update_self] at hhas
      exact absurd hhas.symm Bool.false_ne_true
    · rwa [Function.update_of_ne hba] at hhas
  · intro b hb
    obtain ⟨hne, hmem⟩ := mem_erase_started h hb
    have hlisted := h.startedListed b hmem
    refine ⟨?_, hlisted.2⟩
    change Function.update s.has a true b = false
    rw [Function.update_of_ne hne]
    exact hlisted.1
  · change s.numgot + 1 = (Finset.univ.filter fun b => Function.update s.has a true b = true).card
    have hinsert : (Finset.univ.filter fun b => Function.update s.has a true b = true) =
        insert a (Finset.univ.filter fun b => s.has b = true) := by
      ext b
      rw [Finset.mem_insert, Finset.mem_filter, Finset.mem_filter]
      by_cases hba : b = a
      · subst hba
        simp
      · rw [Function.update_of_ne hba]
        exact ⟨.inr, fun hb => hb.resolve_left hba⟩
    rw [hinsert, Finset.card_insert_of_notMem, h.got]
    intro hbad
    exact absurd (ha.1.symm.trans (Finset.mem_filter.mp hbad).2) Bool.false_ne_true
  · intro hdone
    have hcases : s.done = true ∨ s.numgot + 1 = n := by
      have hor : (s.done || s.numgot + 1 == n) = true := hdone
      rwa [Bool.or_eq_true, beq_iff_eq] at hor
    change s.numgot + 1 = n
    rcases hcases with hbad | heq
    · exact absurd ((h.not_done ha).symm.trans hbad) Bool.false_ne_true
    · exact heq

/-! ### Priorities -/

theorem tier_eq_update (h : ∀ b, b ≠ a → t.tier b = s.tier b) : t.tier = Function.update s.tier a (t.tier a) := by
  funext b
  by_cases hb : b = a
  · subst hb
    rw [Function.update_self]
  · rw [Function.update_of_ne hb, h b hb]

/-- `t` is `s` after the priority of a piece became `p`, as far as the index does not tell. -/
structure Reprioritised (s t : PiecePicker n) (a : Fin n) (p : Int) : Prop where
  has : t.has = s.has
  priority : t.priority = Function.update s.priority a p
  numhaves : t.numhaves = s.numhaves
  totalcount : t.totalcount = s.totalcount
  priorityStep : t.priorityStep = s.priorityStep
  numgot : t.numgot = s.numgot
  done : t.done = s.done
  seedsConnected : t.seedsConnected = s.seedsConnected
  level : ∀ b, b ≠ a → t.levelInInterests b = s.levelInInterests b

namespace Reprioritised

theorem listed_iff (hr : Reprioritised s t a p) (hb : b ≠ a) : t.Listed b ↔ s.Listed b := by
  unfold Listed
  rw [hr.has, hr.priority, Function.update_of_ne hb]

theorem listed_self (hr : Reprioritised s t a p) : t.Listed a ↔ s.has a = false ∧ p ≠ -1 := by
  unfold Listed
  rw [hr.has, hr.priority, Function.update_self]

theorem tier_of_ne (hr : Reprioritised s t a p) (b : Fin n) (hb : b ≠ a) : t.tier b = s.tier b := by
  unfold tier
  rw [hr.has, hr.priority, Function.update_of_ne hb, hr.level b hb]

theorem indexed (hr : Reprioritised s t a p) (h : s.Indexed) (hp : -1 ≤ p)
    (hf : Filed t.interests t.tier t.posInInterests)
    (hown : t.Listed a → t.levelInInterests a = s.numhaves a + s.priorityStep * p)
    (hnodup : t.started.Nodup) (hstarted : ∀ b ∈ t.started, t.Listed b) : t.Indexed where
  filed := hf
  level := by
    intro b hb
    rw [hr.numhaves, hr.priorityStep, hr.priority]
    by_cases hba : b = a
    · subst hba
      rw [Function.update_self]
      exact hown hb
    · rw [Function.update_of_ne hba, hr.level b hba]
      exact h.level b ((hr.listed_iff hba).mp hb)
  priority := by
    intro b
    rw [hr.priority]
    by_cases hba : b = a
    · subst hba
      rwa [Function.update_self]
    · rw [Function.update_of_ne hba]
      exact h.priority b
  haves := fun b => hr.numhaves ▸ h.haves b
  total := by rw [hr.totalcount, hr.numhaves, h.total]
  startedNodup := hnodup
  startedListed := hstarted
  got := by rw [hr.numgot, hr.has, h.got]
  done := by rw [hr.done, hr.numgot]; exact h.done

/-- A piece that is not listed before and after stays out of the rows. -/
theorem unlisted (hr : Reprioritised s t a p) (h : s.Indexed) (hp : -1 ≤ p) (hs : ¬ s.Listed a) (ht : ¬ t.Listed a)
    (hrows : t.interests = s.interests) (hpos : t.posInInterests = s.posInInterests)
    (hstarted : t.started = s.started) : t.Indexed := by
  refine hr.indexed h hp ?_ (fun hbad => absurd hbad ht) (hstarted ▸ h.startedNodup) ?_
  · have htier : t.tier = s.tier := by
      rw [tier_eq_update hr.tier_of_ne, tier_of_not_listed ht, ← tier_of_not_listed hs, Function.update_eq_self]
    rw [htier, hrows, hpos]
    exact h.filed
  · intro b hb
    have hlisted := h.startedListed b (hstarted ▸ hb)
    have hba : b ≠ a := by
      rintro rfl
      exact hs hlisted
    exact (hr.listed_iff hba).mpr hlisted

/-- A piece that is listed afterwards stands in the row of its new level. -/
theorem listed (hr : Reprioritised s t a p) (h : s.Indexed) (hp : -1 ≤ p) (ht : t.Listed a)
    (hlevel : t.levelInInterests a = k) (hk : s.numhaves a + s.priorityStep * p = k)
    (hf : Filed t.interests (Function.update s.tier a (some k)) t.posInInterests)
    (hnodup : t.started.Nodup) (hstarted : ∀ b ∈ t.started, b = a ∨ b ∈ s.started) : t.Indexed := by
  refine hr.indexed h hp ?_ (fun _ => hlevel.trans hk.symm) hnodup ?_
  · rw [tier_eq_update hr.tier_of_ne, tier_of_listed ht, hlevel, Int.toNat_natCast]
    exact hf
  · intro b hb
    by_cases hba : b = a
    · subst hba
      exact ht
    · exact (hr.listed_iff hba).mpr (h.startedListed b ((hstarted b hb).resolve_left hba))

end Reprioritised

theorem filed_withRow (hf : Filed s.interests tier' s.posInInterests) (d : Int) :
    Filed (withRow s d).interests tier' (withRow s d).posInInterests := hf.addRows _

theorem lt_length_withRow (s : PiecePicker n) (k : Nat) : k < (withRow s k).interests.length := by
  change k < (s.interests ++ List.replicate ((k : Int) + 1 - s.interests.length).toNat []).length
  rw [List.length_append, List.length_replicate]
  omega

theorem leveled_priority (s : PiecePicker n) (a : Fin n) (p level : Int) : (s.leveled a p level).priority a = p := by
  change Function.update s.priority a p a = p
  rw [Function.update_self]

theorem leveled_level (s : PiecePicker n) (a : Fin n) (p level : Int) :
    (s.leveled a p level).levelInInterests a = level := by
  change Function.update s.levelInInterests a level a = level
  rw [Function.update_self]

theorem reprioritised_leveled (s : PiecePicker n) (a : Fin n) (p level row : Int) (rows : List (List (Fin n)))
    (pos : Fin n → Nat) (started : List (Fin n)) (partials : Fin n → Bool) :
    Reprioritised s { ((s.leveled a p level).withRow row).relocated rows pos with
      started := started
      removedPartials := partials } a p :=
  ⟨rfl, rfl, rfl, rfl, rfl, rfl, rfl, rfl, fun _ hb => Function.update_of_ne hb _ _⟩

theorem setPriority_spec (h : s.Indexed) (random : Nat) (a : Fin n) (hp : -1 ≤ p) :
    ∃ r t, setPriority s random a p = .ok (r, t) ∧ t.Indexed ∧ Reprioritised s t a p := by
  unfold setPriority
  by_cases hsame : s.priority a = p
  · rw [if_pos hsame]
    refine ⟨false, s, rfl, h, ⟨rfl, ?_, rfl, rfl, rfl, rfl, rfl, rfl, fun _ _ => rfl⟩⟩
    rw [← hsame, Function.update_eq_self]
  · rw [if_neg hsame]
    by_cases hblock : p = -1
    · rw [if_pos hblock]
      subst hblock
      cases hhas : s.has a with
      | true =>
        rw [if_pos rfl]
        have hr : Reprioritised s { s with priority := Function.update s.priority a (-1) } a (-1) :=
          ⟨rfl, rfl, rfl, rfl, rfl, rfl, rfl, rfl, fun _ _ => rfl⟩
        refine ⟨true, _, rfl, hr.unlisted h hp (not_listed_iff.mpr (.inl hhas)) ?_ rfl rfl rfl, hr⟩
        rw [hr.listed_self]
        exact fun hbad => hbad.2 rfl
      | false =>
        rw [if_neg Bool.false_ne_true]
        have ha : s.Listed a := ⟨hhas, fun hbad => hsame hbad⟩
        obtain ⟨k, hk, htier⟩ := h.natLevel ha
        obtain ⟨rows, pos, partials, hrun, hf⟩ := removeFromInterests_eq
          (s := { s with priority := Function.update s.priority a (-1) }) h.filed htier hk true
        rw [hrun]
        have hr : Reprioritised s { ({ s with priority := Function.update s.priority a (-1) } : PiecePicker n).relocated rows pos with
            started := s.started.erase a
            removedPartials := partials } a (-1) := ⟨rfl, rfl, rfl, rfl, rfl, rfl, rfl, rfl, fun _ _ => rfl⟩
        have hout := hr.listed_self.not.mpr fun hbad => hbad.2 rfl
        refine ⟨true, _, rfl, hr.indexed h hp ?_ (fun hbad => absurd hbad hout) (h.startedNodup.erase a) ?_, hr⟩
        · rw [tier_eq_update hr.tier_of_ne, tier_of_not_listed hout]
          exact hf
        · intro b hb
          obtain ⟨hne, hmem⟩ := mem_erase_started h hb
          exact (hr.listed_iff hne).mpr (h.startedListed b hmem)
    · rw [if_neg hblock]
      have hstep : 0 ≤ (s.priorityStep : Int) * p := Int.mul_nonneg (Int.natCast_nonneg _) (by omega)
      have hcount := h.haves a
      obtain ⟨k, hk⟩ := Int.eq_ofNat_of_zero_le (show 0 ≤ s.numhaves a + s.priorityStep * p by omega)
      by_cases hold : s.priority a = -1
      · rw [if_pos hold]
        have hs : ¬ s.Listed a := not_listed_iff.mpr (.inr hold)
        dsimp only
        cases hhas : s.has a with
        | true =>
          rw [if_pos rfl]
          have hr : Reprioritised s (s.leveled a p (s.numhaves a + s.priorityStep * p)) a p :=
            ⟨rfl, rfl, rfl, rfl, rfl, rfl, rfl, rfl, fun b hb => Function.update_of_ne hb _ _⟩
          refine ⟨true, _, rfl, hr.unlisted h hp hs ?_ rfl rfl rfl, hr⟩
          rw [hr.listed_self, hhas]
          exact fun hbad => absurd hbad.1.symm Bool.false_ne_true
        | false =>
          rw [if_neg Bool.false_ne_true, hk]
          have hout := tier_of_not_listed hs
          obtain ⟨rows, pos, hput, -, hf⟩ := putIn_eq (s := (s.leveled a p k).withRow k)
            (filed_withRow (s := s.leveled a p k) h.filed k) hout (lt_length_withRow _ k)
            (Nat.le_of_lt_succ (Nat.mod_lt random (Nat.succ_pos _)))
          rw [rowAt_natCast (lt_length_withRow _ k), PyExcept.ok_bind, hput, PyExcept.ok_bind]
          have hlisted : s.has a = false ∧ p ≠ -1 := ⟨hhas, hblock⟩
          have hfresh : a ∉ s.started := fun hbad => hs (h.startedListed a hbad)
          have hlevel := leveled_level s a p k
          have hr := reprioritised_leveled s a p k k rows pos
          by_cases hpartial : s.removedPartials a = true
          · refine ⟨true, _, if_pos hpartial, (hr (s.started ++ [a]) _).listed h hp ((hr _ _).listed_self.mpr hlisted) hlevel hk
              hf ?_ ?_, hr _ _⟩
            · rw [← List.concat_eq_append]
              exact h.startedNodup.concat hfresh
            · intro b hb
              rcases List.mem_append.mp hb with hb | hb
              · exact .inr hb
              · exact .inl (List.mem_singleton.mp hb)
          · exact ⟨true, _, if_neg hpartial, (hr s.started s.removedPartials).listed h hp ((hr _ _).listed_self.mpr hlisted)
              hlevel hk hf h.startedNodup fun b hb => .inr hb, hr _ _⟩
      · rw [if_neg hold]
        dsimp only
        cases hhas : s.has a with
        | true =>
          rw [if_pos rfl]
          have hr : Reprioritised s (s.leveled a p (s.levelInInterests a + (p - s.priority a) * s.priorityStep)) a p :=
            ⟨rfl, rfl, rfl, rfl, rfl, rfl, rfl, rfl, fun b hb => Function.update_of_ne hb _ _⟩
          refine ⟨false, _, rfl, hr.unlisted h hp (not_listed_iff.mpr (.inl hhas)) ?_ rfl rfl rfl, hr⟩
          rw [hr.listed_self, hhas]
          exact fun hbad => absurd hbad.1.symm Bool.false_ne_true
        | false =>
          rw [if_neg Bool.false_ne_true]
          have hs : s.Listed a := ⟨hhas, hold⟩
          obtain ⟨l, hl, htier⟩ := h.natLevel hs
          have hnew : s.levelInInterests a + (p - s.priority a) * s.priorityStep = k := by
            have hlevel := h.level a hs
            have hmul : (p - s.priority a) * s.priorityStep = s.priorityStep * p - s.priorityStep * s.priority a := by
              rw [Int.sub_mul, Int.mul_comm p, Int.mul_comm (s.priority a)]
            omega
          rw [hnew, hl]
          have hr := reprioritised_leveled s a p k k
          have hlisted := (hr s.interests s.posInInterests s.started s.removedPartials).listed_self.mpr ⟨hhas, hblock⟩
          obtain ⟨rows, pos, hshift, -, hf⟩ := shiftOver_eq (s := (s.leveled a p k).withRow k)
            (filed_withRow (s := s.leveled a p k) h.filed k) htier (lt_length_withRow _ k) hlisted (hp.trans_eq (leveled_priority s a p k).symm)
          rw [hshift, PyExcept.ok_bind]
          exact ⟨false, _, rfl, (hr rows pos s.started s.removedPartials).listed h hp
            ((hr _ _ _ _).listed_self.mpr ⟨hhas, hblock⟩) (leveled_level s a p k) hk hf h.startedNodup fun b hb => .inr hb,
            hr rows pos s.started s.removedPartials⟩

theorem bump_spec (h : s.Indexed) (ha : s.Listed a) :
    ∃ t, bump s a = .ok t ∧ t.Indexed ∧ t.numhaves = s.numhaves ∧ t.priority = s.priority ∧ t.has = s.has ∧
      t.seedsConnected = s.seedsConnected := by
  obtain ⟨k, hk, htier⟩ := h.natLevel ha
  obtain ⟨row, hrow⟩ := h.filed.exists_row htier
  have hlt : k < s.interests.length := (List.getElem?_eq_some_iff.mp hrow).1
  have hpos : s.posInInterests a < row.length := (List.getElem?_eq_some_iff.mp (h.filed.getElem? hrow htier)).1
  have hrowD : s.interests.getD k [] = row := by rw [List.getD_eq_getElem?_getD, hrow, Option.getD_some]
  unfold PiecePicker.bump
  rw [hk, rowAt_natCast hlt, PyExcept.ok_bind]
  dsimp only
  rw [hrowD, if_neg (Nat.not_le_of_lt hpos)]
  refine ⟨_, rfl, ⟨h.filed.renumbered hrow htier, h.level, h.priority, h.haves, h.total, h.startedNodup.erase a, ?_, h.got, h.done⟩,
    rfl, rfl, rfl, rfl⟩
  intro b hb
  exact h.startedListed b (mem_erase_started h hb).2

/-! ### The start -/

theorem new_indexed (cutoff priorityCutoff step : Nat) {shuffled : List (Fin n)}
    (hnodup : shuffled.Nodup) (hall : ∀ a, a ∈ shuffled) : (new cutoff priorityCutoff step shuffled).Indexed where
  filed := by
    intro a t i
    have hlen : (List.replicate step ([] : List (Fin n))).length = step := List.length_replicate
    have htier : (new cutoff priorityCutoff step shuffled).tier a = some step := by
      rw [tier_of_listed ⟨rfl, (by decide : (1 : Int) ≠ -1)⟩]
      exact congrArg some (Int.toNat_natCast step)
    obtain ⟨j, hj⟩ := List.mem_iff_getElem?.mp (hall a)
    have hpos : (new cutoff priorityCutoff step shuffled).posInInterests a = j :=
      (Rows.renumber_of_getElem? hnodup hj 0 _).trans (Nat.zero_add j)
    have hrow : (List.replicate step [] ++ [shuffled])[step]? = some shuffled := by
      rw [List.getElem?_append_right (by rw [hlen]), hlen, Nat.sub_self, List.getElem?_cons_zero]
    rw [htier, hpos, Option.some.injEq]
    change Rows.at? (List.replicate step [] ++ [shuffled]) t i = some a ↔ _
    constructor
    · intro hat
      obtain ⟨row, hr, hi⟩ := Option.bind_eq_some_iff.mp hat
      by_cases ht : t < step
      · rw [List.getElem?_append_left (by rwa [hlen]), List.getElem?_replicate, if_pos ht] at hr
        rw [← Option.some.inj hr] at hi
        exact absurd hi.symm (Option.some_ne_none a)
      · have hle := (List.getElem?_eq_some_iff.mp hr).1
        rw [List.length_append, hlen, List.length_singleton] at hle
        obtain rfl : step = t := by omega
        obtain rfl := Option.some.inj (hrow.symm.trans hr)
        exact ⟨rfl, (List.getElem?_inj (List.getElem?_eq_some_iff.mp hj).1 hnodup).mp (hj.trans hi.symm)⟩
    · rintro ⟨rfl, rfl⟩
      rw [Rows.at?_of_row hrow, hj]
  level := fun a _ => by
    change (step : Int) = 0 + step * 1
    omega
  priority := fun _ => (by decide : (-1 : Int) ≤ 1)
  haves := fun _ => Int.le_refl 0
  total := by
    change (0 : Int) = ∑ _a : Fin n, 0
    rw [Finset.sum_const_zero]
  startedNodup := List.nodup_nil
  startedListed := fun _ h => absurd h List.not_mem_nil
  got := by
    change 0 = (Finset.univ.filter fun _ : Fin n => false = true).card
    rw [Finset.filter_false_of_mem fun _ _ => Bool.false_ne_true, Finset.card_empty]
  done := fun h => absurd h Bool.false_ne_true

/-! ### The choice of a piece -/

/-- A piece that the peer has and we want. -/
def Wanted (haves wantfunc : Fin n → Bool) (a : Fin n) : Prop := haves a = true ∧ wantfunc a = true

variable {haves wantfunc : Fin n → Bool} {started : List (Fin n)} {lo hi : Int} {whole completeFirst : Bool} {j : Fin n}

/-- What is known of the best piece so far: it is wanted and its level is the best one. -/
def BestOf (s : PiecePicker n) (haves wantfunc : Fin n → Bool) (found : Option (Fin n) × Int) : Prop :=
  match found.1 with
  | some b => Wanted haves wantfunc b ∧ s.levelInInterests b = found.2 ∧ b ∈ s.started
  | none => found.2 = 2 ^ 30

theorem bestStarted_spec (hsub : ∀ b ∈ started, b ∈ s.started) {best : Option (Fin n)} {bestnum : Int}
    (h : BestOf s haves wantfunc (best, bestnum)) :
    BestOf s haves wantfunc (bestStarted s haves wantfunc started best bestnum) ∧
      (bestStarted s haves wantfunc started best bestnum).2 ≤ bestnum ∧
      ∀ b ∈ started, Wanted haves wantfunc b →
        (bestStarted s haves wantfunc started best bestnum).2 ≤ s.levelInInterests b := by
  induction started generalizing best bestnum with
  | nil => exact ⟨h, Int.le_refl _, fun _ hb => absurd hb List.not_mem_nil⟩
  | cons i started ih =>
    have htail : ∀ b ∈ started, b ∈ s.started := fun b hb => hsub b (List.mem_cons_of_mem i hb)
    rw [bestStarted]
    by_cases hi : (haves i && wantfunc i && decide (s.levelInInterests i < bestnum)) = true
    · rw [if_pos hi]
      rw [Bool.and_eq_true, Bool.and_eq_true, decide_eq_true_eq] at hi
      have hstart : BestOf s haves wantfunc (some i, s.levelInInterests i) := ⟨hi.1, rfl, hsub i List.mem_cons_self⟩
      obtain ⟨hspec, hle, hall⟩ := ih htail hstart
      refine ⟨hspec, by omega, fun b hb hw => ?_⟩
      rcases List.mem_cons.mp hb with rfl | hb
      · exact hle
      · exact hall b hb hw
    · rw [if_neg hi]
      obtain ⟨hspec, hle, hall⟩ := ih htail h
      refine ⟨hspec, hle, fun b hb hw => ?_⟩
      rcases List.mem_cons.mp hb with rfl | hb
      · have hnot : ¬ s.levelInInterests b < bestnum := by
          intro hbad
          refine hi ?_
          rw [hw.1, hw.2, decide_eq_true hbad]
          rfl
        omega
      · exact hall b hb hw

theorem Indexed.of_mem_row (h : s.Indexed) {t : Nat} {row : List (Fin n)} (hrow : s.interests[t]? = some row) (ha : a ∈ row) :
    s.Listed a ∧ s.levelInInterests a = t := by
  have htier := (h.filed.mem_iff hrow).mp ha
  have hlisted : s.Listed a := by
    by_contra hbad
    exact Option.some_ne_none _ (htier.symm.trans (tier_of_not_listed hbad))
  have hlevel := Option.some.inj ((tier_of_listed hlisted).symm.trans htier)
  have := h.level_nonneg hlisted
  exact ⟨hlisted, by omega⟩

theorem Indexed.mem_rows_iff (h : s.Indexed) (lo hi : Int) :
    j ∈ ((s.interests.take hi.toNat).drop lo.toNat).flatten ↔
      s.Listed j ∧ lo ≤ s.levelInInterests j ∧ s.levelInInterests j < hi := by
  rw [List.mem_flatten]
  constructor
  · rintro ⟨row, hrow, hj⟩
    obtain ⟨t, ht⟩ := List.mem_iff_getElem?.mp hrow
    rw [List.getElem?_drop, List.getElem?_take] at ht
    split at ht
    · rename_i hlt
      obtain ⟨hlisted, hlevel⟩ := h.of_mem_row ht hj
      exact ⟨hlisted, by omega, by omega⟩
    · exact absurd ht.symm (Option.some_ne_none row)
  · rintro ⟨hlisted, hlo, hhi⟩
    obtain ⟨k, hk, htier⟩ := h.natLevel hlisted
    obtain ⟨row, hrow⟩ := h.filed.exists_row htier
    refine ⟨row, ?_, (h.filed.mem_iff hrow).mpr htier⟩
    refine List.mem_iff_getElem?.mpr ⟨k - lo.toNat, ?_⟩
    rw [List.getElem?_drop, List.getElem?_take, Nat.add_sub_cancel' (by omega), if_pos (by omega), hrow]

/-- The rows stand in the order of the levels. -/
theorem Indexed.levels_sorted (h : s.Indexed) :
    s.interests.flatten.Pairwise fun a b => s.levelInInterests a ≤ s.levelInInterests b := by
  rw [List.pairwise_flatten]
  constructor
  · intro row hrow
    obtain ⟨t, ht⟩ := List.mem_iff_getElem?.mp hrow
    refine List.pairwise_of_forall_mem_list ?_
    intro a ha b hb
    rw [(h.of_mem_row ht ha).2, (h.of_mem_row ht hb).2]
  · rw [List.pairwise_iff_getElem]
    intro t u ht hu htu a ha b hb
    rw [(h.of_mem_row (List.getElem?_eq_getElem ht) ha).2, (h.of_mem_row (List.getElem?_eq_getElem hu) hb).2]
    omega

/-- What the rows from `lo` on and before `hi` give: a wanted piece with the lowest level there. -/
theorem Indexed.firstWanted_some (h : s.Indexed) (hj : firstWanted s haves wantfunc lo hi = some j) :
    s.Listed j ∧ Wanted haves wantfunc j ∧ lo ≤ s.levelInInterests j ∧ s.levelInInterests j < hi ∧
      ∀ k, s.Listed k → Wanted haves wantfunc k → lo ≤ s.levelInInterests k → s.levelInInterests j ≤ s.levelInInterests k := by
  obtain ⟨hw, before, after, hsplit, hno⟩ := List.find?_eq_some_iff_append.mp hj
  have hmem : j ∈ ((s.interests.take hi.toNat).drop lo.toNat).flatten := by
    rw [hsplit]
    exact List.mem_append_right before List.mem_cons_self
  obtain ⟨hlisted, hlo, hhi⟩ := (h.mem_rows_iff lo hi).mp hmem
  refine ⟨hlisted, Bool.and_eq_true_iff.mp hw, hlo, hhi, fun k hk hkw hklo => ?_⟩
  by_cases hkhi : s.levelInInterests k < hi
  · have hkmem := (h.mem_rows_iff lo hi).mpr ⟨hk, hklo, hkhi⟩
    have hsub := (List.drop_sublist lo.toNat _).trans (List.take_sublist hi.toNat s.interests)
    have hsorted := h.levels_sorted.sublist hsub.flatten
    rw [hsplit] at hkmem hsorted
    rcases List.mem_append.mp hkmem with hbad | hkmem
    · have hfalse := hno k hbad
      rw [hkw.1, hkw.2] at hfalse
      exact absurd hfalse (by decide)
    · rcases List.mem_cons.mp hkmem with rfl | hkmem
      · exact Int.le_refl _
      · exact (List.pairwise_cons.mp (List.pairwise_append.mp hsorted).2.1).1 k hkmem
  · omega

theorem Indexed.firstWanted_none (h : s.Indexed) (hj : firstWanted s haves wantfunc lo hi = none) {k : Fin n}
    (hk : s.Listed k) (hkw : Wanted haves wantfunc k) (hlo : lo ≤ s.levelInInterests k) : hi ≤ s.levelInInterests k := by
  by_contra hhi
  have hfalse := List.find?_eq_none.mp hj k ((h.mem_rows_iff lo hi).mpr ⟨hk, hlo, by omega⟩)
  rw [hkw.1, hkw.2] at hfalse
  exact hfalse rfl

theorem Indexed.level_lt (h : s.Indexed) (ha : s.Listed a) : s.levelInInterests a < s.interests.length := by
  obtain ⟨k, hk, htier⟩ := h.natLevel ha
  obtain ⟨row, hrow⟩ := h.filed.exists_row htier
  have := (List.getElem?_eq_some_iff.mp hrow).1
  omega

/-- The rows below the level of the best started piece, and then that piece. -/
theorem Indexed.found_or_best (h : s.Indexed) (haves wantfunc : Fin n → Bool) :
    match (firstWanted s haves wantfunc 0 (min (bestStarted s haves wantfunc s.started none (2 ^ 30)).2 s.interests.length)).or
        (bestStarted s haves wantfunc s.started none (2 ^ 30)).1 with
    | some j => s.Listed j ∧ Wanted haves wantfunc j ∧
        ∀ k, s.Listed k → Wanted haves wantfunc k → s.levelInInterests j ≤ s.levelInInterests k
    | none => ∀ k, s.Listed k → Wanted haves wantfunc k → 2 ^ 30 ≤ s.levelInInterests k := by
  have hstart : BestOf s haves wantfunc (none, 2 ^ 30) := rfl
  obtain ⟨hbest, -, -⟩ := bestStarted_spec (fun _ hb => hb) hstart
  cases hfound : firstWanted s haves wantfunc 0
      (min (bestStarted s haves wantfunc s.started none (2 ^ 30)).2 s.interests.length) with
  | some j =>
    obtain ⟨hlisted, hw, -, -, hmin⟩ := h.firstWanted_some hfound
    exact ⟨hlisted, hw, fun k hk hkw => hmin k hk hkw (h.level_nonneg hk)⟩
  | none =>
    have hrest : ∀ k, s.Listed k → Wanted haves wantfunc k →
        (bestStarted s haves wantfunc s.started none (2 ^ 30)).2 ≤ s.levelInInterests k := by
      intro k hk hkw
      have := h.firstWanted_none hfound hk hkw (h.level_nonneg hk)
      have := h.level_lt hk
      omega
    unfold BestOf at hbest
    cases hb : (bestStarted s haves wantfunc s.started none (2 ^ 30)).1 with
    | some b =>
      rw [hb] at hbest
      obtain ⟨hw, hlevel, hmem⟩ := hbest
      refine ⟨h.startedListed b hmem, hw, fun k hk hkw => ?_⟩
      rw [hlevel]
      exact hrest k hk hkw
    | none =>
      rw [hb] at hbest
      intro k hk hkw
      rw [← hbest]
      exact hrest k hk hkw

theorem next_of_grown (hgrown : s.rarestFirstCutoff ≤ s.numgot) (hfirst : completeFirst = false ∨ whole = true) :
    next s haves whole wantfunc completeFirst =
      (firstWanted s haves wantfunc 0 (min (bestStarted s haves wantfunc s.started none (2 ^ 30)).2 s.interests.length)).or
        (bestStarted s haves wantfunc s.started none (2 ^ 30)).1 := by
  have hearly : decide (s.numgot < s.rarestFirstCutoff) = false := decide_eq_false (Nat.not_lt_of_le hgrown)
  have hno : (completeFirst && !whole) = false := by
    rcases hfirst with rfl | rfl
    · rfl
    · rw [Bool.not_true, Bool.and_false]
  unfold next
  simp only [hearly, hno, Bool.false_and, Bool.or_false, Bool.and_false, Bool.false_eq_true, if_false, ite_self]

/-- Whatever the mode, a piece that is picked is one that the peer has and we want. -/
theorem Indexed.next_listed (h : s.Indexed) (hj : next s haves whole wantfunc completeFirst = some j) :
    s.Listed j ∧ Wanted haves wantfunc j := by
  have hstart : BestOf s haves wantfunc (none, 2 ^ 30) := rfl
  obtain ⟨hbest, -, -⟩ := bestStarted_spec (fun _ hb => hb) hstart
  have hown : (bestStarted s haves wantfunc s.started none (2 ^ 30)).1 = some j → s.Listed j ∧ Wanted haves wantfunc j := by
    intro hb
    unfold BestOf at hbest
    rw [hb] at hbest
    exact ⟨h.startedListed j hbest.2.2, hbest.1⟩
  have hrows : ∀ {lo hi}, firstWanted s haves wantfunc lo hi = some j → s.Listed j ∧ Wanted haves wantfunc j := by
    intro lo hi hfound
    obtain ⟨hlisted, hw, -⟩ := h.firstWanted_some hfound
    exact ⟨hlisted, hw⟩
  unfold next at hj
  simp only at hj
  split at hj
  · exact hown hj
  · rcases Option.or_eq_some_iff.mp hj with hj | ⟨-, hj⟩
    · split at hj
      · exact hrows hj
      · split at hj
        · rcases Option.or_eq_some_iff.mp hj with hj | ⟨-, hj⟩
          · exact hrows hj
          · exact hrows hj
        · exact hrows hj
    · exact hown hj

end BitBlinder.PiecePicker
