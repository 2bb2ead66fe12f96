import Mathlib.Data.List.AList
import Mathlib.Data.List.Sort
import BitBlinder.ACoin

/-!
# The wallet's coins by interval

The dictionary `ACoins` of `core/bank/Bank.py`. A set of coins is the list of
its members in the order of insertion; a set holds no two coins that Python
takes for equal, and only coins of the interval it is stored under. The loops
that pick coins out of the wallet follow the order in which they meet them.
-/

namespace BitBlinder.Client

set_option autoImplicit false

/-- `coin in coins`, for a list or a set of coins. -/
def Among (coin : ACoin) (coins : List ACoin) : Prop := coin.key ∈ coins.map ACoin.key

instance (coin : ACoin) (coins : List ACoin) : Decidable (Among coin coins) :=
  inferInstanceAs (Decidable (_ ∈ _))

theorem among_of_mem {coin : ACoin} {coins : List ACoin} (h : coin ∈ coins) : Among coin coins :=
  List.mem_map_of_mem h

@[simp] theorem not_among_nil (coin : ACoin) : ¬Among coin [] := by simp [Among]

@[simp] theorem among_append {coin : ACoin} {xs ys : List ACoin} :
    Among coin (xs ++ ys) ↔ Among coin xs ∨ Among coin ys := by
  simp only [Among, List.map_append, List.mem_append]

@[simp] theorem among_cons {coin c : ACoin} {cs : List ACoin} :
    Among coin (c :: cs) ↔ coin.key = c.key ∨ Among coin cs := by
  simp only [Among, List.map_cons, List.mem_cons]

theorem among_perm {coin : ACoin} {xs ys : List ACoin} (h : xs.Perm ys) :
    Among coin xs ↔ Among coin ys :=
  (h.map ACoin.key).mem_iff

theorem among_iff {coin : ACoin} {coins : List ACoin} :
    Among coin coins ↔ ∃ c ∈ coins, c.key = coin.key :=
  List.mem_map

theorem Among.interval_eq {coin : ACoin} {coins : List ACoin} {i : Int} (h : Among coin coins)
    (hi : ∀ c ∈ coins, c.interval = i) : coin.interval = i := by
  obtain ⟨c, hc, hkey⟩ := among_iff.mp h
  rw [← hi c hc]
  exact (congrArg (fun k => k.2.2) hkey).symm

structure Wallet where
  sets : AList fun _ : Int => List ACoin
  interval_eq : ∀ {i coins}, sets.lookup i = some coins → ∀ c ∈ coins, c.interval = i
  nodup : ∀ {i coins}, sets.lookup i = some coins → (coins.map ACoin.key).Nodup

namespace Wallet

def empty : Wallet where
  sets := ∅
  interval_eq := by simp
  nodup := by simp

/-- The set stored under an interval. -/
def coinsOf (w : Wallet) (i : Int) : List ACoin := (w.sets.lookup i).getD []

def coins (w : Wallet) : List ACoin := w.sets.entries.flatMap Sigma.snd

def sortedKeys (w : Wallet) : List Int := w.sets.keys.insertionSort (· ≤ ·)

/-- `coin in self.ACoins[coin.interval]`. -/
def Holds (w : Wallet) (coin : ACoin) : Prop := Among coin (w.coinsOf coin.interval)

instance (w : Wallet) (coin : ACoin) : Decidable (w.Holds coin) := inferInstanceAs (Decidable (Among _ _))

/-- Storing a set under an interval. -/
def put (w : Wallet) (i : Int) (coins : List ACoin) (hi : ∀ c ∈ coins, c.interval = i)
    (hnodup : (coins.map ACoin.key).Nodup) : Wallet where
  sets := w.sets.insert i coins
  interval_eq := by
    intro j cs h
    by_cases hij : j = i
    · subst hij
      rw [AList.lookup_insert] at h
      cases h
      exact hi
    · rw [AList.lookup_insert_ne hij] at h
      exact w.interval_eq h
  nodup := by
    intro j cs h
    by_cases hij : j = i
    · subst hij
      rw [AList.lookup_insert] at h
      cases h
      exact hnodup
    · rw [AList.lookup_insert_ne hij] at h
      exact w.nodup h

theorem interval_of_mem_coinsOf {w : Wallet} {i : Int} {c : ACoin} (h : c ∈ w.coinsOf i) :
    c.interval = i := by
  unfold coinsOf at h
  cases hl : w.sets.lookup i with
  | none => simp [hl] at h
  | some coins =>
    rw [hl] at h
    exact w.interval_eq hl c h

theorem nodup_coinsOf (w : Wallet) (i : Int) : ((w.coinsOf i).map ACoin.key).Nodup := by
  unfold coinsOf
  cases hl : w.sets.lookup i with
  | none => exact List.nodup_nil
  | some coins => exact w.nodup hl

def add (w : Wallet) (coin : ACoin) : Wallet :=
  if h : w.Holds coin then w
  else
    w.put coin.interval (w.coinsOf coin.interval ++ [coin])
      (by
        intro c hc
        rcases List.mem_append.mp hc with hc | hc
        · exact interval_of_mem_coinsOf hc
        · rw [List.mem_singleton.mp hc])
      (by
        rw [List.map_append, List.map_singleton, List.nodup_append]
        refine ⟨w.nodup_coinsOf _, List.nodup_singleton _, ?_⟩
        intro k hk k' hk' heq
        subst heq
        rw [List.mem_singleton.mp hk'] at hk
        exact h hk)

def remove (w : Wallet) (coin : ACoin) : Wallet :=
  w.put coin.interval ((w.coinsOf coin.interval).filter fun c => c.key ≠ coin.key)
    (fun _ hc => interval_of_mem_coinsOf (List.mem_of_mem_filter hc))
    ((w.nodup_coinsOf _).sublist (List.filter_sublist.map ACoin.key))

/-- `del self.ACoins[i]`. -/
def delete (w : Wallet) (i : Int) : Wallet where
  sets := w.sets.erase i
  interval_eq := by
    intro j cs h
    by_cases hij : j = i
    · subst hij
      simp at h
    · rw [AList.lookup_erase_ne hij] at h
      exact w.interval_eq h
  nodup := by
    intro j cs h
    by_cases hij : j = i
    · subst hij
      simp at h
    · rw [AList.lookup_erase_ne hij] at h
      exact w.nodup h

theorem coinsOf_put (w : Wallet) (i j : Int) (coins : List ACoin) (hi : ∀ c ∈ coins, c.interval = i)
    (hnodup : (coins.map ACoin.key).Nodup) :
    (w.put i coins hi hnodup).coinsOf j = if j = i then coins else w.coinsOf j := by
  unfold coinsOf put
  split
  · rename_i hij
    subst hij
    simp
  · rename_i hij
    rw [AList.lookup_insert_ne hij]

theorem coinsOf_delete (w : Wallet) (i j : Int) :
    (w.delete i).coinsOf j = if j = i then [] else w.coinsOf j := by
  unfold coinsOf delete
  split
  · rename_i hij
    subst hij
    simp
  · rename_i hij
    rw [AList.lookup_erase_ne hij]

@[simp] theorem holds_empty (coin : ACoin) : ¬empty.Holds coin := by
  simp [Holds, coinsOf, empty]

theorem holds_add {w : Wallet} {coin c : ACoin} :
    (w.add coin).Holds c ↔ c.key = coin.key ∨ w.Holds c := by
  unfold add
  split
  · rename_i hcoin
    refine ⟨Or.inr, ?_⟩
    rintro (hkey | hc)
    · have hinterval : c.interval = coin.interval := congrArg (fun k => k.2.2) hkey
      unfold Holds Among at hcoin ⊢
      rwa [hinterval, hkey]
    · exact hc
  · unfold Holds
    rw [coinsOf_put]
    split
    · rename_i hinterval
      rw [among_append, hinterval]
      simp [or_comm]
    · rename_i hinterval
      refine ⟨Or.inr, ?_⟩
      rintro (hkey | hc)
      · exact absurd (congrArg (fun k => k.2.2) hkey) hinterval
      · exact hc

theorem holds_remove {w : Wallet} {coin c : ACoin} :
    (w.remove coin).Holds c ↔ w.Holds c ∧ c.key ≠ coin.key := by
  unfold Holds remove
  rw [coinsOf_put]
  split
  · rename_i hinterval
    rw [hinterval]
    simp only [among_iff, List.mem_filter, decide_eq_true_eq]
    constructor
    · rintro ⟨d, ⟨hd, hne⟩, hkey⟩
      exact ⟨⟨d, hd, hkey⟩, hkey ▸ hne⟩
    · rintro ⟨⟨d, hd, hkey⟩, hne⟩
      exact ⟨d, ⟨hd, hkey ▸ hne⟩, hkey⟩
  · rename_i hinterval
    refine ⟨fun hc => ⟨hc, fun hkey => hinterval (congrArg (fun k => k.2.2) hkey)⟩, And.left⟩

theorem holds_delete {w : Wallet} {i : Int} {c : ACoin} :
    (w.delete i).Holds c ↔ w.Holds c ∧ c.interval ≠ i := by
  unfold Holds
  rw [coinsOf_delete]
  split
  · rename_i hi
    simp [hi]
  · rename_i hi
    simp [hi]

theorem holds_of_among_coinsOf {w : Wallet} {i : Int} {c : ACoin} (h : Among c (w.coinsOf i)) :
    w.Holds c := by
  have hi : c.interval = i := h.interval_eq fun _ hd => interval_of_mem_coinsOf hd
  unfold Holds
  rwa [hi]

theorem among_coins {w : Wallet} {c : ACoin} : Among c w.coins ↔ w.Holds c := by
  constructor
  · intro h
    obtain ⟨d, hd, hkey⟩ := among_iff.mp h
    obtain ⟨⟨i, cs⟩, hentry, hmem⟩ := List.mem_flatMap.mp hd
    have hl : w.sets.lookup i = some cs := AList.mem_lookup_iff.mpr hentry
    refine holds_of_among_coinsOf (i := i) (among_iff.mpr ⟨d, ?_, hkey⟩)
    simpa [coinsOf, hl] using hmem
  · intro h
    obtain ⟨d, hd, hkey⟩ := among_iff.mp h
    unfold coinsOf at hd
    cases hl : w.sets.lookup c.interval with
    | none => simp [hl] at hd
    | some cs =>
      rw [hl] at hd
      exact among_iff.mpr
        ⟨d, List.mem_flatMap.mpr ⟨⟨c.interval, cs⟩, AList.mem_lookup_iff.mp hl, hd⟩, hkey⟩

theorem coinsOf_remove_of_ne {w : Wallet} {coin : ACoin} {i : Int} (h : i ≠ coin.interval) :
    (w.remove coin).coinsOf i = w.coinsOf i := by
  unfold remove
  rw [coinsOf_put, if_neg h]

theorem length_coinsOf_remove {w : Wallet} {coin : ACoin} (h : w.Holds coin) :
    ((w.remove coin).coinsOf coin.interval).length + 1 = (w.coinsOf coin.interval).length := by
  unfold remove
  rw [coinsOf_put, if_pos rfl]
  -- The keys of a set are distinct, so exactly one of its coins has the key of `coin`.
  have hcount : (w.coinsOf coin.interval).countP (fun c => c.key = coin.key) = 1 := by
    have hkeys := List.count_eq_one_of_mem (w.nodup_coinsOf coin.interval) h
    rw [List.count, List.countP_map] at hkeys
    rw [← hkeys]
    exact List.countP_congr fun c _ => by simp
  have hsplit := List.length_eq_countP_add_countP (fun c : ACoin => decide (c.key = coin.key))
    (l := w.coinsOf coin.interval)
  rw [hcount, Nat.add_comm] at hsplit
  rw [hsplit, ← List.countP_eq_length_filter]
  congr 1
  exact List.countP_congr fun c _ => by simp

/-- Summing over the entries of two intervals. -/
theorem sum_two_intervals {l : List (Sigma fun _ : Int => List ACoin)} (hl : l.NodupKeys) {a b : Int}
    (hab : a ≠ b) (f : List ACoin → Nat) (hf : f [] = 0) :
    ((l.filter fun e => e.1 = a ∨ e.1 = b).map fun e => f e.2).sum =
      f ((l.dlookup a).getD []) + f ((l.dlookup b).getD []) := by
  induction l with
  | nil => simp [hf]
  | cons e l ih =>
    obtain ⟨i, coins⟩ := e
    rw [List.nodupKeys_cons] at hl
    obtain ⟨hi, hl⟩ := hl
    have hnone : l.dlookup i = none := List.dlookup_eq_none.mpr hi
    have hrest := ih hl
    by_cases hia : i = a
    · subst hia
      rw [List.filter_cons_of_pos (by simp), List.map_cons, List.sum_cons, hrest, hnone,
        List.dlookup_cons_eq, List.dlookup_cons_ne l ⟨i, coins⟩ hab.symm]
      simp [hf]
    · by_cases hib : i = b
      · subst hib
        rw [List.filter_cons_of_pos (by simp), List.map_cons, List.sum_cons, hrest, hnone,
          List.dlookup_cons_eq, List.dlookup_cons_ne l ⟨i, coins⟩ hab]
        simp [hf, Nat.add_comm]
      · rw [List.filter_cons_of_neg (by simp [hia, hib]), hrest,
          List.dlookup_cons_ne l ⟨i, coins⟩ (Ne.symm hia), List.dlookup_cons_ne l ⟨i, coins⟩ (Ne.symm hib)]

/-- Removing coins one after another, where they are held. -/
def removeAll (w : Wallet) (coins : List ACoin) : Wallet :=
  coins.foldl (fun w coin => if w.Holds coin then w.remove coin else w) w

theorem holds_removeAll {w : Wallet} {coins : List ACoin} {c : ACoin} :
    (w.removeAll coins).Holds c ↔ w.Holds c ∧ ¬Among c coins := by
  induction coins generalizing w with
  | nil => simp [removeAll]
  | cons coin coins ih =>
    have hcons : w.removeAll (coin :: coins) =
        (if w.Holds coin then w.remove coin else w).removeAll coins := rfl
    rw [hcons, ih, among_cons, not_or]
    split
    · rw [holds_remove, and_assoc]
    · rename_i hcoin
      constructor
      · rintro ⟨hc, hcoins⟩
        refine ⟨hc, fun hkey => hcoin ?_, hcoins⟩
        have hinterval : c.interval = coin.interval := congrArg (fun k => k.2.2) hkey
        unfold Holds Among at hc ⊢
        rwa [← hkey, ← hinterval]
      · rintro ⟨hc, -, hcoins⟩
        exact ⟨hc, hcoins⟩

theorem coinsOf_removeAll_of_ne {w : Wallet} {coins : List ACoin} {i : Int}
    (h : ∀ c ∈ coins, c.interval ≠ i) : (w.removeAll coins).coinsOf i = w.coinsOf i := by
  induction coins generalizing w with
  | nil => rfl
  | cons coin coins ih =>
    have hcons : w.removeAll (coin :: coins) =
        (if w.Holds coin then w.remove coin else w).removeAll coins := rfl
    rw [hcons, ih fun c hc => h c (List.mem_cons_of_mem _ hc)]
    split
    · exact coinsOf_remove_of_ne fun hi => h coin List.mem_cons_self hi.symm
    · rfl

theorem length_coinsOf_removeAll {w : Wallet} {coins : List ACoin} {i : Int}
    (hi : ∀ c ∈ coins, c.interval = i) (hnodup : (coins.map ACoin.key).Nodup)
    (hheld : ∀ c ∈ coins, w.Holds c) :
    ((w.removeAll coins).coinsOf i).length + coins.length = (w.coinsOf i).length := by
  induction coins generalizing w with
  | nil => rfl
  | cons coin coins ih =>
    rw [List.map_cons, List.nodup_cons] at hnodup
    have hcoin : w.Holds coin := hheld coin List.mem_cons_self
    have hcons : w.removeAll (coin :: coins) = (w.remove coin).removeAll coins := by
      change (if w.Holds coin then w.remove coin else w).removeAll coins = _
      rw [if_pos hcoin]
    have hrest := ih (w := w.remove coin) (fun c hc => hi c (List.mem_cons_of_mem _ hc)) hnodup.2 (by
      intro c hc
      refine holds_remove.mpr ⟨hheld c (List.mem_cons_of_mem _ hc), fun hkey => hnodup.1 ?_⟩
      rw [← hkey]
      exact List.mem_map_of_mem hc)
    have hone := length_coinsOf_remove hcoin
    rw [hi coin List.mem_cons_self] at hone
    rw [hcons, List.length_cons]
    omega

/-- What the coins collected so far are worth. -/
def coinsValue (coins : List ACoin) : Int := ACoin.VALUE * coins.length

/-- The inner loop of `get_acoins`: coins of one set, until `value` is reached. -/
def takeCoins (value : Int) : List ACoin → List ACoin → List ACoin
  | coins, [] => coins
  | coins, coin :: rest =>
    if value ≤ coinsValue (coins ++ [coin]) then coins ++ [coin]
    else takeCoins value (coins ++ [coin]) rest

/-- Whether `get_acoins` passes over an interval. `cutoff` is `sendOldACoinCutoff`, an
attribute that does not exist before the first interval is learned. -/
def passesOver (current : Int) (cutoff : Option Rat) (curTime : Rat) (key : Int) : PyExcept Bool :=
  if key < current then
    match cutoff with
    | none => .error .attributeError
    | some cutoff => .ok (decide (cutoff < curTime))
  else
    .ok false

/-- The loop of `get_acoins` over the sorted keys. -/
def gatherCoins (w : Wallet) (current : Int) (cutoff : Option Rat) (curTime : Rat)
    (iterate : List ACoin → List ACoin) (value : Int) :
    List Int → List ACoin → PyExcept (List ACoin)
  | [], coins => .ok coins
  | key :: keys, coins =>
    if key < current - 1 ∧ (w.coinsOf key).length ≠ 0 then
      .error (.assertionError "acoins from bad interval still exist")
    else
      match passesOver current cutoff curTime key with
      | .error e => .error e
      | .ok true => gatherCoins w current cutoff curTime iterate value keys coins
      | .ok false =>
        let coins := takeCoins value coins (iterate (w.coinsOf key))
        if value ≤ coinsValue coins then .ok coins
        else gatherCoins w current cutoff curTime iterate value keys coins

/-! ### What the loops of `get_acoins` return -/

/-- Coins are left under an interval before the last one. -/
def HasBadInterval (w : Wallet) (current : Int) : Prop :=
  ∃ key ∈ w.sortedKeys, key < current - 1 ∧ (w.coinsOf key).length ≠ 0

instance (w : Wallet) (current : Int) : Decidable (w.HasBadInterval current) :=
  inferInstanceAs (Decidable (∃ key ∈ _, _))

theorem mem_sortedKeys_of_ne_nil {w : Wallet} {key : Int} (h : w.coinsOf key ≠ []) : key ∈ w.sortedKeys := by
  unfold sortedKeys
  rw [List.mem_insertionSort, ← AList.mem_keys]
  by_contra hkey
  rw [← AList.lookup_eq_none] at hkey
  exact h (by simp [coinsOf, hkey])

theorem hasBadInterval_iff {w : Wallet} {current : Int} :
    w.HasBadInterval current ↔ ∃ key, key < current - 1 ∧ w.coinsOf key ≠ [] := by
  constructor
  · rintro ⟨key, -, hlt, hne⟩
    exact ⟨key, hlt, fun hnil => hne (by rw [hnil]; rfl)⟩
  · rintro ⟨key, hlt, hne⟩
    exact ⟨key, mem_sortedKeys_of_ne_nil hne, hlt, fun hzero => hne (List.length_eq_zero_iff.mp hzero)⟩

/-- The number of coins that `get_acoins` may use. -/
def eligible (w : Wallet) (current : Int) (cutoff curTime : Rat) : Nat :=
  ((w.sortedKeys.filter fun key => ¬(key < current ∧ cutoff < curTime)).map
    fun key => (w.coinsOf key).length).sum

theorem takeCoins_length_le (value : Int) (coins rest : List ACoin) :
    (takeCoins value coins rest).length ≤ coins.length + rest.length := by
  induction rest generalizing coins with
  | nil => simp [takeCoins]
  | cons coin rest ih =>
    unfold takeCoins
    split
    · simp
    · have hrest := ih (coins ++ [coin])
      simp only [List.length_append, List.length_cons, List.length_nil] at hrest ⊢
      omega

variable {w : Wallet} {current : Int} {cutoff curTime : Rat} {iterate : List ACoin → List ACoin}
  {value : Int}

theorem passesOver_some (key : Int) : passesOver current (some cutoff) curTime key =
    .ok (decide (key < current ∧ cutoff < curTime)) := by
  unfold passesOver
  by_cases hkey : key < current
  · simp [hkey]
  · simp [hkey]

theorem gatherCoins_length_le (hperm : ∀ coins, (iterate coins).Perm coins) {keys : List Int}
    {coins result : List ACoin}
    (h : gatherCoins w current (some cutoff) curTime iterate value keys coins = .ok result) :
    result.length ≤ coins.length + ((keys.filter fun key => ¬(key < current ∧ cutoff < curTime)).map
      fun key => (w.coinsOf key).length).sum := by
  induction keys generalizing coins with
  | nil =>
    cases h
    exact Nat.le_add_right _ _
  | cons key keys ih =>
    unfold gatherCoins at h
    split at h
    · cases h
    · rw [passesOver_some] at h
      by_cases hpass : key < current ∧ cutoff < curTime
      · simp only [hpass, and_self, decide_true] at h
        rw [List.filter_cons_of_neg (by simpa using hpass)]
        exact ih h
      · simp only [hpass, decide_false] at h
        rw [List.filter_cons_of_pos (by exact decide_eq_true hpass), List.map_cons, List.sum_cons]
        have htake := takeCoins_length_le value coins (iterate (w.coinsOf key))
        rw [(hperm (w.coinsOf key)).length_eq] at htake
        split at h
        · cases h
          omega
        · have hrest := ih h
          omega

/-- Nothing is raised when no old coins are left and the intervals are known. -/
theorem gatherCoins_ok (cutoff curTime : Rat) (iterate : List ACoin → List ACoin) (value : Int)
    {keys : List Int} (hgood : ¬∃ key ∈ keys, key < current - 1 ∧ (w.coinsOf key).length ≠ 0) (coins : List ACoin) :
    ∃ result, gatherCoins w current (some cutoff) curTime iterate value keys coins = .ok result := by
  induction keys generalizing coins with
  | nil => exact ⟨coins, rfl⟩
  | cons key keys ih =>
    have hkeys : ¬∃ key ∈ keys, key < current - 1 ∧ (w.coinsOf key).length ≠ 0 := by
      rintro ⟨k, hk, hbad⟩
      exact hgood ⟨k, List.mem_cons_of_mem _ hk, hbad⟩
    unfold gatherCoins
    rw [if_neg fun hbad => hgood ⟨key, List.mem_cons_self, hbad⟩, passesOver_some]
    cases decide (key < current ∧ cutoff < curTime) with
    | true => exact ih hkeys coins
    | false =>
      dsimp only
      split
      · exact ⟨_, rfl⟩
      · exact ih hkeys _

/-- Without old coins, only the attribute that does not exist yet can be missed. -/
theorem gatherCoins_error {cutoff : Option Rat} {keys : List Int}
    (hgood : ∀ key ∈ keys, key < current - 1 → w.coinsOf key = []) {coins : List ACoin} {e : PyError}
    (h : gatherCoins w current cutoff curTime iterate value keys coins = .error e) : e = .attributeError := by
  induction keys generalizing coins with
  | nil => cases h
  | cons key keys ih =>
    have hkeys : ∀ k ∈ keys, k < current - 1 → w.coinsOf k = [] := fun k hk => hgood k (List.mem_cons_of_mem _ hk)
    have hkey : ¬(key < current - 1 ∧ (w.coinsOf key).length ≠ 0) := by
      rintro ⟨hlt, hne⟩
      exact hne (by rw [hgood key List.mem_cons_self hlt]; rfl)
    unfold gatherCoins at h
    rw [if_neg hkey] at h
    unfold passesOver at h
    split at h
    · rename_i hpass
      split at hpass
      · split at hpass
        · cases hpass
          exact (Except.error.inj h).symm
        · cases hpass
      · cases hpass
    · exact ih hkeys h
    · dsimp only at h
      split at h
      · cases h
      · exact ih hkeys h

/-- Old coins are met before any other, because the keys are sorted. -/
theorem gatherCoins_bad (cutoff curTime : Rat) (hperm : ∀ coins, (iterate coins).Perm coins)
    (hvalue : 0 < value) {keys : List Int} (hsorted : keys.Pairwise (· ≤ ·))
    (hbad : ∃ key ∈ keys, key < current - 1 ∧ (w.coinsOf key).length ≠ 0) :
    ∃ e, gatherCoins w current (some cutoff) curTime iterate value keys [] = .error e := by
  induction keys with
  | nil =>
    obtain ⟨key, hkey, -⟩ := hbad
    cases hkey
  | cons key keys ih =>
    rw [List.pairwise_cons] at hsorted
    obtain ⟨hle, hsorted⟩ := hsorted
    unfold gatherCoins
    split
    · exact ⟨_, rfl⟩
    · rename_i hkey
      obtain ⟨bad, hmem, hlt, hne⟩ := hbad
      rcases List.mem_cons.mp hmem with rfl | hmem
      · exact absurd ⟨hlt, hne⟩ hkey
      · have hrest := ih hsorted ⟨bad, hmem, hlt, hne⟩
        have hempty : w.coinsOf key = [] := by
          have hkeylt : key < current - 1 := Int.lt_of_le_of_lt (hle bad hmem) hlt
          by_contra hcoins
          exact hkey ⟨hkeylt, fun hzero => hcoins (List.length_eq_zero_iff.mp hzero)⟩
        have hnil : iterate (w.coinsOf key) = [] := by
          rw [hempty]
          exact List.perm_nil.mp (hperm [])
        rw [passesOver_some]
        cases decide (key < current ∧ cutoff < curTime) with
        | true => exact hrest
        | false =>
          dsimp only
          rw [hnil, if_neg (by simp [takeCoins, coinsValue]; omega)]
          exact hrest

end Wallet

end BitBlinder.Client
