import BitBlinder.Client.LiveCoins

/-!
# `get_acoins` is exact and takes the oldest coins first

What the two loops collect is a prefix of the coins they would meet if they
never stopped. These lie in the order of their intervals, so that a prefix of
them leaves no older coin behind.
-/

namespace BitBlinder.Client

set_option autoImplicit false

open Struct Effects

namespace Wallet

/-! ### The coins of a wallet, set by set -/

theorem coinsOf_of_mem_entries {w : Wallet} {e : Sigma fun _ : Int => List ACoin} (h : e ∈ w.sets.entries) :
    w.coinsOf e.1 = e.2 := by
  have hl : w.sets.lookup e.1 = some e.2 := AList.mem_lookup_iff.mpr h
  rw [coinsOf, hl, Option.getD_some]

theorem coins_eq_flatMap (w : Wallet) : w.coins = w.sets.keys.flatMap w.coinsOf := by
  unfold coins AList.keys List.keys
  rw [List.flatMap_map]
  apply List.flatMap_congr
  intro e he
  exact (coinsOf_of_mem_entries he).symm

theorem mem_coins {w : Wallet} {c : ACoin} : c ∈ w.coins ↔ c ∈ w.coinsOf c.interval := by
  rw [coins_eq_flatMap, List.mem_flatMap]
  constructor
  · rintro ⟨i, -, hc⟩
    rwa [interval_of_mem_coinsOf hc]
  · intro hc
    refine ⟨c.interval, ?_, hc⟩
    have hkey := mem_sortedKeys_of_ne_nil (List.ne_nil_of_mem hc)
    rwa [sortedKeys, List.mem_insertionSort] at hkey

theorem coinsOf_removeAll (w : Wallet) (coins : List ACoin) (i : Int) :
    (w.removeAll coins).coinsOf i = (w.coinsOf i).filter fun c => ¬Among c coins := by
  induction coins generalizing w with
  | nil => simp [removeAll]
  | cons coin coins ih =>
    have hcons : w.removeAll (coin :: coins) =
        (if w.Holds coin then w.remove coin else w).removeAll coins := rfl
    have hone : (if w.Holds coin then w.remove coin else w).coinsOf i =
        (w.coinsOf i).filter fun c => c.key ≠ coin.key := by
      by_cases hi : i = coin.interval
      · subst hi
        split
        · rw [remove, coinsOf_put, if_pos rfl]
        · rename_i hcoin
          symm
          apply List.filter_eq_self.mpr
          intro c hc
          apply decide_eq_true
          intro hkey
          exact hcoin (among_iff.mpr ⟨c, hc, hkey⟩)
      · have hsame : (if w.Holds coin then w.remove coin else w).coinsOf i = w.coinsOf i := by
          split
          · exact coinsOf_remove_of_ne hi
          · rfl
        rw [hsame]
        symm
        apply List.filter_eq_self.mpr
        intro c hc
        apply decide_eq_true
        intro hkey
        have hinterval : c.interval = coin.interval := congrArg (fun k => k.2.2) hkey
        exact hi ((interval_of_mem_coinsOf hc).symm.trans hinterval)
    rw [hcons, ih, hone, List.filter_filter]
    apply List.filter_congr
    intro c _
    by_cases hkey : c.key = coin.key
    · simp [hkey]
    · simp [hkey]

theorem mem_coins_removeAll {w : Wallet} {coins : List ACoin} {c : ACoin} :
    c ∈ (w.removeAll coins).coins ↔ c ∈ w.coins ∧ ¬Among c coins := by
  rw [mem_coins, mem_coins, coinsOf_removeAll, List.mem_filter, decide_eq_true_eq]

/-! ### The coins that the loops meet -/

/-- The coins of an interval may be used: it is not over, or it is and the time is not past
`sendOldACoinCutoff`. -/
def Usable (current : Int) (cutoff : Option Rat) (curTime : Rat) (interval : Int) : Prop :=
  current ≤ interval ∨ ∃ c ∈ cutoff, curTime ≤ c

instance (current : Int) (cutoff : Option Rat) (curTime : Rat) (interval : Int) :
    Decidable (Usable current cutoff curTime interval) :=
  inferInstanceAs (Decidable (_ ∨ _))

theorem passesOver_eq {current : Int} {cutoff : Option Rat} {curTime : Rat} {key : Int}
    (hcutoff : cutoff = none → current ≤ key) :
    passesOver current cutoff curTime key = .ok (decide ¬Usable current cutoff curTime key) := by
  unfold passesOver Usable
  by_cases hkey : current ≤ key
  · simp [hkey]
  · cases cutoff with
    | none => exact absurd (hcutoff rfl) hkey
    | some cutoff =>
      have hlt : key < current := Int.not_le.mp hkey
      have hiff : cutoff < curTime ↔ ¬(current ≤ key ∨ ∃ c ∈ some cutoff, curTime ≤ c) := by
        rw [or_iff_right hkey, ← Rat.not_le, not_iff_not]
        exact ⟨fun h => ⟨cutoff, rfl, h⟩, by rintro ⟨c, hc, h⟩; cases hc; exact h⟩
      rw [if_pos hlt]
      exact congrArg Except.ok (decide_eq_decide.mpr hiff)

/-- The usable coins under `keys`, in the order in which the loops meet them. -/
def offered (w : Wallet) (current : Int) (cutoff : Option Rat) (curTime : Rat)
    (iterate : List ACoin → List ACoin) (keys : List Int) : List ACoin :=
  (keys.filter fun key => Usable current cutoff curTime key).flatMap fun key => iterate (w.coinsOf key)

theorem takeCoins_eq {value : Int} {coins : List ACoin} (h : coinsValue coins < value) (rest : List ACoin) :
    takeCoins value coins rest = coins ++ rest.take (value.toNat - coins.length) := by
  induction rest generalizing coins with
  | nil => simp [takeCoins]
  | cons coin rest ih =>
    have hcount : coins.length < value.toNat := by
      unfold coinsValue ACoin.VALUE at h
      omega
    obtain ⟨m, hm⟩ : ∃ m, value.toNat - coins.length = m + 1 := ⟨value.toNat - coins.length - 1, by omega⟩
    unfold takeCoins
    split
    · rename_i hreached
      have hlast : m = 0 := by
        unfold coinsValue ACoin.VALUE at hreached
        simp only [List.length_append, List.length_cons, List.length_nil] at hreached
        omega
      rw [hm, hlast, List.take_succ_cons, List.take_zero]
    · rename_i hmore
      have hnext : value.toNat - (coins ++ [coin]).length = m := by
        simp only [List.length_append, List.length_cons, List.length_nil]
        omega
      rw [ih (Int.not_le.mp hmore), hnext, hm, List.take_succ_cons, List.append_assoc, List.singleton_append]

variable {w : Wallet} {current : Int} {cutoff : Option Rat} {curTime : Rat}
  {iterate : List ACoin → List ACoin} {value : Int}

/-- The loops stop at the first `value` of the coins they meet. -/
theorem gatherCoins_eq {keys : List Int} (hgood : ∀ key, key < current - 1 → w.coinsOf key = [])
    (hcutoff : cutoff = none → ∀ key ∈ keys, current ≤ key) {coins : List ACoin}
    (h : coinsValue coins < value) :
    gatherCoins w current cutoff curTime iterate value keys coins =
      .ok (coins ++ (w.offered current cutoff curTime iterate keys).take (value.toNat - coins.length)) := by
  induction keys generalizing coins with
  | nil => simp [gatherCoins, offered]
  | cons key keys ih =>
    have hkey : ¬(key < current - 1 ∧ (w.coinsOf key).length ≠ 0) := by
      rintro ⟨hlt, hne⟩
      exact hne (by rw [hgood key hlt]; rfl)
    have hpass : passesOver current cutoff curTime key = .ok (decide ¬Usable current cutoff curTime key) :=
      passesOver_eq fun hnone => hcutoff hnone key List.mem_cons_self
    have hrest := fun hnone k hk => hcutoff hnone k (List.mem_cons_of_mem key hk)
    unfold gatherCoins
    rw [if_neg hkey, hpass]
    by_cases husable : Usable current cutoff curTime key
    · have hoffered : w.offered current cutoff curTime iterate (key :: keys) =
          iterate (w.coinsOf key) ++ w.offered current cutoff curTime iterate keys := by
        unfold offered
        rw [List.filter_cons_of_pos (by exact decide_eq_true husable), List.flatMap_cons]
      rw [decide_eq_false (not_not_intro husable), takeCoins_eq h, hoffered]
      dsimp only
      have hcount : coins.length < value.toNat := by
        unfold coinsValue ACoin.VALUE at h
        omega
      by_cases hfull : value.toNat - coins.length ≤ (iterate (w.coinsOf key)).length
      · -- The set reaches the value, and nothing after it is looked at.
        have hvalue : value ≤ coinsValue (coins ++ (iterate (w.coinsOf key)).take (value.toNat - coins.length)) := by
          unfold coinsValue ACoin.VALUE
          rw [List.length_append, List.length_take, Nat.min_eq_left hfull]
          omega
        rw [if_pos hvalue, List.take_append_of_le_length hfull]
      · have hshort : (iterate (w.coinsOf key)).length ≤ value.toNat - coins.length := by omega
        have hvalue : coinsValue (coins ++ iterate (w.coinsOf key)) < value := by
          unfold coinsValue ACoin.VALUE
          rw [List.length_append]
          omega
        have hlength : value.toNat - (coins ++ iterate (w.coinsOf key)).length =
            value.toNat - coins.length - (iterate (w.coinsOf key)).length := by
          rw [List.length_append]
          omega
        rw [List.take_of_length_le hshort, if_neg (Int.not_le.mpr hvalue), ih hrest hvalue, hlength,
          List.take_append, List.take_of_length_le hshort, List.append_assoc]
    · have hoffered : w.offered current cutoff curTime iterate (key :: keys) =
          w.offered current cutoff curTime iterate keys := by
        unfold offered
        rw [List.filter_cons_of_neg (by simpa using husable)]
      rw [decide_eq_true husable, hoffered]
      exact ih hrest h

/-! ### Prefixes of the coins met -/

/-- Coins that differ, the first no younger than the second. -/
def Before (c d : ACoin) : Prop := c.interval ≤ d.interval ∧ c.key ≠ d.key

theorem sortedKeys_pairwise (w : Wallet) : w.sortedKeys.Pairwise (· < ·) := by
  have hle : w.sortedKeys.Pairwise (· ≤ ·) := List.pairwise_insertionSort (· ≤ ·) w.sets.keys
  have hne : w.sortedKeys.Pairwise (· ≠ ·) :=
    (List.perm_insertionSort (· ≤ ·) w.sets.keys).nodup_iff.mpr w.sets.nodupKeys
  apply (hle.and hne).imp
  intro i j hij
  omega

theorem offered_before (hperm : ∀ coins, (iterate coins).Perm coins) :
    (w.offered current cutoff curTime iterate w.sortedKeys).Pairwise Before := by
  have hinterval : ∀ i, ∀ c ∈ iterate (w.coinsOf i), c.interval = i := by
    intro i c hc
    exact interval_of_mem_coinsOf ((hperm _).mem_iff.mp hc)
  apply List.pairwise_flatMap.mpr
  constructor
  · intro i _
    have hnodup : ((iterate (w.coinsOf i)).map ACoin.key).Nodup :=
      ((hperm _).map ACoin.key).nodup_iff.mpr (w.nodup_coinsOf i)
    apply (List.pairwise_map.mp hnodup).imp_of_mem
    intro c d hc hd hne
    exact ⟨by rw [hinterval i c hc, hinterval i d hd], hne⟩
  · apply (w.sortedKeys_pairwise.filter _).imp
    intro i j hij c hc d hd
    have hlt : c.interval < d.interval := by rwa [hinterval i c hc, hinterval j d hd]
    refine ⟨Int.le_of_lt hlt, fun hkey => ?_⟩
    have heq : c.interval = d.interval := congrArg (fun k => k.2.2) hkey
    omega

/-- The loops can meet every usable coin, and no other. -/
theorem offered_perm (hperm : ∀ coins, (iterate coins).Perm coins) :
    (w.offered current cutoff curTime iterate w.sortedKeys).Perm
      (w.coins.filter fun c => Usable current cutoff curTime c.interval) := by
  have hsets : ∀ i, (w.coinsOf i).filter (fun c => decide (Usable current cutoff curTime c.interval)) =
      if Usable current cutoff curTime i then w.coinsOf i else [] := by
    intro i
    split
    · rename_i husable
      apply List.filter_eq_self.mpr
      intro c hc
      rw [interval_of_mem_coinsOf hc]
      exact decide_eq_true husable
    · rename_i husable
      apply List.filter_eq_nil_iff.mpr
      intro c hc
      rw [interval_of_mem_coinsOf hc, decide_eq_true_eq]
      exact husable
  have hkeys : ∀ keys : List Int, (keys.flatMap fun i => if Usable current cutoff curTime i then w.coinsOf i else []) =
      (keys.filter fun i => Usable current cutoff curTime i).flatMap w.coinsOf := by
    intro keys
    induction keys with
    | nil => rfl
    | cons i keys ih =>
      rw [List.flatMap_cons, ih]
      split
      · rename_i husable
        rw [List.filter_cons_of_pos (by exact decide_eq_true husable), List.flatMap_cons]
      · rename_i husable
        rw [List.filter_cons_of_neg (by simpa using husable), List.nil_append]
  rw [coins_eq_flatMap, List.filter_flatMap, List.flatMap_congr fun i _ => hsets i, hkeys]
  exact ((List.perm_insertionSort (· ≤ ·) w.sets.keys).filter _).flatMap fun i _ => hperm _

/-- Exactly `value` distinct coins are taken out of a wallet, all of them eligible, and the
eligible coins that stay are no older than those taken. -/
structure Withdrawal (eligible : ACoin → Prop) (value : Int) (w w' : Wallet) (coins : List ACoin) : Prop where
  number : (coins.length : Int) = value
  distinct : (coins.map ACoin.key).Nodup
  held : ∀ c ∈ coins, c ∈ w.coins
  permitted : ∀ c ∈ coins, eligible c
  left : ∀ c, c ∈ w'.coins ↔ c ∈ w.coins ∧ ¬Among c coins
  oldest : ∀ c ∈ coins, ∀ d ∈ w'.coins, eligible d → c.interval ≤ d.interval

/-- A prefix of the eligible coins, in the order of their intervals, is a withdrawal. -/
theorem withdrawal_of_take {eligible : ACoin → Prop} [DecidablePred eligible] {offers : List ACoin}
    (hbefore : offers.Pairwise Before) (hoffers : offers.Perm (w.coins.filter fun c => eligible c))
    (hvalue : 0 ≤ value) (hle : value ≤ offers.length) :
    Withdrawal eligible value w (w.removeAll (offers.take value.toNat)) (offers.take value.toNat) := by
  have hmem : ∀ c, c ∈ offers ↔ c ∈ w.coins ∧ eligible c := by
    intro c
    rw [hoffers.mem_iff, List.mem_filter, decide_eq_true_eq]
  have hkeys : (offers.map ACoin.key).Nodup := List.pairwise_map.mpr (hbefore.imp And.right)
  constructor
  · rw [List.length_take, Nat.min_eq_left (by omega)]
    omega
  · exact hkeys.sublist ((List.take_sublist _ _).map ACoin.key)
  · intro c hc
    exact ((hmem c).mp (List.mem_of_mem_take hc)).1
  · intro c hc
    exact ((hmem c).mp (List.mem_of_mem_take hc)).2
  · intro c
    exact mem_coins_removeAll
  · intro c hc d hd heligible
    obtain ⟨hheld, hnot⟩ := mem_coins_removeAll.mp hd
    have hoffered : d ∈ offers := (hmem d).mpr ⟨hheld, heligible⟩
    -- `d` was met after the coins that were taken, or it would be among them.
    rw [← List.take_append_drop value.toNat offers] at hoffered hbefore
    rcases List.mem_append.mp hoffered with htaken | hrest
    · exact absurd (among_of_mem htaken) hnot
    · exact ((List.pairwise_append.mp hbefore).2.2 c hc d hrest).1

end Wallet

namespace BankConnection

/-! ### What the balance check leaves alone -/

/-- What the client has spent since the program started. -/
def SameSpendings (s t : BankConnection) : Prop := t.creditsSpent = s.creditsSpent

instance : IsPreorder BankConnection SameSpendings where
  refl _ := rfl
  trans _ _ _ hst htu := htu.trans hst

theorem makeRequests_spendings (env : Environment) (interval : Int) (value k : Nat) :
    Moves SameSpendings (makeRequests env interval value k) := by
  induction k with
  | zero => exact .pure _
  | succ k ih =>
    refine .bind (.attempt _) fun bankKey => .bind ?_ fun draw => .bind (.attempt _) fun request => ?_
    · exact .bind .get fun s => .bind (.modify fun _ => rfl) fun _ => .pure _
    · exact .bind ih fun requests => .pure _

theorem sendMessage_spendings (m : Message) : Moves SameSpendings (sendMessage m) := by
  refine .bind .get fun s => .ite (fun _ => ?_) fun _ => .modify fun _ => rfl
  exact .bind (.modify fun _ => rfl) fun _ => .modify fun _ => rfl

theorem checkWalletBalance_spendings (env : Environment) : Moves SameSpendings (checkWalletBalance env) := by
  refine .bind .get fun s => .when fun _ => .bind .get fun s => .when fun _ => ?_
  refine .bind (.modify fun _ => rfl) fun _ => ?_
  exact .bind (makeRequests_spendings env _ _ _) fun requests => sendMessage_spendings _

/-! ### `get_acoins` -/

/-- The coins that `get_acoins` may return when it is called now. -/
def Eligible (env : Environment) (s : BankConnection) (coin : ACoin) : Prop :=
  Wallet.Usable s.currentACoinInterval (s.intervalTimes.map IntervalTimes.sendOldACoinCutoff)
    (env.time s.clockReads) coin.interval

instance (env : Environment) (s : BankConnection) (coin : ACoin) : Decidable (s.Eligible env coin) :=
  inferInstanceAs (Decidable (Wallet.Usable _ _ _ _))

theorem eligible_iff {env : Environment} {s : BankConnection} {coin : ACoin} :
    s.Eligible env coin ↔ s.currentACoinInterval ≤ coin.interval ∨
      ∃ times ∈ s.intervalTimes, env.time s.clockReads ≤ times.sendOldACoinCutoff := by
  unfold Eligible Wallet.Usable
  cases s.intervalTimes with
  | none => simp
  | some times => simp

/-- `get_acoins` returns nothing and takes nothing exactly when too few coins are eligible.
Otherwise it takes `value` of them, oldest first, and counts them as spent when asked to.
The attribute `sendOldACoinCutoff` exists as soon as an interval has passed. -/
theorem get_acoins_exact_oldest_first (env : Environment) {s : BankConnection} (hs : s.Bounded)
    (hold : ∀ key, key < s.currentACoinInterval - 1 → s.ACoins.coinsOf key = [])
    (hcutoff : s.intervalTimes = none → ∀ key ∈ s.ACoins.sets, s.currentACoinInterval ≤ key)
    {value : Int} (hvalue : 1 ≤ value) (countAsSpent : Bool) :
    Outcome (getAcoins env value countAsSpent) s
      (fun coins t =>
        if ((s.ACoins.coins.filter fun c => s.Eligible env c).length : Int) < value then
          coins = [] ∧ t.ACoins = s.ACoins ∧ t.creditsSpent = s.creditsSpent
        else
          Wallet.Withdrawal (s.Eligible env) value s.ACoins t.ACoins coins ∧
            t.creditsSpent = s.creditsSpent + if countAsSpent then value else 0)
      fun _ _ => False := by
  let offers := s.ACoins.offered s.currentACoinInterval
    (s.intervalTimes.map IntervalTimes.sendOldACoinCutoff) (env.time s.clockReads)
    (env.iterate s.iterations) s.ACoins.sortedKeys
  have hbefore : offers.Pairwise Wallet.Before := Wallet.offered_before (env.iterate_perm _)
  have hoffers : offers.Perm (s.ACoins.coins.filter fun c => s.Eligible env c) :=
    Wallet.offered_perm (env.iterate_perm _)
  have hgathered : s.gathered env value = .ok (offers.take value.toNat) := by
    have hkeys : s.intervalTimes.map IntervalTimes.sendOldACoinCutoff = none →
        ∀ key ∈ s.ACoins.sortedKeys, s.currentACoinInterval ≤ key := by
      intro hnone key hkey
      rw [Wallet.sortedKeys, List.mem_insertionSort] at hkey
      exact hcutoff (Option.map_eq_none_iff.mp hnone) key (AList.mem_keys.mp hkey)
    have hnil : Wallet.coinsValue [] < value := by
      simp only [Wallet.coinsValue, List.length_nil]
      omega
    exact Wallet.gatherCoins_eq hold hkeys hnil
  unfold gathered at hgathered
  simp only [getAcoins, readClock, nextOrder, outcome_bind, outcome_get, outcome_modify, outcome_pure,
    outcome_attempt, hgathered, outcome_ite, outcome_when]
  rw [← hoffers.length_eq]
  have hcount : Wallet.coinsValue (offers.take value.toNat) < value ↔ (offers.length : Int) < value := by
    unfold Wallet.coinsValue ACoin.VALUE
    rw [List.length_take]
    omega
  by_cases hshort : (offers.length : Int) < value
  · simp only [if_pos hshort, if_pos (hcount.mpr hshort)]
    exact ⟨trivial, trivial, trivial⟩
  · simp only [if_neg hshort, if_neg (mt hcount.mp hshort)]
    have hwithdrawal := Wallet.withdrawal_of_take hbefore hoffers (by omega) (Int.not_lt.mp hshort)
    refine (removeCoins_eq _ _).mono ?_ fun _ _ h => h
    rintro _ t ⟨changed, rfl⟩
    refine ((checkWalletBalance_same env ?_).and (checkWalletBalance_spendings env _)).mono ?_ fun _ _ h => h.1
    · exact hs
    · rintro _ u ⟨hsame, hspent⟩
      have hacoins : u.ACoins = s.ACoins.removeAll (offers.take value.toNat) := hsame.acoins
      have hspent : u.creditsSpent = s.creditsSpent := hspent
      rw [hacoins, hspent]
      cases countAsSpent with
      | false => exact ⟨hwithdrawal, (Int.add_zero _).symm⟩
      | true => exact ⟨hwithdrawal, rfl⟩

/-- A coin of the interval after `exampleCoin`'s. -/
def exampleNextCoin : ACoin := { receipt := List.replicate 32 8, interval := 2, signature := [], value := 1 }

/-- One coin of the last interval and one of the current one. -/
def twoIntervals : BankConnection := { new with
  ACoins := (Wallet.empty.add exampleNextCoin).add exampleCoin
  currentACoinInterval := 2
  intervalTimes := some
    { curIntervalExpiration := 9, beginDepositACoinTime := 7, sendOldACoinCutoff := 8, intervalLearningDelay := 1 } }

theorem get_acoins_exact_oldest_first_twoIntervals :
    (finish (getAcoins exampleEnvironment 1 true) twoIntervals).ACoins.coins = [exampleNextCoin] ∧
    Outcome (getAcoins exampleEnvironment 1 true) twoIntervals
      (fun coins t => Wallet.Withdrawal (twoIntervals.Eligible exampleEnvironment) 1 twoIntervals.ACoins t.ACoins coins)
      fun _ _ => False := by
  have hkeys : ∀ key, twoIntervals.ACoins.coinsOf key ≠ [] → key = 1 ∨ key = 2 := by
    intro key hkey
    have hmem := Wallet.mem_sortedKeys_of_ne_nil hkey
    have hsorted : twoIntervals.ACoins.sortedKeys = [1, 2] := by decide
    rw [hsorted] at hmem
    simpa using hmem
  have hold : ∀ key, key < twoIntervals.currentACoinInterval - 1 → twoIntervals.ACoins.coinsOf key = [] := by
    intro key hlt
    have hcurrent : twoIntervals.currentACoinInterval = 2 := rfl
    by_contra hne
    rcases hkeys key hne with h | h
    · omega
    · omega
  have hexact := get_acoins_exact_oldest_first exampleEnvironment ⟨by decide, by decide⟩ hold
    (by intro hnone; cases hnone) (Int.le_refl 1) true
  refine ⟨?_, hexact.mono ?_ fun _ _ h => h⟩
  · decide
  · intro coins t h
    rw [if_neg (by decide)] at h
    exact h.1

end BankConnection

end BitBlinder.Client
