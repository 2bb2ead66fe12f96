import BitBlinder.Runs
import BitBlinder.Client.BankFrames

/-!
# No live coin is lost

A coin is accounted for when it is in the wallet or being deposited, or when
it was given to a spender, or when the bank has returned a status for it. A
call is safe when every coin that may still become fresh stays accounted for.
Most calls are; `update_coins` holds coins in a local variable between taking
them out and depositing them, and the deposit protocol counts any reply as an
answer for all its coins.
-/

namespace BitBlinder.Client

set_option autoImplicit false

open Struct Effects

def Output.returnedCoin : Output → Option ACoin
  | .returned coin => some coin
  | _ => none

def Output.statusCoin : Output → Option ACoin
  | .status coin _ => some coin
  | _ => none

def Factory.message? : Factory → Option Message
  | .login _ => none
  | .message m => some m

namespace BankConnection

/-- The coins that `get_acoins` has returned to spenders. -/
def spent (s : BankConnection) : List ACoin := s.history.filterMap Output.returnedCoin

/-- The coins for which the bank has returned a status. -/
def answered (s : BankConnection) : List ACoin := s.history.filterMap Output.statusCoin

def Held (s : BankConnection) (coin : ACoin) : Prop :=
  s.ACoins.Holds coin ∨ Among coin s.depositingACoins

instance (s : BankConnection) (coin : ACoin) : Decidable (s.Held coin) :=
  inferInstanceAs (Decidable (_ ∨ _))

def Accounted (s : BankConnection) (coin : ACoin) : Prop :=
  s.Held coin ∨ Among coin s.spent ∨ Among coin s.answered

instance (s : BankConnection) (coin : ACoin) : Decidable (s.Accounted coin) :=
  inferInstanceAs (Decidable (_ ∨ _))

/-- The messages that wait and those that are in flight. -/
def messages (s : BankConnection) : List Message :=
  s.messageQueue ++ s.connections.filterMap fun c => c.factory.message?

/-- Deposits that have got a response have a status for each of their coins, those of `extra`
apart. -/
def SettledBut (extra : List ACoin) (s : BankConnection) : Prop :=
  ∀ coins finishedDeferred, Message.deposit coins finishedDeferred true ∈ s.messages →
    ∀ c ∈ coins, Among c s.answered ∨ Among c extra

/-- Between `s` and `t` no live coin has been lost, those of `extra` apart. -/
structure SafeBut (extra : List ACoin) (s t : BankConnection) : Prop where
  interval : s.currentACoinInterval ≤ t.currentACoinInterval
  bounded : s.Bounded → t.Bounded
  answered : ∀ c, Among c s.answered → Among c t.answered
  settled : ∀ l, s.SettledBut l → t.SettledBut l
  coins : ∀ c, t.currentACoinInterval - 1 ≤ c.interval → s.Accounted c → t.Accounted c ∨ Among c extra

def Safe (s t : BankConnection) : Prop := SafeBut [] s t

theorem SafeBut.trans {xs ys : List ACoin} {s t u : BankConnection} (hst : SafeBut xs s t)
    (htu : SafeBut ys t u) : SafeBut (xs ++ ys) s u where
  interval := Int.le_trans hst.interval htu.interval
  bounded h := htu.bounded (hst.bounded h)
  answered c h := htu.answered c (hst.answered c h)
  settled l h := htu.settled l (hst.settled l h)
  coins c hc h := by
    have hle := htu.interval
    rcases hst.coins c (by omega) h with h | h
    · rcases htu.coins c hc h with h | h
      · exact Or.inl h
      · exact Or.inr (among_append.mpr (Or.inr h))
    · exact Or.inr (among_append.mpr (Or.inl h))

theorem Safe.accounted {s t : BankConnection} (h : Safe s t) {c : ACoin}
    (hc : t.currentACoinInterval - 1 ≤ c.interval) (hs : s.Accounted c) : t.Accounted c :=
  (h.coins c hc hs).resolve_right (not_among_nil c)

instance : IsPreorder BankConnection Safe where
  refl _ := ⟨Int.le_refl _, id, fun _ => id, fun _ => id, fun _ _ => Or.inl⟩
  trans _ _ _ hst htu := SafeBut.trans hst htu

/-- A change that keeps the interval and only adds coins, history and unanswered messages. -/
theorem safe_of_grow {s t : BankConnection} (hinterval : t.currentACoinInterval = s.currentACoinInterval)
    (hheld : ∀ c, s.Held c → t.Held c) (hspent : ∀ c, Among c s.spent → Among c t.spent)
    (hanswered : ∀ c, Among c s.answered → Among c t.answered)
    (hmessages : ∀ m ∈ t.messages, m ∈ s.messages ∨ m.Unanswered) : Safe s t where
  interval := Int.le_of_eq hinterval.symm
  bounded h := by
    unfold Bounded
    rwa [hinterval]
  answered := hanswered
  settled l h coins finishedDeferred hm c hc := by
    rcases hmessages _ hm with hm | hm
    · exact (h coins finishedDeferred hm c hc).imp_left (hanswered c)
    · cases hm
  coins c _ h := by
    rcases h with h | h | h
    · exact Or.inl (Or.inl (hheld c h))
    · exact Or.inl (Or.inr (Or.inl (hspent c h)))
    · exact Or.inl (Or.inr (Or.inr (hanswered c h)))

theorem safe_of_core {s t : BankConnection} (h : t.core = s.core) : Safe s t := by
  refine safe_of_grow (congrArg Core.interval h) ?_ ?_ ?_ ?_
  · unfold Held
    rw [show t.ACoins = s.ACoins from congrArg Core.acoins h,
      show t.depositingACoins = s.depositingACoins from congrArg Core.depositing h]
    exact fun _ => id
  · unfold spent
    rw [show t.history = s.history from congrArg Core.history h]
    exact fun _ => id
  · unfold BankConnection.answered
    rw [show t.history = s.history from congrArg Core.history h]
    exact fun _ => id
  · unfold messages
    rw [show t.messageQueue = s.messageQueue from congrArg Core.queue h,
      show t.connections = s.connections from congrArg Core.connections h]
    exact fun _ => Or.inl

theorem history_safe (o : List Output) (s : BankConnection) :
    Safe s { s with history := s.history ++ o } := by
  refine safe_of_grow rfl (fun _ => id) ?_ ?_ fun _ => Or.inl
  · intro c hc
    unfold spent
    rw [List.filterMap_append, among_append]
    exact Or.inl hc
  · intro c hc
    unfold BankConnection.answered
    rw [List.filterMap_append, among_append]
    exact Or.inl hc

theorem setFactory_safe (j : Nat) {f : Factory → Factory}
    (hf : ∀ g m, (f g).message? = some m → g.message? = some m ∨ m.Unanswered) :
    Moves Safe (setFactory j f) := by
  refine .modify fun s => safe_of_grow rfl (fun _ => id) (fun _ => id) (fun _ => id) ?_
  intro m hm
  rcases List.mem_append.mp hm with hm | hm
  · exact Or.inl (List.mem_append_left _ hm)
  · obtain ⟨c, hc, hcm⟩ := List.mem_filterMap.mp hm
    rcases mem_modify hc with hc | ⟨d, hd, rfl⟩
    · exact Or.inl (List.mem_append_right _ (List.mem_filterMap.mpr ⟨c, hc, hcm⟩))
    · rcases hf _ _ hcm with hdm | hun
      · exact Or.inl (List.mem_append_right _ (List.mem_filterMap.mpr ⟨d, hd, hdm⟩))
      · exact Or.inr hun

theorem mem_messages_sendNext {s : BankConnection} {m x : Message}
    (h : x ∈ s.messageQueue ++ (s.connections ++ [Connection.mk (.message m) false]).filterMap
      fun c => c.factory.message?) : x ∈ s.messages ∨ x = m := by
  rw [List.filterMap_append, ← List.append_assoc, List.mem_append] at h
  rcases h with h | h
  · exact Or.inl h
  · exact Or.inr (by simpa [Factory.message?] using h)

theorem sendMessage_safe {m : Message} (hm : m.Unanswered) : Moves Safe (sendMessage m) := by
  refine .bind .get fun s => .ite (fun _ => ?_) fun _ => ?_
  · refine .bind (.modify fun s => ?_) fun _ => .modify fun s => ?_
    · exact safe_of_grow rfl (fun _ => id) (fun _ => id) (fun _ => id) fun _ => Or.inl
    · refine safe_of_grow rfl (fun _ => id) (fun _ => id) (fun _ => id) fun x hx => ?_
      rcases mem_messages_sendNext (s := s) hx with hx | rfl
      · exact Or.inl hx
      · exact Or.inr hm
  · refine .modify fun s => safe_of_grow rfl (fun _ => id) (fun _ => id) (fun _ => id) fun x hx => ?_
    unfold messages at hx ⊢
    dsimp only at hx
    rw [List.append_assoc, List.mem_append, List.mem_append, List.mem_singleton] at hx
    rcases hx with hx | rfl | hx
    · exact Or.inl (List.mem_append_left _ hx)
    · exact Or.inr hm
    · exact Or.inl (List.mem_append_right _ hx)

theorem onBankMessageDone_safe : Moves Safe onBankMessageDone := by
  intro s
  simp only [onBankMessageDone, sendNextMessage, outcome_bind, outcome_get]
  cases hq : s.messageQueue with
  | nil => exact safe_of_grow rfl (fun _ => id) (fun _ => id) (fun _ => id) fun _ => Or.inl
  | cons m queue =>
    simp only [outcome_bind, outcome_modify]
    refine safe_of_grow rfl (fun _ => id) (fun _ => id) (fun _ => id) fun x hx => Or.inl ?_
    unfold messages
    rw [hq]
    rcases mem_messages_sendNext (s := { s with messageQueue := queue }) hx with hx | rfl
    · exact List.mem_cons_of_mem m hx
    · exact List.mem_cons_self

theorem addAcoin_safe (coin : ACoin) : Moves Safe (addAcoin coin) := by
  refine .bind .get fun s => .ite (fun _ => .throw _) fun _ => .modify fun s => ?_
  refine safe_of_grow rfl ?_ (fun _ => id) (fun _ => id) fun _ => Or.inl
  rintro c (hc | hc)
  · exact Or.inl (Wallet.holds_add.mpr (Or.inr hc))
  · exact Or.inr hc

/-- `depositingACoins` after `deposit_acoins` has gone through a list of coins. -/
theorem among_foldl_deposit {coins depositing : List ACoin} {c : ACoin} :
    Among c (coins.foldl (fun depositing coin =>
      if Among coin depositing then depositing else depositing ++ [coin]) depositing) ↔
      Among c depositing ∨ Among c coins := by
  induction coins generalizing depositing with
  | nil => simp
  | cons coin coins ih =>
    rw [List.foldl_cons, ih, among_cons]
    split
    · rename_i hcoin
      constructor
      · rintro (hc | hc)
        · exact Or.inl hc
        · exact Or.inr (Or.inr hc)
      · rintro (hc | hkey | hc)
        · exact Or.inl hc
        · exact Or.inl (by unfold Among at hcoin ⊢; rwa [hkey])
        · exact Or.inr hc
    · rw [among_append, among_cons, or_assoc]
      simp

theorem depositAcoins_safe (coins : List ACoin) : Moves Safe (depositAcoins coins) := by
  refine .bind .get fun s => .when fun _ => .bind (.modify fun s => ?_) fun _ => sendMessage_safe rfl
  refine safe_of_grow rfl ?_ (fun _ => id) (fun _ => id) fun _ => Or.inl
  rintro c (hc | hc)
  · exact Or.inl hc
  · exact Or.inr (among_foldl_deposit.mpr (Or.inl hc))

theorem learnInterval_safe (curTime random₁ random₂ : Rat) (expiresCurrent expiresNext : Nat)
    {interval : Nat} {s : BankConnection} (hlt : interval < 2 ^ 32)
    (hnew : s.currentACoinInterval < interval) :
    Safe s (learnInterval curTime random₁ random₂ interval expiresCurrent expiresNext s) where
  interval := Int.le_of_lt hnew
  bounded _ := by
    have hlt : (interval : Int) < 2 ^ 32 := by exact_mod_cast hlt
    exact ⟨Int.natCast_nonneg interval, hlt⟩
  answered _ h := h
  settled _ h := h
  coins c hc h := by
    have hc : (interval : Int) - 1 ≤ c.interval := hc
    rcases h with (h | h) | h
    · exact Or.inl (Or.inl (Or.inl (Wallet.holds_delete.mpr ⟨h, by omega⟩)))
    · exact Or.inl (Or.inl (Or.inr h))
    · exact Or.inl (Or.inr h)

theorem compatible_safe : Compatible Safe where
  core := safe_of_core
  balance _ _ := safe_of_grow rfl (fun _ => id) (fun _ => id) (fun _ => id) fun _ => Or.inl
  report _ := .modify (history_safe _)
  send := sendMessage_safe
  add := addAcoin_safe
  deposit := depositAcoins_safe
  append coin := by
    refine .modify fun s => safe_of_grow rfl ?_ (fun _ => id) (fun _ => id) fun _ => Or.inl
    rintro c (hc | hc)
    · exact Or.inl hc
    · exact Or.inr (among_append.mpr (Or.inl hc))
  learn := learnInterval_safe
  setDone j := setFactory_safe j fun g m hm => by
    cases g with
    | login done => cases hm
    | message m' => exact Or.inl hm
  setRequest j value number requests := setFactory_safe j fun g m hm => by
    cases g with
    | login done => cases hm
    | message m' =>
      cases hm
      exact Or.inr trivial

/-- The balance check raises nothing and leaves the coins alone. -/
theorem checkWalletBalance_spec (env : Environment) {s : BankConnection} (hs : s.Bounded) :
    Outcome (checkWalletBalance env) s (fun _ t => SameCoins s t ∧ Safe s t) fun _ _ => False := by
  have hcoins := checkWalletBalance_same env hs
  exact (hcoins.and (compatible_safe.checkWalletBalance env s)).mono (fun _ _ h => h) fun _ _ h => h.1

/-! ### Taking coins out of the wallet -/

theorem removeCoins_eq (coins : List ACoin) (s : BankConnection) :
    Outcome (removeCoins coins) s (fun _ t => ∃ changed,
      t = { s with ACoins := s.ACoins.removeAll coins, coinsChanged := changed }) fun _ _ => False := by
  induction coins generalizing s with
  | nil => exact ⟨s.coinsChanged, rfl⟩
  | cons coin coins ih =>
    simp only [removeCoins, removeCoin, outcome_bind, outcome_get, outcome_ite, outcome_modify,
      outcome_pure]
    have hcons : s.ACoins.removeAll (coin :: coins) =
        (if s.ACoins.Holds coin then s.ACoins.remove coin else s.ACoins).removeAll coins := rfl
    rw [hcons]
    split
    · exact ih _
    · exact ih s

theorem removeCoins_spec (coins : List ACoin) (s : BankConnection) :
    Outcome (removeCoins coins) s (fun _ t => t.ACoins = s.ACoins.removeAll coins ∧ SafeBut coins s t ∧
      SameSetting s t ∧ t.clockReads = s.clockReads) fun _ _ => False := by
  refine (removeCoins_eq coins s).mono ?_ fun _ _ h => h
  rintro _ t ⟨changed, rfl⟩
  refine ⟨rfl, ⟨Int.le_refl _, id, fun _ => id, fun _ => id, fun c _ h => ?_⟩, ⟨rfl, rfl, rfl, rfl⟩, rfl⟩
  rcases h with (h | h) | h
  · by_cases hc : Among c coins
    · exact Or.inr hc
    · exact Or.inl (Or.inl (Or.inl (Wallet.holds_removeAll.mpr ⟨h, hc⟩)))
  · exact Or.inl (Or.inl (Or.inr h))
  · exact Or.inl (Or.inr h)

/-- The coins that `get_acoins` collects. -/
def gathered (env : Environment) (value : Int) (s : BankConnection) : PyExcept (List ACoin) :=
  s.ACoins.gatherCoins s.currentACoinInterval (s.intervalTimes.map IntervalTimes.sendOldACoinCutoff)
    (env.time s.clockReads) (env.iterate s.iterations) value s.ACoins.sortedKeys []

theorem getAcoins_spec (env : Environment) {s : BankConnection} (hs : s.Bounded) (value : Int)
    (countAsSpent : Bool) :
    Outcome (getAcoins env value countAsSpent) s
      (fun coins t => SafeBut coins s t ∧ SameSetting s t ∧
        (coins = [] ∨ s.gathered env value = .ok coins ∧ value ≤ Wallet.coinsValue coins))
      fun e t => Safe s t ∧ s.gathered env value = .error e := by
  have hread : Safe s { s with clockReads := s.clockReads + 1, iterations := s.iterations + 1 } :=
    safe_of_core rfl
  simp only [getAcoins, readClock, nextOrder, outcome_bind, outcome_get, outcome_modify, outcome_pure,
    outcome_attempt]
  cases hg : s.gathered env value with
  | error e =>
    unfold gathered at hg
    rw [hg]
    exact ⟨hread, rfl⟩
  | ok coins =>
    unfold gathered at hg
    rw [hg]
    simp only [outcome_ite, outcome_pure, outcome_bind, outcome_when, outcome_modify]
    split
    · exact ⟨hread, ⟨rfl, rfl, rfl, rfl⟩, Or.inl trivial⟩
    · rename_i hvalue
      refine (removeCoins_spec coins _).mono (fun _ t ht => ?_) fun _ _ h => h.elim
      obtain ⟨-, hsafe, hsetting, -⟩ := ht
      have ht : t.Bounded := hsafe.bounded hs
      refine (checkWalletBalance_spec env ht).mono (fun _ u hu => ?_) fun _ _ h => h.elim
      obtain ⟨hsame, hsafe'⟩ := hu
      have hsu : SafeBut coins s u := by
        have h := (SafeBut.trans hread hsafe).trans hsafe'
        rwa [List.nil_append, List.append_nil] at h
      have hsetting' : SameSetting s u := SameSetting.trans (u := u) ⟨hsetting.depositing, hsetting.interval,
        hsetting.times, hsetting.stopping⟩ hsame.toSameSetting
      split
      · have hspent : Safe u { u with creditsSpent := u.creditsSpent + value } :=
          safe_of_core rfl
        have hsafe := hsu.trans hspent
        rw [List.append_nil] at hsafe
        refine ⟨hsafe, hsetting'.trans ⟨rfl, rfl, rfl, rfl⟩, Or.inr ⟨trivial, Int.not_lt.mp hvalue⟩⟩
      · exact ⟨hsu, hsetting', Or.inr ⟨trivial, Int.not_lt.mp hvalue⟩⟩

/-! ### `update_coins` -/

theorem getWalletBalance_eq (s : BankConnection) : s.getWalletBalance =
    (s.ACoins.coinsOf s.currentACoinInterval).length +
      (s.ACoins.coinsOf (s.currentACoinInterval - 1)).length := by
  have hsum := Wallet.sum_two_intervals s.ACoins.sets.nodupKeys
    (a := s.currentACoinInterval) (b := s.currentACoinInterval - 1) (by omega)
    (fun coins => ACoin.VALUE * coins.length) rfl
  unfold getWalletBalance
  rw [hsum]
  simp [ACoin.VALUE, Wallet.coinsOf, AList.lookup]

/-- How many coins `update_coins` takes out of the last interval. -/
def staleCount (s : BankConnection) : Nat :=
  min ACOIN_BATCH_SIZE (s.ACoins.coinsOf (s.currentACoinInterval - 1)).length

/-- There are coins of the last interval, and it is time to deposit them. -/
def StaleDue (s : BankConnection) (times : IntervalTimes) (curTime : Rat) : Prop :=
  times.beginDepositACoinTime < curTime ∧ s.ACoins.coinsOf (s.currentACoinInterval - 1) ≠ []

instance (s : BankConnection) (times : IntervalTimes) (curTime : Rat) :
    Decidable (s.StaleDue times curTime) := inferInstanceAs (Decidable (_ ∧ _))

/-- There are too many coins, and `get_acoins` finds a batch of them. -/
def SurplusTaken (s : BankConnection) (times : IntervalTimes) (curTime : Rat) : Prop :=
  ACOIN_HIGH_LEVEL < s.getWalletBalance ∧ ¬s.ACoins.HasBadInterval s.currentACoinInterval ∧
    ACOIN_BATCH_SIZE ≤ s.ACoins.eligible s.currentACoinInterval times.sendOldACoinCutoff curTime

instance (s : BankConnection) (times : IntervalTimes) (curTime : Rat) :
    Decidable (s.SurplusTaken times curTime) := inferInstanceAs (Decidable (_ ∧ _ ∧ _))

theorem takeStale_spec (env : Environment) {s : BankConnection} (hs : s.Bounded) (curTime : Rat)
    (times : IntervalTimes) (coins : List ACoin) :
    Outcome (takeStale env curTime times coins) s
      (fun result t => ∃ taken, result = coins ++ taken ∧ SafeBut taken s t ∧ SameSetting s t ∧
        t.clockReads = s.clockReads ∧
        (¬s.StaleDue times curTime → taken = [] ∧ t.ACoins = s.ACoins) ∧
        t.getWalletBalance + taken.length = s.getWalletBalance ∧
        (s.StaleDue times curTime → taken.length = s.staleCount) ∧
        (t.ACoins.HasBadInterval t.currentACoinInterval ↔ s.ACoins.HasBadInterval s.currentACoinInterval))
      fun _ _ => False := by
  have hread : Safe s { s with iterations := s.iterations + 1 } :=
    safe_of_core rfl
  simp only [takeStale, nextOrder, outcome_bind, outcome_get, outcome_modify, outcome_pure, outcome_ite]
  generalize hbatch : (env.iterate s.iterations
    (s.ACoins.coinsOf (s.currentACoinInterval - 1))).take ACOIN_BATCH_SIZE = batch
  have hperm := env.iterate_perm s.iterations (s.ACoins.coinsOf (s.currentACoinInterval - 1))
  have hlength : batch.length = s.staleCount := by
    rw [← hbatch, List.length_take, hperm.length_eq]
    rfl
  have hdue : (times.beginDepositACoinTime < curTime ∧ batch ≠ []) ↔ s.StaleDue times curTime := by
    refine and_congr_right fun _ => not_congr ?_
    rw [← List.length_eq_zero_iff, ← List.length_eq_zero_iff, hlength, staleCount]
    unfold ACOIN_BATCH_SIZE
    omega
  split
  · rename_i htaken
    have hmem : ∀ c ∈ batch, c ∈ s.ACoins.coinsOf (s.currentACoinInterval - 1) := by
      intro c hc
      rw [← hbatch] at hc
      exact hperm.mem_iff.mp (List.mem_of_mem_take hc)
    have hinterval : ∀ c ∈ batch, c.interval = s.currentACoinInterval - 1 :=
      fun c hc => Wallet.interval_of_mem_coinsOf (hmem c hc)
    have hheld : ∀ c ∈ batch, s.ACoins.Holds c :=
      fun c hc => Wallet.holds_of_among_coinsOf (among_of_mem (hmem c hc))
    have hnodup : (batch.map ACoin.key).Nodup := by
      rw [← hbatch, List.map_take]
      exact ((hperm.map ACoin.key).nodup_iff.mpr (s.ACoins.nodup_coinsOf _)).sublist
        (List.take_sublist _ _)
    refine (removeCoins_spec batch _).mono (fun _ t ht => ?_) fun _ _ h => h.elim
    obtain ⟨hacoins, hsafe, hsetting, hclock⟩ := ht
    refine (checkWalletBalance_spec env (hsafe.bounded hs)).mono (fun _ u hu => ?_) fun _ _ h => h.elim
    obtain ⟨hsame, hsafe'⟩ := hu
    have hwallet : u.ACoins = s.ACoins.removeAll batch := hsame.acoins.trans hacoins
    have hcurrent : u.currentACoinInterval = s.currentACoinInterval :=
      hsame.interval.trans hsetting.interval
    have hother : ∀ i, i ≠ s.currentACoinInterval - 1 →
        (s.ACoins.removeAll batch).coinsOf i = s.ACoins.coinsOf i :=
      fun i hi => Wallet.coinsOf_removeAll_of_ne fun c hc heq => hi (heq ▸ hinterval c hc)
    refine ⟨batch, rfl, ?_, ?_, hsame.clockReads.trans hclock, fun h => absurd (hdue.mp htaken) h, ?_,
      fun _ => hlength, ?_⟩
    · have h := (SafeBut.trans hread hsafe).trans hsafe'
      rwa [List.nil_append, List.append_nil] at h
    · exact SameSetting.trans ⟨hsetting.depositing, hsetting.interval, hsetting.times, hsetting.stopping⟩
        hsame.toSameSetting
    · rw [getWalletBalance_eq, getWalletBalance_eq, hwallet, hcurrent, hother _ (by omega)]
      have hcount := Wallet.length_coinsOf_removeAll hinterval hnodup hheld
      omega
    · rw [Wallet.hasBadInterval_iff, Wallet.hasBadInterval_iff, hwallet, hcurrent]
      refine exists_congr fun key => and_congr_right fun hkey => ?_
      rw [hother key (by omega)]
  · rename_i htaken
    refine ⟨[], by simp, hread, ⟨rfl, rfl, rfl, rfl⟩, trivial, fun _ => ⟨rfl, trivial⟩, rfl, fun h => ?_,
      trivial⟩
    exact absurd (hdue.mpr h) htaken

theorem takeSurplus_spec (env : Environment) {s : BankConnection} (hs : s.Bounded) {times : IntervalTimes}
    (htimes : s.intervalTimes = some times) (coins : List ACoin) :
    Outcome (takeSurplus env coins) s
      (fun result t => ∃ taken, result = coins ++ taken ∧ SafeBut taken s t ∧ SameSetting s t ∧
        (taken ≠ [] → s.SurplusTaken times (env.time s.clockReads)))
      fun _ t => Safe s t ∧ ACOIN_HIGH_LEVEL < s.getWalletBalance ∧
        s.ACoins.HasBadInterval s.currentACoinInterval := by
  simp only [takeSurplus, outcome_bind, outcome_get, outcome_ite, outcome_pure]
  split
  · rename_i hhigh
    have hbad : ∀ result, s.gathered env ACOIN_BATCH_SIZE = .ok result →
        ¬s.ACoins.HasBadInterval s.currentACoinInterval := by
      intro result hok hbad
      have hpos : (0 : Int) < ACOIN_BATCH_SIZE := by decide
      obtain ⟨e, he⟩ := Wallet.gatherCoins_bad times.sendOldACoinCutoff (env.time s.clockReads)
        (env.iterate_perm s.iterations) hpos (List.pairwise_insertionSort _ _) hbad
      unfold gathered at hok
      rw [htimes] at hok
      exact absurd (hok.symm.trans he) (by simp)
    refine (getAcoins_spec env hs _ _).mono ?_ ?_
    · rintro taken t ⟨hsafe, hsetting, hgot⟩
      refine ⟨taken, rfl, hsafe, hsetting, fun hne => ⟨hhigh, ?_, ?_⟩⟩
      · exact hbad taken (hgot.resolve_left hne).1
      · obtain ⟨hok, hvalue⟩ := hgot.resolve_left hne
        unfold gathered at hok
        rw [htimes] at hok
        have hle := Wallet.gatherCoins_length_le (env.iterate_perm s.iterations) hok
        simp only [Wallet.coinsValue, ACoin.VALUE, List.length_nil, Nat.zero_add] at hvalue hle
        unfold Wallet.eligible
        omega
    · rintro e t ⟨hsafe, herror⟩
      refine ⟨hsafe, hhigh, ?_⟩
      by_contra hgood
      obtain ⟨result, hok⟩ := Wallet.gatherCoins_ok times.sendOldACoinCutoff (env.time s.clockReads)
        (env.iterate s.iterations) ACOIN_BATCH_SIZE hgood []
      unfold gathered at herror
      rw [htimes] at herror
      exact absurd (hok.symm.trans herror) (by simp)
  · exact ⟨[], by simp, refl_of Safe s, ⟨rfl, rfl, rfl, rfl⟩, fun h => absurd rfl h⟩

/-- Unless the client is stopping, all coins given to `deposit_acoins` are afterwards held. -/
theorem depositAcoins_spec {s : BankConnection} (hs : s.shutdownDeferred = false) (coins : List ACoin) :
    Outcome (depositAcoins coins) s (fun _ t => Safe s t ∧ ∀ c, Among c coins → t.Held c)
      fun _ _ => False := by
  have hheld : Outcome (depositAcoins coins) s (fun _ t => ∀ c, Among c coins → t.Held c)
      fun _ _ => False := by
    rw [depositAcoins, outcome_bind, outcome_get, outcome_when, if_pos (by simp [isStopping, hs]),
      outcome_bind, outcome_modify]
    refine (sendMessage_spec _ _).mono ?_ fun _ _ h => h
    intro _ t ht c hc
    refine Or.inr ?_
    rw [ht.depositing]
    exact among_foldl_deposit.mpr (Or.inr hc)
  exact (hheld.and (depositAcoins_safe coins s)).mono (fun _ _ h => ⟨h.2, h.1⟩) fun _ _ h => h.1

/-- `update_coins` deposits what it takes out of the wallet. While the client is stopping it
takes nothing; otherwise it does not come to the surplus with stale coins in hand when
`get_acoins` will find coins of a bad interval. -/
def UpdateKeeps (env : Environment) (s : BankConnection) : Prop :=
  s.acoinDepositInProgress = true ∨
    match s.intervalTimes with
    | none => True
    | some times =>
      if s.isStopping then
        ¬s.StaleDue times (env.time s.clockReads) ∧ ¬s.SurplusTaken times (env.time (s.clockReads + 1))
      else
        ¬(s.StaleDue times (env.time s.clockReads) ∧ s.ACoins.HasBadInterval s.currentACoinInterval ∧
          ACOIN_HIGH_LEVEL + s.staleCount < s.getWalletBalance)

instance decidableUpdateKeeps (env : Environment) (s : BankConnection) : Decidable (s.UpdateKeeps env) :=
  have : Decidable (match s.intervalTimes with
      | none => True
      | some times =>
        if s.isStopping then
          ¬s.StaleDue times (env.time s.clockReads) ∧ ¬s.SurplusTaken times (env.time (s.clockReads + 1))
        else
          ¬(s.StaleDue times (env.time s.clockReads) ∧ s.ACoins.HasBadInterval s.currentACoinInterval ∧
            ACOIN_HIGH_LEVEL + s.staleCount < s.getWalletBalance)) :=
    match s.intervalTimes with
    | none => isTrue trivial
    | some _ => inferInstance
  inferInstanceAs (Decidable (_ ∨ _))

/-- Taking coins out and depositing them, when the client is not stopping. -/
theorem deposit_taken {s t : BankConnection} {taken coins : List ACoin} (hst : SafeBut taken s t)
    (hstop : t.shutdownDeferred = false) (hsub : ∀ c, Among c taken → Among c coins) :
    Outcome (do
      modify fun s => { s with acoinDepositInProgress := true }
      depositAcoins coins) t (fun _ => Safe s) fun _ => Safe s := by
  rw [outcome_bind, outcome_modify]
  refine (depositAcoins_spec (s := { t with acoinDepositInProgress := true }) hstop coins).mono
    (fun _ u hu => ?_) fun _ _ h => h.elim
  obtain ⟨hsafe, hheld⟩ := hu
  have hflag : Safe t { t with acoinDepositInProgress := true } :=
    safe_of_core rfl
  have hsu := hst.trans (trans_of Safe hflag hsafe)
  rw [List.append_nil] at hsu
  refine { hsu with coins := fun c hc h => Or.inl ?_ }
  rcases hsu.coins c hc h with h | h
  · exact h
  · exact Or.inl (hheld c (hsub c h))

theorem collectDeposit_safe (env : Environment) {s : BankConnection} (hs : s.Bounded)
    (hidle : s.acoinDepositInProgress = false) (hkeeps : s.UpdateKeeps env) :
    Outcome (collectDeposit env) s (fun _ => Safe s) fun _ => Safe s := by
  have hread : Safe s { s with clockReads := s.clockReads + 1 } :=
    safe_of_core rfl
  have hkeeps := hkeeps.resolve_left (by simp [hidle])
  rw [collectDeposit, readClock]
  simp only [outcome_bind, outcome_get, outcome_modify, outcome_pure]
  split
  · exact hread
  · rename_i times htimes
    rw [htimes] at hkeeps
    dsimp only at hkeeps
    rw [outcome_bind]
    refine (takeStale_spec env (s := { s with clockReads := s.clockReads + 1 }) hs _ times _).mono
      (fun coins t ht => ?_) fun _ _ h => h.elim
    obtain ⟨stale, rfl, hsafe, hsetting, hclock, hnone, hbalance, hcount, hbad⟩ := ht
    have hst : SafeBut stale s t := by simpa using SafeBut.trans hread hsafe
    have htimes' : t.intervalTimes = some times := hsetting.times.trans htimes
    rw [outcome_bind]
    refine (takeSurplus_spec env (hst.bounded hs) htimes' _).mono (fun coins u hu => ?_)
      fun _ u hu => ?_
    · obtain ⟨surplus, rfl, hsafe', hsetting', hsurplus⟩ := hu
      have hsu := hst.trans hsafe'
      have hstop : u.shutdownDeferred = s.shutdownDeferred := hsetting'.stopping.trans hsetting.stopping
      rw [outcome_when]
      split
      · by_cases hstopping : s.shutdownDeferred = true
        · -- Nothing was taken, so the early return of `deposit_acoins` does no harm.
          rw [if_pos (by exact hstopping)] at hkeeps
          obtain ⟨rfl, hacoins⟩ := hnone hkeeps.1
          have hnil : surplus = [] := by
            by_contra hne
            refine hkeeps.2 ?_
            have htaken := hsurplus hne
            unfold SurplusTaken getWalletBalance at htaken ⊢
            rw [hacoins, hsetting.interval, hclock] at htaken
            exact htaken
          subst hnil
          have hmoves : Moves Safe (do
              modify fun s => { s with acoinDepositInProgress := true }
              depositAcoins (s.depositingACoins ++ [] ++ [])) :=
            .bind (.modify fun _ => safe_of_core rfl) fun _ =>
              depositAcoins_safe _
          exact (hmoves u).mono (fun _ _ h => trans_of Safe hsu h) fun _ _ h => trans_of Safe hsu h
        · refine deposit_taken hsu (by simpa [hstop] using hstopping) ?_
          intro c hc
          rw [List.append_assoc]
          exact among_append.mpr (Or.inr hc)
      · rename_i hnothing
        have hnil : stale ++ surplus = [] := by
          rw [not_or, not_not, List.append_assoc] at hnothing
          exact (List.append_eq_nil_iff.mp hnothing.1).2
        rw [hnil] at hsu
        exact hsu
    · obtain ⟨hsafe', hhigh, hbad'⟩ := hu
      have hsu := hst.trans hsafe'
      by_cases hdue : s.StaleDue times (env.time s.clockReads)
      · -- The stale coins are only in hand when this cannot happen.
        exfalso
        by_cases hstopping : s.shutdownDeferred = true
        · rw [if_pos (by exact hstopping)] at hkeeps
          exact hkeeps.1 hdue
        · rw [if_neg (by exact hstopping)] at hkeeps
          refine hkeeps ⟨hdue, hbad.mp hbad', ?_⟩
          have hlength : stale.length = s.staleCount := hcount hdue
          have hbalance : t.getWalletBalance + stale.length = s.getWalletBalance := hbalance
          omega
      · obtain ⟨rfl, -⟩ := hnone hdue
        exact hsu

theorem updateCoins_safe (env : Environment) {s : BankConnection} (hs : s.Bounded)
    (hkeeps : s.UpdateKeeps env) : Safe s (finish (updateCoins env) s) := by
  rw [← outcome_finish (x := updateCoins env) (I := Safe s)]
  refine Moves.after (R := Safe) ?_ (fun _ => compatible_safe.saveCoins) fun htu hst => trans_of Safe hst htu
  simp only [outcome_rescue, outcome_bind, outcome_get, outcome_when, outcome_pure]
  refine (checkWalletBalance_spec env hs).mono (fun _ t ht => ?_) fun _ _ h => h.elim
  obtain ⟨hsame, hsafe⟩ := ht
  split
  · rename_i hidle
    have hkeeps' : t.UpdateKeeps env := by
      unfold UpdateKeeps StaleDue SurplusTaken staleCount getWalletBalance isStopping at hkeeps ⊢
      rw [hsame.depositInProgress, hsame.times, hsame.stopping, hsame.acoins, hsame.interval,
        hsame.clockReads]
      exact hkeeps
    refine (collectDeposit_safe env (hsafe.bounded hs) (by simpa using hidle) hkeeps').mono ?_ ?_
    · exact fun _ _ htu => trans_of Safe hsafe htu
    · exact fun _ _ htu => trans_of Safe hsafe htu
  · exact hsafe

/-! ### Spending and stopping -/

theorem spendAcoins_safe (env : Environment) {s : BankConnection} (hs : s.Bounded) (value : Int) :
    Safe s (finish (spendAcoins env value) s) := by
  rw [← outcome_finish (x := spendAcoins env value) (I := Safe s), spendAcoins, outcome_bind]
  refine (getAcoins_spec env hs value true).mono (fun coins t ht => ?_) fun _ _ h => h.1
  rw [outcome_modify]
  have hreturned : ∀ c, Among c coins →
      Among c (BankConnection.spent { t with history := t.history ++ coins.map Output.returned }) := by
    intro c hc
    unfold spent
    rw [List.filterMap_append, List.filterMap_map, among_append]
    refine Or.inr ?_
    have hsome : (Output.returnedCoin ∘ Output.returned) = some := rfl
    rwa [hsome, List.filterMap_some]
  have hst := ht.1.trans (history_safe (coins.map Output.returned) t)
  rw [List.append_nil] at hst
  refine { hst with coins := fun c hc h => Or.inl ?_ }
  rcases hst.coins c hc h with h | h
  · exact h
  · exact Or.inr (Or.inl (hreturned c h))

theorem stop_safe (env : Environment) (s : BankConnection) : Safe s (finish (stop env) s) := by
  rw [← outcome_finish (x := stop env) (I := Safe s)]
  simp only [stop, nextOrder, outcome_bind, outcome_get, outcome_when, outcome_modify, outcome_ite,
    outcome_pure]
  have hclear : Safe s { s with messageQueue := [] } := by
    refine safe_of_grow rfl (fun _ => id) (fun _ => id) (fun _ => id) fun m hm => Or.inl ?_
    exact List.mem_append_right _ hm
  split
  · split
    · split
      · refine trans_of Safe hclear (safe_of_core ?_)
        rfl
      · exact hclear
    · have hmove : Safe s { s with
          messageQueue := [], iterations := s.iterations + 1, shutdownDeferred := true, ACoins := .empty
          depositingACoins := s.depositingACoins ++ env.iterate s.iterations s.ACoins.coins
          coinsChanged := true } := by
        refine safe_of_grow rfl ?_ (fun _ => id) (fun _ => id) fun m hm => Or.inl ?_
        · rintro c (hc | hc)
          · refine Or.inr (among_append.mpr (Or.inr ?_))
            exact (among_perm (env.iterate_perm _ _)).mpr (Wallet.among_coins.mpr hc)
          · exact Or.inr (among_append.mpr (Or.inl hc))
        · exact List.mem_append_right _ hm
      refine (compatible_safe.saveCoins _).mono (fun _ t ht => ?_) fun _ _ ht => trans_of Safe hmove ht
      have hst := trans_of Safe hmove ht
      exact (sendMessage_safe (m := .deposit _ true false) rfl t).mono
        (fun _ _ h => trans_of Safe hst h) fun _ _ h => trans_of Safe hst h
  · exact refl_of Safe s

/-! ### Replies to deposits -/

/-- A string that the deposit protocol reads completely: it decrypts to a header and one
status for each of `number` coins. -/
def decodes (env : Environment) (s : BankConnection) (data : Bytes) (number : Nat) : Bool :=
  (s.opened env data).any fun msg => msg.length = 16 + number

theorem filterMap_statusCoin {coins : List ACoin} {returnSlip : Bytes}
    (h : returnSlip.length = coins.length) :
    (List.zipWith Output.status coins returnSlip).filterMap Output.statusCoin = coins := by
  induction coins generalizing returnSlip with
  | nil => rfl
  | cons coin coins ih =>
    cases returnSlip with
    | nil => cases h
    | cons status returnSlip =>
      have hhead : Output.statusCoin (.status coin status) = some coin := rfl
      rw [List.zipWith_cons_cons, List.filterMap_cons_some hhead, ih (Nat.succ.inj h)]

/-- The whole reply is read when it decodes, and then every coin has a status. -/
theorem depositStringReceived_answers (env : Environment) {s : BankConnection} (hs : s.Bounded)
    (j : Nat) (coins : List ACoin) (finishedDeferred : Bool) {data : Bytes}
    (h : s.decodes env data coins.length = true) :
    Outcome (depositStringReceived env j coins finishedDeferred data) s
      (fun _ t => ∀ c ∈ coins, Among c t.answered) fun _ _ => False := by
  obtain ⟨msg, hmsg, hlength⟩ := (Option.any_eq_true _ _).mp h
  have hlength : msg.length = 16 + coins.length := of_decide_eq_true hlength
  have hread : Basic.readMessage [.I, .I, .I, .I] msg =
      .ok (unpack [.I, .I, .I, .I] (msg.take 16), msg.drop 16) := by
    have hsize : calcsize [.I, .I, .I, .I] = 16 := rfl
    rw [Basic.readMessage, hsize, if_pos (by omega)]
  have hinterval := (Basic.inRange_of_readMessage hread).2.1
  rw [depositStringReceived, outcome_bind, setFactory, outcome_modify, outcome_bind]
  refine decryptMessage_some hmsg ?_
  simp only [outcome_bind, outcome_attempt, hread, outcome_ite, outcome_throw]
  refine (onNewInfo_spec env ?_ _ hinterval _ _).mono (fun _ t _ => ?_) fun _ _ h => h
  · exact hs
  · rw [if_neg (by rw [List.length_drop]; omega), outcome_modify]
    intro c hc
    unfold BankConnection.answered
    rw [List.filterMap_append, filterMap_statusCoin (by rw [List.length_drop]; omega), among_append]
    exact Or.inr (among_of_mem hc)

/-- Recording that a deposit has got its response leaves its coins to be answered. -/
theorem setResponse_safe (j : Nat) (coins : List ACoin) (finishedDeferred : Bool) {s t u : BankConnection}
    (ht : t = { s with connections := s.connections.modify j fun c =>
      { c with factory := c.factory.setMessage (.deposit coins finishedDeferred true) } })
    (htu : Safe t u) (hanswered : ∀ c ∈ coins, Among c u.answered) : Safe s u := by
  subst ht
  refine ⟨htu.interval, htu.bounded, htu.answered, fun l hl => ?_, htu.coins⟩
  have hbut : BankConnection.SettledBut (l ++ coins) { s with
      connections := s.connections.modify j fun c =>
        { c with factory := c.factory.setMessage (.deposit coins finishedDeferred true) } } := by
    intro coins' finishedDeferred' hm c hc
    have hold : Message.deposit coins' finishedDeferred' true ∈ s.messages ∨ coins' = coins := by
      rcases List.mem_append.mp hm with hm | hm
      · exact Or.inl (List.mem_append_left _ hm)
      · obtain ⟨d, hd, hdm⟩ := List.mem_filterMap.mp hm
        rcases mem_modify hd with hd | ⟨d', hd', rfl⟩
        · exact Or.inl (List.mem_append_right _ (List.mem_filterMap.mpr ⟨d, hd, hdm⟩))
        · cases hf : d'.factory with
          | login done => simp [hf, Factory.setMessage, Factory.message?] at hdm
          | message m =>
            simp only [hf, Factory.setMessage, Factory.message?, Option.some.injEq,
              Message.deposit.injEq] at hdm
            exact Or.inr hdm.1.symm
    rcases hold with hold | rfl
    · rcases hl coins' finishedDeferred' hold c hc with h | h
      · exact Or.inl h
      · exact Or.inr (among_append.mpr (Or.inl h))
    · exact Or.inr (among_append.mpr (Or.inr (among_of_mem hc)))
  intro coins' finishedDeferred' hm c hc
  rcases htu.settled _ hbut coins' finishedDeferred' hm c hc with h | h
  · exact Or.inl h
  · rcases among_append.mp h with h | h
    · exact Or.inr h
    · obtain ⟨d, hd, hkey⟩ := among_iff.mp h
      have hdanswered := hanswered d hd
      unfold Among at hdanswered ⊢
      rw [hkey] at hdanswered
      exact Or.inl hdanswered

theorem depositStringReceived_safe (env : Environment) {s : BankConnection} (hs : s.Bounded) (j : Nat)
    (coins : List ACoin) (finishedDeferred : Bool) (data : Bytes)
    (h : (∀ c ∈ coins, Among c s.answered) ∨ s.decodes env data coins.length = true) :
    Safe s (finish (depositStringReceived env j coins finishedDeferred data) s) := by
  generalize ht : ({ s with connections := s.connections.modify j fun c =>
      { c with factory := c.factory.setMessage (.deposit coins finishedDeferred true) } } :
    BankConnection) = t
  have hrest : Safe t (finish (depositStringReceived env j coins finishedDeferred data) s) := by
    rw [← outcome_finish (x := depositStringReceived env j coins finishedDeferred data) (I := Safe t),
      depositStringReceived, outcome_bind, setFactory, outcome_modify, ht]
    refine Moves.bind (moves_decryptMessage env data) (fun blob => .bind_attempt fun p hp => ?_) t
    have hinterval := (Basic.inRange_of_readMessage hp).2.1
    refine .bind (compatible_safe.onNewInfo env _ hinterval _ _) fun _ => ?_
    exact .ite (fun _ => .throw _) fun _ => .modify (history_safe _)
  refine setResponse_safe j coins finishedDeferred ht.symm hrest ?_
  rcases h with h | h
  · intro c hc
    have hsame : t.answered = s.answered := by
      rw [← ht]
      rfl
    exact hrest.answered c (by rw [hsame]; exact h c hc)
  · refine (outcome_finish (I := fun t : BankConnection => ∀ c ∈ coins, Among c t.answered)).mp ?_
    exact (depositStringReceived_answers env hs j coins finishedDeferred h).mono (fun _ _ h => h)
      fun _ _ h => h.elim

theorem among_foldl_erase (coins : List ACoin) {depositing : List ACoin} {c : ACoin}
    (h : Among c depositing) :
    Among c (coins.foldl (fun depositing coin => depositing.eraseP fun d => d.key = coin.key) depositing) ∨
      Among c coins := by
  induction coins generalizing depositing with
  | nil => exact Or.inl h
  | cons coin coins ih =>
    rw [List.foldl_cons, among_cons]
    by_cases hkey : c.key = coin.key
    · exact Or.inr (Or.inl hkey)
    · have hleft : Among c (depositing.eraseP fun d => d.key = coin.key) := by
        obtain ⟨d, hd, hdkey⟩ := among_iff.mp h
        refine among_iff.mpr ⟨d, (List.mem_eraseP_of_neg ?_).mpr hd, hdkey⟩
        simpa [hdkey] using hkey
      rcases ih hleft with h | h
      · exact Or.inl h
      · exact Or.inr (Or.inr h)

/-- `on_done` gives up the coins of a deposit that has got a response. -/
theorem onDone_safe {s : BankConnection} (coins : List ACoin) (finishedDeferred gotResponse : Bool)
    (h : gotResponse = true → ∀ c ∈ coins, Among c s.answered) :
    Outcome (onDone coins finishedDeferred gotResponse) s (fun _ => Safe s) fun _ => Safe s := by
  have hflag : Safe s { s with acoinDepositInProgress := false } :=
    safe_of_core rfl
  rw [onDone, outcome_bind, outcome_modify, outcome_ite]
  split
  · rename_i hgot
    rw [outcome_bind, outcome_modify]
    have herase : Safe s { s with
        acoinDepositInProgress := false
        depositingACoins := coins.foldl
          (fun depositing coin => depositing.eraseP fun c => c.key = coin.key) s.depositingACoins } := by
      refine ⟨Int.le_refl _, id, fun _ => id, fun _ => id, fun c _ hc => Or.inl ?_⟩
      rcases hc with (hc | hc) | hc
      · exact Or.inl (Or.inl hc)
      · rcases among_foldl_erase coins hc with hc | hc
        · exact Or.inl (Or.inr hc)
        · obtain ⟨d, hd, hkey⟩ := among_iff.mp hc
          have hanswered := h hgot d hd
          unfold Among at hanswered
          rw [hkey] at hanswered
          exact Or.inr (Or.inr hanswered)
      · exact Or.inr hc
    have hrest : Moves Safe (when (finishedDeferred = true)
        (rescue shutdownSuccess (rescue shutdownFailure (return ())))) :=
      .when fun _ => .rescue compatible_safe.shutdownSuccess (.rescue (.throw _) (.pure _))
    exact (hrest _).mono (fun _ _ htu => trans_of Safe herase htu) fun _ _ htu => trans_of Safe herase htu
  · have hrest : Moves Safe (when (finishedDeferred = true) (rescue shutdownFailure (return ()))) :=
      .when fun _ => .rescue (.throw _) (.pure _)
    exact (hrest _).mono (fun _ _ htu => trans_of Safe hflag htu) fun _ _ htu => trans_of Safe hflag htu

theorem messageDone_safe {s : BankConnection} (m : Message)
    (h : ∀ coins finishedDeferred, m = .deposit coins finishedDeferred true →
      ∀ c ∈ coins, Among c s.answered) :
    Outcome (messageDone m) s (fun _ => Safe s) fun _ => Safe s := by
  unfold messageDone
  rw [outcome_bind]
  refine (onBankMessageDone_safe s).mono (fun _ t ht => ?_) fun _ _ ht => ht
  cases m with
  | request value number requests =>
    refine trans_of Safe ht (safe_of_core ?_)
    rfl
  | deposit coins finishedDeferred gotResponse =>
    refine (onDone_safe coins finishedDeferred gotResponse ?_).mono
      (fun _ _ htu => trans_of Safe ht htu) fun _ _ htu => trans_of Safe ht htu
    rintro rfl c hc
    exact ht.answered c (h coins finishedDeferred rfl c hc)

theorem loginDone_safe (made done : Bool) : Moves Safe (loginDone made done) :=
  .bind (.when fun _ => compatible_safe.onLoginFailure) fun _ =>
    .bind onBankMessageDone_safe fun _ => .when fun _ => compatible_safe.onLoginFailure

theorem finishConnection_safe {s : BankConnection} (hs : s.SettledBut []) {j : Nat} {made : Bool}
    {f : Factory} (hj : s.connections[j]? = some { factory := f, made }) :
    Safe s (finish (finishConnection j made f) s) := by
  rw [← outcome_finish (x := finishConnection j made f) (I := Safe s), finishConnection, outcome_bind,
    outcome_modify]
  have herase : Safe s { s with connections := s.connections.eraseIdx j } := by
    refine safe_of_grow rfl (fun _ => id) (fun _ => id) (fun _ => id) fun m hm => Or.inl ?_
    rcases List.mem_append.mp hm with hm | hm
    · exact List.mem_append_left _ hm
    · exact List.mem_append_right _ (((List.eraseIdx_sublist _ _).filterMap _).mem hm)
  cases f with
  | login done =>
    exact (loginDone_safe made done _).mono (fun _ _ htu => trans_of Safe herase htu) fun _ _ htu =>
      trans_of Safe herase htu
  | message m =>
    refine (messageDone_safe m ?_).mono (fun _ _ htu => trans_of Safe herase htu) fun _ _ htu =>
      trans_of Safe herase htu
    rintro coins finishedDeferred rfl c hc
    have hm : Message.deposit coins finishedDeferred true ∈ s.messages :=
      List.mem_append_right _ (List.mem_filterMap.mpr ⟨_, List.mem_of_getElem? hj, rfl⟩)
    exact (hs coins finishedDeferred hm c hc).resolve_right (not_among_nil c)

theorem establish_safe (j : Nat) (f : Factory) : Moves Safe (establish j f) := by
  refine .bind (.modify fun s => ?_) fun _ => ?_
  · refine safe_of_grow rfl (fun _ => id) (fun _ => id) (fun _ => id) fun m hm => Or.inl ?_
    rcases List.mem_append.mp hm with hm | hm
    · exact List.mem_append_left _ hm
    · obtain ⟨c, hc, hcm⟩ := List.mem_filterMap.mp hm
      rcases mem_modify hc with hc | ⟨d, hd, rfl⟩
      · exact List.mem_append_right _ (List.mem_filterMap.mpr ⟨c, hc, hcm⟩)
      · exact List.mem_append_right _ (List.mem_filterMap.mpr ⟨d, hd, hcm⟩)
  · have hhead : ∀ version request, Moves Safe (makeBankPrefix version request) := fun _ _ =>
      .bind .get fun _ => .bind (.attempt _) fun _ => .bind (.modify (history_safe _)) fun _ => .pure _
    cases f with
    | login done => exact .pure _
    | message m =>
      exact .bind (hhead _ _) fun _ => .bind (.attempt _) fun body => compatible_safe.sendEncrypted _

theorem login_safe : Moves Safe login := by
  refine .bind .get fun s => .when fun _ => .modify fun t => ?_
  refine safe_of_grow rfl (fun _ => id) (fun _ => id) (fun _ => id) fun m hm => Or.inl ?_
  unfold messages at hm ⊢
  dsimp only at hm
  rwa [List.filterMap_append, List.filterMap_cons_none rfl, List.filterMap_nil, List.append_nil] at hm

/-! ### Runs -/

/-- The first string on a deposit connection, if the deposit has coins, decodes. -/
def ReplyDecodes (env : Environment) (s : BankConnection) (data : Bytes) : Option Factory → Prop
  | some (.message (.deposit coins _ gotResponse)) =>
    gotResponse = true ∨ coins = [] ∨ s.decodes env data coins.length = true
  | some (.message (.request _ _ _)) | some (.login _) | none => True

instance decidableReplyDecodes (env : Environment) (s : BankConnection) (data : Bytes) :
    ∀ f, Decidable (s.ReplyDecodes env data f)
  | some (.message (.deposit _ _ _)) => inferInstanceAs (Decidable (_ ∨ _ ∨ _))
  | some (.message (.request _ _ _)) | some (.login _) | none => isTrue trivial

/-- `update_coins` keeps what it takes, and replies to deposits decode. -/
def KeepsCoins (env : Environment) (s : BankConnection) : Action → Prop
  | .updateCoins => s.UpdateKeeps env
  | .stringReceived j data _ _ => s.ReplyDecodes env data (s.connectionIn j true)
  | _ => True

instance decidableKeepsCoins (env : Environment) (s : BankConnection) : ∀ a, Decidable (s.KeepsCoins env a)
  | .updateCoins => decidableUpdateKeeps env s
  | .stringReceived _ data _ _ => decidableReplyDecodes env s data _
  | .start | .login | .requestCoins _ _ | .depositAcoins _ | .addAcoin _ | .onEarnedCoin _
  | .getAcoins _ | .checkNextAcoins | .onUpdate | .onNewInfo _ _ _ _ | .stop | .shutdownTimeout
  | .connectionMade _ | .connectionFailed _ | .connectionLost _ => isTrue trivial

theorem step_safe {env : Environment} {s t : BankConnection} {a : Action} (hs : s.Bounded)
    (hsettled : s.SettledBut []) (hok : s.KeepsCoins env a) (hstep : step env s a = some t) :
    Safe s t := by
  have hR := compatible_safe
  cases a with
  | start => cases hstep; exact hR.start.finish s
  | login => cases hstep; exact login_safe.finish s
  | requestCoins value number => cases hstep; exact (hR.requestCoins env value number).finish s
  | depositAcoins coins => cases hstep; exact (hR.deposit coins).finish s
  | addAcoin coin => cases hstep; exact (hR.add coin).finish s
  | onEarnedCoin coin => cases hstep; exact (hR.onEarnedCoin env coin).finish s
  | getAcoins value => cases hstep; exact spendAcoins_safe env hs value
  | updateCoins => cases hstep; exact updateCoins_safe env hs hok
  | checkNextAcoins => cases hstep; exact (hR.checkNextAcoins env).finish s
  | onUpdate => cases hstep; exact (hR.onUpdate env).finish s
  | onNewInfo balance interval expiresCurrent expiresNext =>
    cases hstep
    exact (hR.onNewInfo env _ interval.toNat_lt _ _).finish s
  | stop => cases hstep; exact stop_safe env s
  | shutdownTimeout =>
    simp only [step, Option.ite_none_right_eq_some] at hstep
    obtain ⟨-, hstep⟩ := hstep
    cases hstep
    exact hR.shutdownDone.finish s
  | connectionMade j =>
    obtain ⟨f, -, rfl⟩ := Option.map_eq_some_iff.mp hstep
    exact (establish_safe j f).finish s
  | stringReceived j data acoins acoinsInDeposit =>
    obtain ⟨f, hf, rfl⟩ := Option.map_eq_some_iff.mp hstep
    cases f with
    | login done => exact (hR.loginStringReceived env j data _ _).finish s
    | message m =>
      cases m with
      | request value number requests => exact (hR.requestStringReceived env j _ _ _ _).finish s
      | deposit coins finishedDeferred gotResponse =>
        simp only [KeepsCoins, hf, ReplyDecodes] at hok
        refine depositStringReceived_safe env hs j coins finishedDeferred data ?_
        rcases hok with rfl | rfl | hdecodes
        · refine Or.inl fun c hc => ?_
          have hm : Message.deposit coins finishedDeferred true ∈ s.messages :=
            List.mem_append_right _ (List.mem_filterMap.mpr
              ⟨_, List.mem_of_getElem? (connectionIn_eq_some hf), rfl⟩)
          exact (hsettled coins finishedDeferred hm c hc).resolve_right (not_among_nil c)
        · exact Or.inl fun c hc => by cases hc
        · exact Or.inr hdecodes
  | connectionFailed j =>
    obtain ⟨f, hf, rfl⟩ := Option.map_eq_some_iff.mp hstep
    exact finishConnection_safe hsettled (connectionIn_eq_some hf)
  | connectionLost j =>
    obtain ⟨f, hf, rfl⟩ := Option.map_eq_some_iff.mp hstep
    exact finishConnection_safe hsettled (connectionIn_eq_some hf)

/-- In every run in which `update_coins` keeps what it takes and deposits are answered by
replies that decode, a coin that was once in `ACoins` or `depositingACoins` and is still fresh
is in one of them, unless it was given to a spender or the bank returned a status for it. -/
theorem live_coin_accounted (env : Environment) {as bs : List Action} {s t : BankConnection}
    (hs : Run (step env) (KeepsCoins env) new as s) (ht : Run (step env) (KeepsCoins env) s bs t)
    {coin : ACoin} (hheld : s.Held coin) (hfresh : coin.isFresh t.currentACoinInterval = true) :
    t.Held coin ∨ Among coin t.spent ∨ Among coin t.answered := by
  have hstep : ∀ {s t : BankConnection} {a : Action}, s.Bounded ∧ s.SettledBut [] → s.KeepsCoins env a →
      step env s a = some t → t.Bounded ∧ t.SettledBut [] := by
    intro s t a hinv hok hstep
    have hsafe := step_safe hinv.1 hinv.2 hok hstep
    exact ⟨hsafe.bounded hinv.1, hsafe.settled [] hinv.2⟩
  have hnew : new.Bounded ∧ new.SettledBut [] := by
    refine ⟨⟨Int.le_refl 0, by decide⟩, fun coins finishedDeferred hm => ?_⟩
    cases hm
  have hinv := hs.invariant hstep hnew
  have hsafe : Safe s t ∧ t.Bounded ∧ t.SettledBut [] := by
    refine ht.invariant (I := fun t => Safe s t ∧ t.Bounded ∧ t.SettledBut []) ?_ ⟨refl_of Safe s, hinv⟩
    intro t u a hI hok hu
    exact ⟨trans_of Safe hI.1 (step_safe hI.2.1 hI.2.2 hok hu), hstep hI.2 hok hu⟩
  have hinterval : t.currentACoinInterval - 1 ≤ coin.interval := by
    rcases (ACoin.isFresh_iff coin _).mp hfresh with h | h
    · omega
    · omega
  exact Safe.accounted hsafe.1 hinterval (Or.inl hheld)

/-- A coin of the first interval. -/
def exampleCoin : ACoin := { receipt := List.replicate 32 7, interval := 1, signature := [], value := 1 }

/-- A coin of the last interval is taken out and deposited, and the deposit is not answered. -/
theorem live_coin_accounted_deposit_unanswered :
    ∃ s t, Run (step exampleEnvironment) (KeepsCoins exampleEnvironment) new
        (loggingIn 0 2 ++ [.connectionLost 0, .addAcoin exampleCoin]) s ∧
      Run (step exampleEnvironment) (KeepsCoins exampleEnvironment) s
        [.updateCoins, .connectionMade 0, .connectionLost 0] t ∧
      s.Held exampleCoin ∧ exampleCoin.isFresh t.currentACoinInterval = true ∧
      ¬t.ACoins.Holds exampleCoin ∧
      (t.Held exampleCoin ∨ Among exampleCoin t.spent ∨ Among exampleCoin t.answered) := by
  have hend : (exec (step exampleEnvironment) new
      (loggingIn 0 2 ++ [.connectionLost 0, .addAcoin exampleCoin])).any (fun s =>
        decide (s.Held exampleCoin) &&
        decide (EachStep (step exampleEnvironment) (KeepsCoins exampleEnvironment) s
          [.updateCoins, .connectionMade 0, .connectionLost 0]) &&
        (exec (step exampleEnvironment) s [.updateCoins, .connectionMade 0, .connectionLost 0]).any fun t =>
          decide (exampleCoin.isFresh t.currentACoinInterval = true ∧ ¬t.ACoins.Holds exampleCoin)) =
        true := by
    decide +kernel
  have hok : EachStep (step exampleEnvironment) (KeepsCoins exampleEnvironment) new
      (loggingIn 0 2 ++ [.connectionLost 0, .addAcoin exampleCoin]) := by decide +kernel
  obtain ⟨s, hrun, hdecide⟩ := exists_run hend hok
  rw [Bool.and_eq_true, Bool.and_eq_true] at hdecide
  obtain ⟨⟨hheld, hok'⟩, hrest⟩ := hdecide
  obtain ⟨t, hrun', hdecide⟩ := exists_run hrest (of_decide_eq_true hok')
  obtain ⟨hfresh, hgone⟩ := of_decide_eq_true hdecide
  have hheld := of_decide_eq_true hheld
  exact ⟨s, t, hrun, hrun', hheld, hfresh, hgone,
    live_coin_accounted exampleEnvironment hrun hrun' hheld hfresh⟩

/-- While the client is stopping, `update_coins` takes a coin out of the wallet and
`deposit_acoins` returns without keeping it. -/
theorem coin_lost_while_stopping :
    ∃ s t, Run (step exampleEnvironment) (fun _ _ => True) new
        (loggingIn 0 2 ++ [.connectionLost 0, .stop, .addAcoin exampleCoin]) s ∧
      Run (step exampleEnvironment) (fun _ _ => True) s [.updateCoins] t ∧
      s.Held exampleCoin ∧ exampleCoin.isFresh t.currentACoinInterval = true ∧
      ¬(t.Held exampleCoin ∨ Among exampleCoin t.spent ∨ Among exampleCoin t.answered) := by
  have hend : (exec (step exampleEnvironment) new
      (loggingIn 0 2 ++ [.connectionLost 0, .stop, .addAcoin exampleCoin])).any (fun s =>
        decide (s.Held exampleCoin) &&
        (exec (step exampleEnvironment) s [.updateCoins]).any fun t =>
          decide (exampleCoin.isFresh t.currentACoinInterval = true ∧ ¬t.Accounted exampleCoin)) =
        true := by
    decide +kernel
  obtain ⟨s, hrun, hdecide⟩ := exists_run hend (eachStep_true _ _)
  rw [Bool.and_eq_true] at hdecide
  obtain ⟨t, hrun', hdecide'⟩ := exists_run hdecide.2 (eachStep_true _ _)
  obtain ⟨hfresh, hlost⟩ := of_decide_eq_true hdecide'
  exact ⟨s, t, hrun, hrun', of_decide_eq_true hdecide.1, hfresh, hlost⟩

end BankConnection

end BitBlinder.Client
