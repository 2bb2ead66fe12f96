import Mathlib.Data.List.Flatten
import BitBlinder.Client.ExactCoins

/-!
# The coins on disk

`save_coins` and `load_coins` keep the two collections of coins in two files, which are
replaced one after the other. A `Store` is a client that is logged in, with its files. It
may crash after each operation on the collections and after each replacement; it is then
started again and loads the files at the interval that the login tells it. Coins are
those that a reply of the bank or a payment can bring: they fit the format of the files.
-/

namespace BitBlinder.Client

set_option autoImplicit false
set_option maxRecDepth 2048

open Struct Effects

/-- What every coin is that was read from a message or made from a reply. -/
structure Storable (coin : ACoin) : Prop where
  receipt_length : coin.receipt.length = Globals.ACOIN_BYTES
  interval_nonneg : 0 ≤ coin.interval
  interval_lt : coin.interval < 2 ^ 32
  signature_length : coin.signature.length = Globals.ACOIN_KEY_BYTES
  value_eq : coin.value = ACoin.VALUE

instance (coin : ACoin) : Decidable (Storable coin) :=
  decidable_of_iff
    (coin.receipt.length = Globals.ACOIN_BYTES ∧ 0 ≤ coin.interval ∧ coin.interval < 2 ^ 32 ∧
      coin.signature.length = Globals.ACOIN_KEY_BYTES ∧ coin.value = ACoin.VALUE)
    ⟨fun ⟨h₁, h₂, h₃, h₄, h₅⟩ => ⟨h₁, h₂, h₃, h₄, h₅⟩,
      fun ⟨h₁, h₂, h₃, h₄, h₅⟩ => ⟨h₁, h₂, h₃, h₄, h₅⟩⟩

/-- The coins whose records follow one another in `data`. -/
def parseCoins : Nat → Bytes → List ACoin
  | 0, _ => []
  | fuel + 1, data =>
    match ACoin.readBinary data with
    | .ok (coin, data) => coin :: parseCoins fuel data
    | .error _ => []

def coinsIn : Option Bytes → List ACoin
  | none => []
  | some data => parseCoins data.length data

namespace BankConnection

/-- A client that has just logged in. -/
def loggedIn (interval : Int) : BankConnection :=
  { new with isLoggedIn := true, filesNamed := true, currentACoinInterval := interval }

/-- `stop` of a client that is logged in, before `save_coins`. -/
def beginStop (env : Environment) : Py Unit := do
  let s ← get
  when (!s.shutdownDeferred) do
    modify fun s => { s with messageQueue := [] }
    let order ← nextOrder env
    let coins := order s.ACoins.coins
    modify fun s => { s with
      shutdownDeferred := true
      ACoins := .empty
      depositingACoins := s.depositingACoins ++ coins
      coinsChanged := true }

/-- The first statement of `_shutdown_success`. -/
def markChanged : Py Unit := modify fun s => { s with coinsChanged := true }

end BankConnection

/-- The collections at a save, and the interval then. -/
structure SavedCoins where
  acoins : List ACoin
  depositing : List ACoin
  interval : Int

/-- `saving` holds between the two replacements of a save, and `torn` as long as the files are not
those of one save; `saved` is what the last completed save was given. No function reads the two. -/
structure Store where
  bank : BankConnection
  acoinFile : Option Bytes
  depositedFile : Option Bytes
  saving : Bool
  torn : Bool
  saved : SavedCoins

namespace Store

open BankConnection

inductive Operation where
  | addAcoin (coin : ACoin)
  | removeCoin (coin : ACoin)
  | depositAcoins (coins : List ACoin)
  | onDone (coins : List ACoin) (gotResponse : Bool)
  | learnInterval (curTime random₁ random₂ : Rat) (interval expiresCurrent expiresNext : UInt32)
  | beginStop
  | shutdownSuccess
  | saveFirst
  | saveSecond
  | restart (interval : UInt32)

/-- The first login of a user, who has no files. -/
def start (interval : UInt32) : Store where
  bank := loggedIn interval.toNat
  acoinFile := none
  depositedFile := none
  saving := false
  torn := false
  saved := { acoins := [], depositing := [], interval := interval.toNat }

/-- What a new process is after `load_coins`. -/
def reload (s : Store) (interval : Int) : BankConnection :=
  finish (loadCoins s.acoinFile s.depositedFile) (loggedIn interval)

def withBank (s : Store) (bank : BankConnection) : Store := { s with bank := bank }

/-- An operation is carried out when no save is under way. -/
def call {α : Type} (s : Store) (x : Py α) : Option Store :=
  if s.saving then none else some (s.withBank (finish x s.bank))

def saveFirst (s : Store) : Option Store :=
  if !s.saving ∧ s.bank.coinsChanged ∧ s.bank.filesNamed then
    (writeCoins s.bank.coinsToSave).toOption.map fun data =>
      { s with
        bank := finish (output (.wrote .acoins data)) s.bank
        acoinFile := some data
        saving := true
        torn := true }
  else none

def saveSecond (s : Store) : Option Store :=
  if s.saving then
    (writeCoins s.bank.depositingACoins).toOption.map fun data =>
      { s with
        bank := { finish (output (.wrote .acoinsInDeposit data)) s.bank with coinsChanged := false }
        depositedFile := some data
        saving := false
        torn := false
        saved := {
          acoins := s.bank.ACoins.coins
          depositing := s.bank.depositingACoins
          interval := s.bank.currentACoinInterval } }
  else none

def step (env : Environment) (s : Store) : Operation → Option Store
  | .addAcoin coin => if Storable coin then s.call (addAcoin coin) else none
  | .removeCoin coin => s.call (removeCoin coin)
  | .depositAcoins coins => if ∀ coin ∈ coins, Storable coin then s.call (depositAcoins coins) else none
  | .onDone coins gotResponse => s.call (onDone coins false gotResponse)
  | .learnInterval curTime random₁ random₂ interval expiresCurrent expiresNext => s.call do
    let b ← get
    when (b.currentACoinInterval < interval.toNat) do
      modify (learnInterval curTime random₁ random₂ interval.toNat expiresCurrent.toNat expiresNext.toNat)
  | .beginStop => s.call (beginStop env)
  | .shutdownSuccess => s.call markChanged
  | .saveFirst => s.saveFirst
  | .saveSecond => s.saveSecond
  | .restart interval => some { s with bank := s.reload interval.toNat, saving := false }

end Store

/-! ### The coins of a wallet as a list -/

namespace Wallet

theorem keys_nodup (w : Wallet) : (w.coins.map ACoin.key).Nodup := by
  rw [coins_eq_flatMap, List.map_flatMap, List.nodup_flatMap]
  refine ⟨fun i _ => w.nodup_coinsOf i, w.sets.keys_nodup.imp fun {i j} hij => ?_⟩
  rintro key hi hj
  obtain ⟨c, hc, rfl⟩ := List.mem_map.mp hi
  obtain ⟨d, hd, hkey⟩ := List.mem_map.mp hj
  have hinterval : d.interval = c.interval := congrArg (fun k => k.2.2) hkey
  rw [interval_of_mem_coinsOf hc, interval_of_mem_coinsOf hd] at hinterval
  exact hij hinterval.symm

theorem nodup_coins (w : Wallet) : w.coins.Nodup := w.keys_nodup.of_map

theorem mem_coins_add {w : Wallet} {coin c : ACoin} (h : ¬w.Holds coin) :
    c ∈ (w.add coin).coins ↔ c = coin ∨ c ∈ w.coins := by
  rw [mem_coins, mem_coins, add, dif_neg h, coinsOf_put]
  by_cases hinterval : c.interval = coin.interval
  · rw [if_pos hinterval, List.mem_append, List.mem_singleton, hinterval]
    exact or_comm
  · rw [if_neg hinterval]
    refine ⟨Or.inr, ?_⟩
    rintro (rfl | hc)
    · exact absurd rfl hinterval
    · exact hc

theorem mem_coins_delete {w : Wallet} {i : Int} {c : ACoin} :
    c ∈ (w.delete i).coins ↔ c ∈ w.coins ∧ c.interval ≠ i := by
  rw [mem_coins, mem_coins, coinsOf_delete]
  by_cases hi : c.interval = i
  · simp [hi]
  · simp [hi]

/-- Deleting a set of coins changes nothing exactly when there are none. -/
theorem perm_delete_iff {w : Wallet} {i : Int} : w.coins.Perm (w.delete i).coins ↔ w.coinsOf i = [] := by
  constructor
  · intro hperm
    by_contra hne
    obtain ⟨c, hc⟩ := List.exists_mem_of_ne_nil _ hne
    have hinterval := interval_of_mem_coinsOf hc
    have hcoins : c ∈ w.coins := mem_coins.mpr (hinterval.symm ▸ hc)
    exact (mem_coins_delete.mp (hperm.mem_iff.mp hcoins)).2 hinterval
  · intro hnil
    refine (List.perm_ext_iff_of_nodup w.nodup_coins (nodup_coins _)).mpr fun c => ?_
    rw [mem_coins_delete]
    refine (and_iff_left_of_imp fun hc hinterval => ?_).symm
    rw [mem_coins, hinterval, hnil] at hc
    cases hc

theorem mem_of_mem_remove {w : Wallet} {coin c : ACoin} (h : c ∈ (w.remove coin).coins) : c ∈ w.coins := by
  rw [mem_coins] at h ⊢
  unfold remove at h
  rw [coinsOf_put] at h
  split at h
  · rename_i hinterval
    rw [hinterval]
    exact List.mem_of_mem_filter h
  · exact h

/-- Adding coins one after another. -/
def addAll (w : Wallet) (coins : List ACoin) : Wallet := coins.foldl add w

theorem mem_coins_addAll {w : Wallet} {coins : List ACoin} (hnodup : (coins.map ACoin.key).Nodup)
    (hnew : ∀ c ∈ coins, ¬w.Holds c) {c : ACoin} : c ∈ (w.addAll coins).coins ↔ c ∈ coins ∨ c ∈ w.coins := by
  induction coins generalizing w with
  | nil => simp [addAll]
  | cons coin coins ih =>
    rw [List.map_cons, List.nodup_cons] at hnodup
    have hcoin := hnew coin List.mem_cons_self
    have hrest : ∀ d ∈ coins, ¬(w.add coin).Holds d := by
      intro d hd hheld
      rcases holds_add.mp hheld with hkey | hheld
      · exact hnodup.1 (hkey ▸ List.mem_map_of_mem hd)
      · exact hnew d (List.mem_cons_of_mem _ hd) hheld
    have hcons : w.addAll (coin :: coins) = (w.add coin).addAll coins := rfl
    rw [hcons, ih hnodup.2 hrest, mem_coins_add hcoin, List.mem_cons, or_left_comm, or_assoc]

end Wallet

namespace BankConnection

variable {s : BankConnection}

theorem mem_coinsToSave {c : ACoin} :
    c ∈ s.coinsToSave ↔ c ∈ s.ACoins.coins ∧ s.currentACoinInterval - 1 ≤ c.interval := by
  unfold coinsToSave Wallet.coins
  simp only [List.mem_flatMap, List.mem_filter, decide_eq_true_eq]
  constructor
  · rintro ⟨e, ⟨he, hnot⟩, hc⟩
    have hinterval := Wallet.interval_of_mem_coinsOf ((Wallet.coinsOf_of_mem_entries he).symm ▸ hc)
    refine ⟨⟨e, he, hc⟩, Int.not_lt.mp fun hlt => hnot ⟨hinterval ▸ hlt, ?_⟩⟩
    exact fun hzero => List.ne_nil_of_mem hc (List.length_eq_zero_iff.mp hzero)
  · rintro ⟨⟨e, he, hc⟩, hle⟩
    have hinterval := Wallet.interval_of_mem_coinsOf ((Wallet.coinsOf_of_mem_entries he).symm ▸ hc)
    refine ⟨e, ⟨he, fun hold => ?_⟩, hc⟩
    rw [← hinterval] at hold
    omega

theorem keys_nodup_coinsToSave (s : BankConnection) : (s.coinsToSave.map ACoin.key).Nodup := by
  refine s.ACoins.keys_nodup.sublist (List.Sublist.map _ ?_)
  exact List.filter_sublist.flatMap _

end BankConnection

/-! ### Reading what was written -/

theorem Storable.write_read {coin : ACoin} (h : Storable coin) :
    ∃ bytes, coin.writeBinary = .ok bytes ∧ 0 < bytes.length ∧
      ∀ rest, ACoin.readBinary (bytes ++ rest) = .ok (coin, rest) := by
  have hfits : Struct.Fits ACoin.MESSAGE_FORMAT (coin.receipt, coin.interval.toNat, coin.signature, ()) := by
    refine ⟨h.receipt_length, ?_, h.signature_length, trivial⟩
    change coin.interval.toNat < 256 ^ 4
    have hlt := h.interval_lt
    omega
  obtain ⟨bytes, hpack, hlength, -⟩ := Basic.readMessage_append hfits []
  refine ⟨bytes, ?_, ?_, fun rest => ?_⟩
  · unfold ACoin.writeBinary Basic.toUnsigned
    rw [if_pos h.interval_nonneg, PyExcept.ok_bind]
    exact hpack
  · rw [hlength]
    decide
  · obtain ⟨bytes', hpack', -, hread⟩ := Basic.readMessage_append hfits rest
    obtain rfl := Except.ok.inj (hpack.symm.trans hpack')
    have hinterval : ((coin.interval.toNat : Nat) : Int) = coin.interval := Int.toNat_of_nonneg h.interval_nonneg
    unfold ACoin.readBinary
    rw [hread, PyExcept.ok_bind]
    simp only [PyExcept.pure_eq, hinterval, ← h.value_eq]

theorem parseCoins_nil (fuel : Nat) : parseCoins fuel [] = [] := by
  cases fuel with
  | zero => rfl
  | succ fuel => rfl

namespace BankConnection

/-- The coins of a file that are fresh, given to `addFunc` one after another. -/
def addFresh (addFunc : ACoin → Py Unit) : List ACoin → Py Unit
  | [] => return ()
  | coin :: coins => do
    let s ← get
    when (coin.isFreshClient s.currentACoinInterval) (addFunc coin)
    addFresh addFunc coins

theorem writeCoins_read {coins : List ACoin} (h : ∀ c ∈ coins, Storable c) :
    ∃ data, writeCoins coins = .ok data ∧ coins.length ≤ data.length ∧
      ∀ fuel, coins.length ≤ fuel → parseCoins fuel data = coins ∧
        ∀ addFunc s, readCoins addFunc fuel data s = addFresh addFunc coins s := by
  induction coins with
  | nil =>
    refine ⟨[], rfl, Nat.le_refl _, fun fuel _ => ⟨parseCoins_nil fuel, fun addFunc s => ?_⟩⟩
    cases fuel with
    | zero => rfl
    | succ fuel => rfl
  | cons coin coins ih =>
    obtain ⟨bytes, hwrite, hpos, hread⟩ := (h coin List.mem_cons_self).write_read
    obtain ⟨rest, hrest, hlength, hparse⟩ := ih fun c hc => h c (List.mem_cons_of_mem _ hc)
    refine ⟨bytes ++ rest, ?_, ?_, fun fuel hfuel => ?_⟩
    · rw [writeCoins, hwrite, PyExcept.ok_bind, hrest, PyExcept.ok_bind]
      rfl
    · rw [List.length_append, List.length_cons]
      omega
    · obtain ⟨fuel, rfl⟩ := Nat.exists_eq_add_one_of_ne_zero
        (Nat.ne_of_gt (Nat.lt_of_lt_of_le (Nat.succ_pos coins.length) hfuel))
      obtain ⟨hcoins, hloop⟩ := hparse fuel (Nat.le_of_succ_le_succ hfuel)
      refine ⟨?_, fun addFunc s => ?_⟩
      · rw [parseCoins, hread rest]
        dsimp only
        rw [hcoins]
      · have hnonempty : 0 < (bytes ++ rest).length := by
          rw [List.length_append]
          omega
        have hsame : readCoins addFunc fuel rest = addFresh addFunc coins := funext (hloop addFunc)
        rw [readCoins, addFresh]
        simp only [when, if_pos hnonempty, hread rest, attempt, pure_bind, hsame]

end BankConnection

/-- The file was written by `save_coins`, or there is none. -/
structure Written (file : Option Bytes) : Prop where
  storable : ∀ c ∈ coinsIn file, Storable c
  contents : ∀ data ∈ file, BankConnection.writeCoins (coinsIn file) = .ok data

theorem written_none : Written none := by
  refine ⟨fun c hc => ?_, fun data hdata => ?_⟩
  · cases hc
  · cases hdata

theorem coinsIn_of_writeCoins {coins : List ACoin} {data : Bytes} (h : ∀ c ∈ coins, Storable c)
    (hwrite : BankConnection.writeCoins coins = .ok data) : coinsIn (some data) = coins := by
  obtain ⟨data', hwrite', hlength, hread⟩ := BankConnection.writeCoins_read h
  obtain rfl := Except.ok.inj (hwrite.symm.trans hwrite')
  exact (hread data.length hlength).1

theorem written_of_writeCoins {coins : List ACoin} {data : Bytes} (h : ∀ c ∈ coins, Storable c)
    (hwrite : BankConnection.writeCoins coins = .ok data) : Written (some data) := by
  have hcoins := coinsIn_of_writeCoins h hwrite
  refine ⟨fun c hc => h c (hcoins ▸ hc), fun data' hdata => ?_⟩
  cases hdata
  rw [hcoins]
  exact hwrite

/-- The coins that are fresh at an interval. -/
def freshAt (interval : Int) (coins : List ACoin) : List ACoin := coins.filter fun c => c.isFreshClient interval

theorem mem_freshAt {interval : Int} {coins : List ACoin} {c : ACoin} :
    c ∈ freshAt interval coins ↔ c ∈ coins ∧ c.isFreshClient interval = true :=
  List.mem_filter

namespace BankConnection

theorem readFile_eq {file : Option Bytes} (h : Written file) (addFunc : ACoin → Py Unit) (s : BankConnection) :
    readFile addFunc file s = addFresh addFunc (coinsIn file) s := by
  cases file with
  | none => rfl
  | some data =>
    obtain ⟨data', hwrite, hlength, hread⟩ := writeCoins_read h.storable
    obtain rfl := Except.ok.inj ((h.contents data rfl).symm.trans hwrite)
    exact (hread data.length hlength).2 addFunc s

theorem addFresh_cons_of_fresh {addFunc : ACoin → Py Unit} {coin : ACoin} {s t : BankConnection}
    (hfresh : coin.isFreshClient s.currentACoinInterval = true) (hadd : addFunc coin s = .ok () t) (coins : List ACoin) :
    addFresh addFunc (coin :: coins) s = addFresh addFunc coins t := by
  have hcons : addFresh addFunc (coin :: coins) s =
      (when (coin.isFreshClient s.currentACoinInterval) (addFunc coin) >>= fun _ => addFresh addFunc coins) s := rfl
  rw [hcons, when, if_pos hfresh]
  exact bind_eq_ok hadd

theorem addFresh_cons_of_stale {addFunc : ACoin → Py Unit} {coin : ACoin} {s : BankConnection}
    (hfresh : ¬coin.isFreshClient s.currentACoinInterval = true) (coins : List ACoin) :
    addFresh addFunc (coin :: coins) s = addFresh addFunc coins s := by
  have hcons : addFresh addFunc (coin :: coins) s =
      (when (coin.isFreshClient s.currentACoinInterval) (addFunc coin) >>= fun _ => addFresh addFunc coins) s := rfl
  rw [hcons, when, if_neg hfresh]
  rfl

theorem addAcoin_eq {coin : ACoin} {s : BankConnection} (h : ¬s.ACoins.Holds coin) :
    addAcoin coin s = .ok () { s with ACoins := s.ACoins.add coin, coinsChanged := true } := by
  rw [eq_ok_iff]
  simp only [addAcoin, outcome_bind, outcome_get, outcome_ite, if_neg h, outcome_modify, and_self]

theorem addFresh_addAcoin {coins : List ACoin} {s : BankConnection} (hnodup : (coins.map ACoin.key).Nodup)
    (hnew : ∀ c ∈ coins, ¬s.ACoins.Holds c) :
    addFresh addAcoin coins s = .ok ()
      { s with
        ACoins := s.ACoins.addAll (freshAt s.currentACoinInterval coins)
        coinsChanged := s.coinsChanged || !(freshAt s.currentACoinInterval coins).isEmpty } := by
  induction coins generalizing s with
  | nil => simp [addFresh, freshAt, Wallet.addAll, pure, EStateM.pure]
  | cons coin coins ih =>
    rw [List.map_cons, List.nodup_cons] at hnodup
    have hcoin := hnew coin List.mem_cons_self
    by_cases hfresh : coin.isFreshClient s.currentACoinInterval = true
    · have hrest : ∀ c ∈ coins, ¬(s.ACoins.add coin).Holds c := by
        intro c hc hheld
        rcases Wallet.holds_add.mp hheld with hkey | hheld
        · exact hnodup.1 (hkey ▸ List.mem_map_of_mem hc)
        · exact hnew c (List.mem_cons_of_mem _ hc) hheld
      have hcons : freshAt s.currentACoinInterval (coin :: coins) = coin :: freshAt s.currentACoinInterval coins :=
        List.filter_cons_of_pos hfresh
      rw [addFresh_cons_of_fresh hfresh (addAcoin_eq hcoin), ih hnodup.2 hrest, hcons]
      simp [Wallet.addAll]
    · have hcons : freshAt s.currentACoinInterval (coin :: coins) = freshAt s.currentACoinInterval coins :=
        List.filter_cons_of_neg hfresh
      rw [addFresh_cons_of_stale hfresh, ih hnodup.2 fun c hc => hnew c (List.mem_cons_of_mem _ hc), hcons]

theorem addFresh_appendDepositing (coins : List ACoin) (s : BankConnection) :
    addFresh appendDepositing coins s = .ok ()
      { s with depositingACoins := s.depositingACoins ++ freshAt s.currentACoinInterval coins } := by
  induction coins generalizing s with
  | nil => simp [addFresh, freshAt, pure, EStateM.pure]
  | cons coin coins ih =>
    by_cases hfresh : coin.isFreshClient s.currentACoinInterval = true
    · have happend : appendDepositing coin s =
          .ok () { s with depositingACoins := s.depositingACoins ++ [coin] } := rfl
      have hcons : freshAt s.currentACoinInterval (coin :: coins) = coin :: freshAt s.currentACoinInterval coins :=
        List.filter_cons_of_pos hfresh
      rw [addFresh_cons_of_fresh hfresh happend, ih, hcons]
      simp
    · have hcons : freshAt s.currentACoinInterval (coin :: coins) = freshAt s.currentACoinInterval coins :=
        List.filter_cons_of_neg hfresh
      rw [addFresh_cons_of_stale hfresh, ih, hcons]

/-- What a new process has loaded from two files. -/
def loaded (interval : Int) (acoins depositing : List ACoin) : BankConnection :=
  { loggedIn interval with
    ACoins := Wallet.empty.addAll (freshAt interval acoins)
    depositingACoins := freshAt interval depositing
    coinsChanged := !(freshAt interval acoins).isEmpty }

/-- Nothing is raised for files that `save_coins` wrote, so that nothing is left out but what is not fresh. -/
theorem loadCoins_eq {acoins acoinsInDeposit : Option Bytes} (hacoins : Written acoins) (hdeposit : Written acoinsInDeposit)
    (hnodup : ((coinsIn acoins).map ACoin.key).Nodup) (interval : Int) :
    loadCoins acoins acoinsInDeposit (loggedIn interval) =
      .ok () (loaded interval (coinsIn acoins) (coinsIn acoinsInDeposit)) := by
  have hnew : ∀ c ∈ coinsIn acoins, ¬(loggedIn interval).ACoins.Holds c := fun c _ => Wallet.holds_empty c
  have hfirst := (readFile_eq hacoins addAcoin (loggedIn interval)).trans (addFresh_addAcoin hnodup hnew)
  have hsecond := fun s => (readFile_eq hdeposit appendDepositing s).trans (addFresh_appendDepositing _ s)
  have hempty : ¬(loggedIn interval).ACoins.sets.entries ≠ [] := fun hne => hne rfl
  rw [eq_ok_iff, loadCoins, outcome_rescue]
  simp only [outcome_bind, outcome_get, outcome_when, if_neg hempty]
  rw [outcome_of_eq_ok hfirst]
  have hnone : ¬(loggedIn interval).depositingACoins ≠ [] := fun hne => hne rfl
  simp only [if_neg hnone]
  rw [outcome_of_eq_ok (hsecond _)]
  exact ⟨trivial, rfl⟩

end BankConnection

/-! ### What is to hold, and when it does -/

namespace BankConnection

/-- The coins of both collections. -/
def held (s : BankConnection) : List ACoin := s.ACoins.coins ++ s.depositingACoins

/-- What `deposit_acoins` makes of the coins that are being deposited. -/
def joinDeposit (depositing coins : List ACoin) : List ACoin :=
  coins.foldl (fun depositing coin => if Among coin depositing then depositing else depositing ++ [coin]) depositing

end BankConnection

def SavedCoins.coins (saved : SavedCoins) : List ACoin := saved.acoins ++ saved.depositing

namespace Store

open BankConnection

def onDisk (s : Store) : List ACoin := coinsIn s.acoinFile ++ coinsIn s.depositedFile

/-- Were the client to crash now, no fresh coin that it had at the last completed save and still has would be
lost; the files of one save hold the fresh coins of that save, and those of a client without changes its coins. -/
structure Persistent (s : Store) : Prop where
  recovered : ∀ (interval : Int) (coin : ACoin), s.bank.currentACoinInterval ≤ interval →
    coin.isFreshClient interval = true → coin ∈ s.saved.coins → coin ∈ s.bank.held → coin ∈ (s.reload interval).held
  exact : s.torn = false →
    (s.reload s.saved.interval).ACoins.coins.Perm (freshAt s.saved.interval s.saved.acoins) ∧
      (s.reload s.saved.interval).depositingACoins = freshAt s.saved.interval s.saved.depositing
  clean : s.bank.coinsChanged = false →
    (coinsIn s.acoinFile).Perm s.bank.ACoins.coins ∧ (coinsIn s.depositedFile).Perm s.bank.depositingACoins

/-- None of the coins was there at the last completed save, may still be fresh and is in neither file. -/
def NoneLost (s : Store) (coins : List ACoin) : Prop :=
  ∀ coin ∈ coins, coin ∈ s.saved.coins → s.bank.currentACoinInterval - 1 ≤ coin.interval → coin ∈ s.onDisk

instance (s : Store) (coins : List ACoin) : Decidable (s.NoneLost coins) :=
  inferInstanceAs (Decidable (∀ coin ∈ coins, _ → _ → _))

/-- A coin that comes in was not lost from the files before. What changes a collection without setting
`coinsChanged` finds it set or nothing to change. No coin has moved to the coins in deposit between two saves when the
first file is replaced, and none is too old when the second is. The files that are loaded hold a fresh coin of
the wallet, or fresh coins in deposit only. -/
def Careful (s : Store) : Operation → Prop
  | .addAcoin coin => ¬s.bank.ACoins.Holds coin → s.NoneLost [coin]
  | .depositAcoins coins => s.bank.isStopping = false →
      s.NoneLost (joinDeposit s.bank.depositingACoins coins) ∧
        (s.bank.coinsChanged = true ∨ ∀ coin ∈ coins, Among coin s.bank.depositingACoins)
  | .onDone coins gotResponse => gotResponse = true →
      s.bank.coinsChanged = true ∨ ∀ coin ∈ coins, ¬Among coin s.bank.depositingACoins
  | .learnInterval _ _ _ interval _ _ => s.bank.currentACoinInterval < interval.toNat →
      s.bank.coinsChanged = true ∨ s.bank.ACoins.coinsOf (s.bank.currentACoinInterval - 1) = []
  | .saveFirst => ∀ coin ∈ s.bank.depositingACoins, coin ∈ s.saved.coins →
      s.bank.currentACoinInterval - 1 ≤ coin.interval → coin ∈ s.bank.ACoins.coins ++ coinsIn s.depositedFile
  | .saveSecond => ∀ coin ∈ s.bank.ACoins.coins, s.bank.currentACoinInterval - 1 ≤ coin.interval
  | .restart interval => freshAt interval.toNat (coinsIn s.acoinFile) ≠ [] ∨
      coinsIn s.acoinFile = [] ∧ ∀ coin ∈ coinsIn s.depositedFile, coin.isFreshClient interval.toNat = true
  | .removeCoin _ | .beginStop | .shutdownSuccess => True

instance (s : Store) : ∀ op, Decidable (s.Careful op)
  | .addAcoin _ => inferInstanceAs (Decidable (_ → _))
  | .depositAcoins _ => inferInstanceAs (Decidable (_ → _))
  | .onDone _ _ => inferInstanceAs (Decidable (_ → _))
  | .learnInterval .. => inferInstanceAs (Decidable (_ → _))
  | .saveFirst => inferInstanceAs (Decidable (∀ coin ∈ _, _ → _ → _))
  | .saveSecond => inferInstanceAs (Decidable (∀ coin ∈ _, _))
  | .restart _ => inferInstanceAs (Decidable (_ ∨ _))
  | .removeCoin _ | .beginStop | .shutdownSuccess => isTrue trivial

end Store

/-! ### Loading the files of a store -/

namespace BankConnection

variable {interval : Int} {acoins depositing : List ACoin}

theorem mem_loaded_acoins (hnodup : (acoins.map ACoin.key).Nodup) {c : ACoin} :
    c ∈ (loaded interval acoins depositing).ACoins.coins ↔ c ∈ freshAt interval acoins := by
  have hsub : ((freshAt interval acoins).map ACoin.key).Nodup := hnodup.sublist (List.filter_sublist.map ACoin.key)
  have hmem := Wallet.mem_coins_addAll hsub (fun c _ => Wallet.holds_empty c) (c := c)
  exact hmem.trans (or_iff_left (List.not_mem_nil))

theorem loaded_acoins_perm (interval : Int) (depositing : List ACoin) (hnodup : (acoins.map ACoin.key).Nodup) :
    (loaded interval acoins depositing).ACoins.coins.Perm (freshAt interval acoins) := by
  have hsub : (freshAt interval acoins).Nodup := (hnodup.of_map).sublist List.filter_sublist
  exact (List.perm_ext_iff_of_nodup (Wallet.nodup_coins _) hsub).mpr fun c => mem_loaded_acoins hnodup

theorem mem_held_loaded (hnodup : (acoins.map ACoin.key).Nodup) {c : ACoin} :
    c ∈ (loaded interval acoins depositing).held ↔ c ∈ acoins ++ depositing ∧ c.isFreshClient interval = true := by
  have hsecond : c ∈ (loaded interval acoins depositing).depositingACoins ↔ c ∈ freshAt interval depositing := Iff.rfl
  rw [held, List.mem_append, mem_loaded_acoins hnodup, hsecond, mem_freshAt, mem_freshAt, List.mem_append, or_and_right]

end BankConnection

namespace Store

open BankConnection

variable {s t : Store}

/-- What holds of a store in every run. -/
structure Sound (s : Store) : Prop where
  acoins : ∀ c ∈ s.bank.ACoins.coins, Storable c
  depositing : ∀ c ∈ s.bank.depositingACoins, Storable c
  acoinFile : Written s.acoinFile
  depositedFile : Written s.depositedFile
  nodup : ((coinsIn s.acoinFile).map ACoin.key).Nodup
  named : s.bank.filesNamed = true
  saving : s.saving = true →
    s.torn = true ∧ s.bank.coinsChanged = true ∧ coinsIn s.acoinFile = s.bank.coinsToSave
  whole : s.torn = false →
    (freshAt s.saved.interval (coinsIn s.acoinFile)).Perm (freshAt s.saved.interval s.saved.acoins) ∧
      coinsIn s.depositedFile = s.saved.depositing

/-- The claim about the files, without loading them. -/
structure Secured (s : Store) : Prop where
  recovered : s.NoneLost s.bank.held
  clean : s.bank.coinsChanged = false →
    (coinsIn s.acoinFile).Perm s.bank.ACoins.coins ∧ (coinsIn s.depositedFile).Perm s.bank.depositingACoins

theorem Sound.reload_eq (hs : s.Sound) (interval : Int) :
    s.reload interval = loaded interval (coinsIn s.acoinFile) (coinsIn s.depositedFile) := by
  rw [reload, finish, loadCoins_eq hs.acoinFile hs.depositedFile hs.nodup]

/-- A coin is fresh at some interval to come exactly when it is not older than the last. -/
theorem exists_fresh_iff {coin : ACoin} {current : Int} :
    (∃ interval, current ≤ interval ∧ coin.isFreshClient interval = true) ↔ current - 1 ≤ coin.interval := by
  simp only [ACoin.isFreshClient, Bool.and_eq_true, decide_eq_true_eq]
  constructor
  · rintro ⟨interval, hle, hlow, -⟩
    omega
  · intro hle
    exact ⟨max current coin.interval, by omega, by omega, by omega⟩

theorem Sound.persistent_iff (hs : s.Sound) : s.Persistent ↔ s.Secured := by
  constructor
  · intro h
    refine ⟨fun coin hheld hsaved hle => ?_, h.clean⟩
    obtain ⟨interval, hinterval, hfresh⟩ := exists_fresh_iff.mpr hle
    have hloaded := h.recovered interval coin hinterval hfresh hsaved hheld
    rw [hs.reload_eq, mem_held_loaded hs.nodup] at hloaded
    exact hloaded.1
  · intro h
    refine ⟨fun interval coin hinterval hfresh hsaved hheld => ?_, fun htorn => ?_, h.clean⟩
    · rw [hs.reload_eq, mem_held_loaded hs.nodup]
      exact ⟨h.recovered coin hheld hsaved (exists_fresh_iff.mp ⟨interval, hinterval, hfresh⟩), hfresh⟩
    · obtain ⟨hacoins, hdeposit⟩ := hs.whole htorn
      rw [hs.reload_eq]
      refine ⟨(loaded_acoins_perm _ _ hs.nodup).trans hacoins, ?_⟩
      rw [← hdeposit]
      rfl

end Store

/-! ### What the operations do to the collections -/

namespace BankConnection

variable {s : BankConnection}

theorem finish_addAcoin (coin : ACoin) (s : BankConnection) :
    finish (addAcoin coin) s =
      if s.ACoins.Holds coin then s else { s with ACoins := s.ACoins.add coin, coinsChanged := true } := by
  refine (outcome_finish (I := (· = _))).mp ?_
  simp only [addAcoin, outcome_bind, outcome_get, outcome_ite, outcome_throw, outcome_modify]
  split
  · rfl
  · rfl

theorem finish_removeCoin (coin : ACoin) (s : BankConnection) :
    finish (removeCoin coin) s =
      if s.ACoins.Holds coin then { s with ACoins := s.ACoins.remove coin, coinsChanged := true } else s := by
  refine (outcome_finish (I := (· = _))).mp ?_
  simp only [removeCoin, outcome_bind, outcome_get, outcome_ite, outcome_modify, outcome_pure]
  split
  · rfl
  · rfl

/-- Coins have joined those in deposit, and nothing else has changed that the files depend on. -/
structure Joined (coins : List ACoin) (s t : BankConnection) : Prop where
  acoins : t.ACoins = s.ACoins
  changed : t.coinsChanged = s.coinsChanged
  interval : t.currentACoinInterval = s.currentACoinInterval
  named : t.filesNamed = s.filesNamed
  depositing : t.depositingACoins = if s.isStopping then s.depositingACoins else joinDeposit s.depositingACoins coins

theorem finish_depositAcoins (coins : List ACoin) (s : BankConnection) : Joined coins s (finish (depositAcoins coins) s) := by
  apply outcome_finish.mp
  simp only [depositAcoins, sendMessage, sendNextMessage, outcome_bind, outcome_get, outcome_when, outcome_ite,
    outcome_modify]
  cases hstopping : s.isStopping with
  | true => exact ⟨rfl, rfl, rfl, rfl, (if_pos hstopping).symm⟩
  | false =>
    have hjoin : joinDeposit s.depositingACoins coins =
        if s.isStopping then s.depositingACoins else joinDeposit s.depositingACoins coins := by
      rw [hstopping]
      rfl
    cases s.messageInProgress with
    | true => exact ⟨rfl, rfl, rfl, rfl, hjoin⟩
    | false => exact ⟨rfl, rfl, rfl, rfl, hjoin⟩

/-- The coins left when those of an answered deposit are taken out. -/
def leaveDeposit (depositing coins : List ACoin) : List ACoin :=
  coins.foldl (fun depositing coin => depositing.eraseP fun c => c.key = coin.key) depositing

theorem finish_onDone (coins : List ACoin) (gotResponse : Bool) (s : BankConnection) :
    finish (onDone coins false gotResponse) s =
      { s with
        acoinDepositInProgress := false
        depositingACoins := if gotResponse then leaveDeposit s.depositingACoins coins else s.depositingACoins } := by
  cases gotResponse with
  | true => rfl
  | false => rfl

theorem finish_beginStop (env : Environment) (s : BankConnection) :
    finish (beginStop env) s =
      if s.shutdownDeferred then s
      else { s with
        messageQueue := []
        iterations := s.iterations + 1
        shutdownDeferred := true
        ACoins := .empty
        depositingACoins := s.depositingACoins ++ env.iterate s.iterations s.ACoins.coins
        coinsChanged := true } := by
  refine (outcome_finish (I := (· = _))).mp ?_
  simp only [beginStop, nextOrder, outcome_bind, outcome_get, outcome_when, outcome_modify, outcome_pure]
  cases s.shutdownDeferred with
  | true => rfl
  | false => rfl

theorem finish_learnInterval (curTime random₁ random₂ : Rat) (interval expiresCurrent expiresNext : UInt32)
    (s : BankConnection) :
    finish (do
        let b ← get
        when (b.currentACoinInterval < interval.toNat) do
          modify (learnInterval curTime random₁ random₂ interval.toNat expiresCurrent.toNat expiresNext.toNat) : Py Unit) s =
      if s.currentACoinInterval < interval.toNat then
        learnInterval curTime random₁ random₂ interval.toNat expiresCurrent.toNat expiresNext.toNat s
      else s := by
  refine (outcome_finish (I := (· = _))).mp ?_
  simp only [outcome_bind, outcome_get, outcome_when, outcome_modify]
  split
  · rfl
  · rfl

/-- `stop` saves what `beginStop` leaves, and then sends the coins to the bank. -/
theorem stop_eq (env : Environment) {s : BankConnection} (hlogged : s.isLoggedIn = true) (hrunning : s.shutdownDeferred = false) :
    stop env s = (do
      beginStop env
      saveCoins
      let t ← get
      sendMessage (.deposit (if !t.acoinDepositInProgress then t.depositingACoins
        else env.iterate s.iterations s.ACoins.coins) true false) : Py Unit) s := by
  simp only [stop, beginStop, nextOrder, when, bind_assoc, pure_bind, get_bind, modify_bind, hrunning, hlogged,
    Bool.not_false, if_pos]
  rfl

theorem joinDeposit_eq (depositing coins : List ACoin) :
    ∃ extra, joinDeposit depositing coins = depositing ++ extra ∧ (∀ c ∈ extra, c ∈ coins) ∧
      (extra = [] ↔ ∀ coin ∈ coins, Among coin depositing) := by
  induction coins generalizing depositing with
  | nil => exact ⟨[], by simp [joinDeposit]⟩
  | cons coin coins ih =>
    by_cases hamong : Among coin depositing
    · obtain ⟨extra, heq, hsub, hnil⟩ := ih depositing
      refine ⟨extra, ?_, fun c hc => List.mem_cons_of_mem _ (hsub c hc), ?_⟩
      · rw [← heq, joinDeposit, List.foldl_cons, if_pos hamong]
        rfl
      · rw [hnil, List.forall_mem_cons, and_iff_right hamong]
    · obtain ⟨extra, heq, hsub, -⟩ := ih (depositing ++ [coin])
      refine ⟨coin :: extra, ?_, ?_, ?_⟩
      · rw [List.append_cons, ← heq, joinDeposit, List.foldl_cons, if_neg hamong]
        rfl
      · intro c hc
        rcases List.mem_cons.mp hc with rfl | hc
        · exact List.mem_cons_self
        · exact List.mem_cons_of_mem _ (hsub c hc)
      · refine iff_of_false (List.cons_ne_nil _ _) fun hall => ?_
        exact hamong (hall coin List.mem_cons_self)

theorem leaveDeposit_sublist (depositing coins : List ACoin) : (leaveDeposit depositing coins).Sublist depositing := by
  induction coins generalizing depositing with
  | nil => exact List.Sublist.refl _
  | cons coin coins ih => exact (ih _).trans List.eraseP_sublist

theorem leaveDeposit_eq_self {depositing coins : List ACoin} :
    leaveDeposit depositing coins = depositing ↔ ∀ coin ∈ coins, ¬Among coin depositing := by
  induction coins generalizing depositing with
  | nil => simp [leaveDeposit]
  | cons coin coins ih =>
    have hcons : leaveDeposit depositing (coin :: coins) =
        leaveDeposit (depositing.eraseP fun c => c.key = coin.key) coins := rfl
    rw [hcons, List.forall_mem_cons]
    by_cases hamong : Among coin depositing
    · refine iff_of_false (fun hsame => ?_) fun hnone => hnone.1 hamong
      obtain ⟨c, hc, hkey⟩ := among_iff.mp hamong
      have hlength := List.length_eraseP_of_mem (p := fun c => decide (c.key = coin.key)) hc (decide_eq_true hkey)
      have hle := (leaveDeposit_sublist (depositing.eraseP fun c => c.key = coin.key) coins).length_le
      have hpos := List.length_pos_of_mem hc
      rw [hsame] at hle
      omega
    · have hsame : (depositing.eraseP fun c => c.key = coin.key) = depositing := by
        refine List.eraseP_of_forall_not fun c hc hkey => hamong ?_
        exact among_iff.mpr ⟨c, hc, of_decide_eq_true hkey⟩
      rw [hsame, ih, and_iff_right hamong]

end BankConnection

/-! ### One step -/

namespace Store

open BankConnection

variable {env : Environment} {s t : Store}

theorem call_eq_some {α : Type} {x : Py α} (h : s.call x = some t) :
    s.saving = false ∧ t = s.withBank (finish x s.bank) := by
  unfold call at h
  cases hsaving : s.saving with
  | true =>
    rw [hsaving, if_pos rfl] at h
    cases h
  | false =>
    rw [hsaving, if_neg Bool.false_ne_true] at h
    exact ⟨rfl, (Option.some.inj h).symm⟩

theorem Sound.with_bank (hs : s.Sound) (hsaving : s.saving = false) {b : BankConnection}
    (hacoins : ∀ c ∈ b.ACoins.coins, Storable c) (hdepositing : ∀ c ∈ b.depositingACoins, Storable c)
    (hnamed : b.filesNamed = s.bank.filesNamed) : (s.withBank b).Sound where
  acoins := hacoins
  depositing := hdepositing
  acoinFile := hs.acoinFile
  depositedFile := hs.depositedFile
  nodup := hs.nodup
  named := hnamed.trans hs.named
  saving h := by cases hsaving.symm.trans h
  whole := hs.whole

theorem NoneLost.mono {coins coins' : List ACoin} (h : s.NoneLost coins) (hsub : ∀ c ∈ coins', c ∈ coins) :
    s.NoneLost coins' :=
  fun c hc => h c (hsub c hc)

theorem noneLost_append {coins coins' : List ACoin} :
    s.NoneLost (coins ++ coins') ↔ s.NoneLost coins ∧ s.NoneLost coins' :=
  List.forall_mem_append

/-- With `coinsChanged` set, only coins that may be lost matter. -/
theorem secured_iff_of_changed (h : s.bank.coinsChanged = true) : s.Secured ↔ s.NoneLost s.bank.held := by
  refine ⟨Secured.recovered, fun hnone => ⟨hnone, fun hfalse => ?_⟩⟩
  cases h.symm.trans hfalse

theorem addAcoin_spec (hs : s.Sound) (hsaving : s.saving = false) {coin : ACoin} (hcoin : Storable coin) :
    (s.withBank (finish (addAcoin coin) s.bank)).Sound ∧
      (s.Secured → ((s.withBank (finish (addAcoin coin) s.bank)).Secured ↔ s.Careful (.addAcoin coin))) := by
  rw [finish_addAcoin]
  by_cases hheld : s.bank.ACoins.Holds coin
  · rw [if_pos hheld]
    exact ⟨hs, fun h => iff_of_true h fun hnew => absurd hheld hnew⟩
  · rw [if_neg hheld]
    refine ⟨hs.with_bank hsaving (fun c hc => ?_) hs.depositing rfl, fun h => ?_⟩
    · rcases (Wallet.mem_coins_add hheld).mp hc with rfl | hc
      · exact hcoin
      · exact hs.acoins c hc
    · rw [secured_iff_of_changed rfl]
      constructor
      · intro hnone _
        exact NoneLost.mono hnone fun c hc => by
          rw [List.mem_singleton.mp hc]
          exact List.mem_append_left _ ((Wallet.mem_coins_add hheld).mpr (Or.inl rfl))
      · intro hcareful c hc
        rcases List.mem_append.mp hc with hc | hc
        · rcases (Wallet.mem_coins_add hheld).mp hc with rfl | hc
          · exact hcareful hheld c (List.mem_singleton_self c)
          · exact h.recovered c (List.mem_append_left _ hc)
        · exact h.recovered c (List.mem_append_right _ hc)

theorem removeCoin_spec (hs : s.Sound) (hsaving : s.saving = false) (coin : ACoin) :
    (s.withBank (finish (removeCoin coin) s.bank)).Sound ∧
      (s.Secured → (s.withBank (finish (removeCoin coin) s.bank)).Secured) := by
  rw [finish_removeCoin]
  by_cases hheld : s.bank.ACoins.Holds coin
  · rw [if_pos hheld]
    refine ⟨hs.with_bank hsaving (fun c hc => hs.acoins c (Wallet.mem_of_mem_remove hc)) hs.depositing rfl, fun h => ?_⟩
    rw [secured_iff_of_changed rfl]
    intro c hc
    rcases List.mem_append.mp hc with hc | hc
    · exact h.recovered c (List.mem_append_left _ (Wallet.mem_of_mem_remove hc))
    · exact h.recovered c (List.mem_append_right _ hc)
  · rw [if_neg hheld]
    exact ⟨hs, id⟩

theorem secured_with_bank {b : BankConnection} (hinterval : b.currentACoinInterval = s.bank.currentACoinInterval) :
    (s.withBank b).Secured ↔ s.NoneLost b.held ∧ (b.coinsChanged = false →
      (coinsIn s.acoinFile).Perm b.ACoins.coins ∧ (coinsIn s.depositedFile).Perm b.depositingACoins) := by
  have hnone : (s.withBank b).NoneLost b.held ↔ s.NoneLost b.held := by
    unfold NoneLost withBank
    dsimp only
    rw [hinterval]
    exact Iff.rfl
  exact ⟨fun h => ⟨hnone.mp h.recovered, h.clean⟩, fun h => ⟨hnone.mpr h.1, h.2⟩⟩

/-- Without changes, the files hold new collections as they hold the old ones. -/
theorem Secured.clean_iff (h : s.Secured) {acoins depositing : List ACoin} :
    (s.bank.coinsChanged = false → (coinsIn s.acoinFile).Perm acoins ∧ (coinsIn s.depositedFile).Perm depositing) ↔
      s.bank.coinsChanged = true ∨ s.bank.ACoins.coins.Perm acoins ∧ s.bank.depositingACoins.Perm depositing := by
  cases hchanged : s.bank.coinsChanged with
  | true => exact iff_of_true (fun hfalse => by cases hfalse) (Or.inl rfl)
  | false =>
    obtain ⟨hfirst, hsecond⟩ := h.clean hchanged
    constructor
    · intro hnew
      obtain ⟨hacoins, hdepositing⟩ := hnew rfl
      exact Or.inr ⟨hfirst.symm.trans hacoins, hsecond.symm.trans hdepositing⟩
    · rintro (hfalse | ⟨hacoins, hdepositing⟩)
      · cases hfalse
      · exact fun _ => ⟨hfirst.trans hacoins, hsecond.trans hdepositing⟩

theorem depositAcoins_spec (hs : s.Sound) (hsaving : s.saving = false) {coins : List ACoin}
    (hcoins : ∀ c ∈ coins, Storable c) :
    (s.withBank (finish (depositAcoins coins) s.bank)).Sound ∧
      (s.Secured → ((s.withBank (finish (depositAcoins coins) s.bank)).Secured ↔
        s.Careful (.depositAcoins coins))) := by
  have hjoined := finish_depositAcoins coins s.bank
  generalize finish (depositAcoins coins) s.bank = b at hjoined
  obtain ⟨extra, hextra, hsub, hnil⟩ := joinDeposit_eq s.bank.depositingACoins coins
  have hdepositing := hjoined.depositing
  have hacoins : ∀ c ∈ b.ACoins.coins, Storable c := by
    rw [hjoined.acoins]
    exact hs.acoins
  rw [secured_with_bank hjoined.interval, held, hjoined.acoins, hjoined.changed]
  cases hstopping : s.bank.isStopping with
  | true =>
    rw [hstopping, if_pos rfl] at hdepositing
    rw [hdepositing]
    refine ⟨hs.with_bank hsaving hacoins ?_ hjoined.named, fun h => ?_⟩
    · rw [hdepositing]
      exact hs.depositing
    · refine iff_of_true ⟨h.recovered, h.clean⟩ fun hfalse => ?_
      cases hstopping.symm.trans hfalse
  | false =>
    rw [hstopping, if_neg Bool.false_ne_true] at hdepositing
    rw [hdepositing]
    refine ⟨hs.with_bank hsaving hacoins ?_ hjoined.named, fun h => ?_⟩
    · intro c hc
      rw [hdepositing, hextra] at hc
      rcases List.mem_append.mp hc with hc | hc
      · exact hs.depositing c hc
      · exact hcoins c (hsub c hc)
    · have hnone := (noneLost_append.mp h.recovered).1
      have hperm : s.bank.depositingACoins.Perm (joinDeposit s.bank.depositingACoins coins) ↔
          ∀ coin ∈ coins, Among coin s.bank.depositingACoins := by
        rw [← hnil, hextra]
        constructor
        · intro hperm
          have hlength := hperm.length_eq
          rw [List.length_append] at hlength
          exact List.length_eq_zero_iff.mp (by omega)
        · rintro rfl
          rw [List.append_nil]
      rw [noneLost_append, and_iff_right hnone, h.clean_iff, and_iff_right (List.Perm.refl _), hperm]
      exact ⟨fun h _ => h, fun h => h hstopping⟩

theorem onDone_spec (hs : s.Sound) (hsaving : s.saving = false) (coins : List ACoin) (gotResponse : Bool) :
    (s.withBank (finish (onDone coins false gotResponse) s.bank)).Sound ∧
      (s.Secured → ((s.withBank (finish (onDone coins false gotResponse) s.bank)).Secured ↔
        s.Careful (.onDone coins gotResponse))) := by
  rw [finish_onDone]
  cases gotResponse with
  | false =>
    refine ⟨hs.with_bank hsaving hs.acoins hs.depositing rfl, fun h => ?_⟩
    exact iff_of_true ⟨h.recovered, h.clean⟩ fun hfalse => by cases hfalse
  | true =>
    have hsub := leaveDeposit_sublist s.bank.depositingACoins coins
    rw [if_pos rfl]
    refine ⟨hs.with_bank hsaving hs.acoins (fun c hc => hs.depositing c (hsub.subset hc)) rfl, fun h => ?_⟩
    have hnone : s.NoneLost (s.bank.ACoins.coins ++ leaveDeposit s.bank.depositingACoins coins) :=
      NoneLost.mono h.recovered fun c hc => ((List.Sublist.refl _).append hsub).subset hc
    have hperm : s.bank.depositingACoins.Perm (leaveDeposit s.bank.depositingACoins coins) ↔
        ∀ coin ∈ coins, ¬Among coin s.bank.depositingACoins := by
      rw [← leaveDeposit_eq_self]
      constructor
      · exact fun hperm => hsub.eq_of_length hperm.length_eq.symm
      · intro hsame
        rw [hsame]
    refine Iff.trans (secured_with_bank rfl) ?_
    dsimp only [held]
    rw [and_iff_right hnone, h.clean_iff, and_iff_right (List.Perm.refl _), hperm]
    exact ⟨fun h _ => h, fun h => h rfl⟩

/-- A new interval makes no coin fresh that was not, and deletes the coins of one interval. -/
theorem learnInterval_spec (hs : s.Sound) (hsaving : s.saving = false) {b : BankConnection}
    (hacoins : b.ACoins = s.bank.ACoins.delete (s.bank.currentACoinInterval - 1))
    (hdepositing : b.depositingACoins = s.bank.depositingACoins) (hnamed : b.filesNamed = s.bank.filesNamed)
    (hchanged : b.coinsChanged = s.bank.coinsChanged) (hlt : s.bank.currentACoinInterval < b.currentACoinInterval) :
    (s.withBank b).Sound ∧ (s.Secured → ((s.withBank b).Secured ↔
      s.bank.coinsChanged = true ∨ s.bank.ACoins.coinsOf (s.bank.currentACoinInterval - 1) = [])) := by
  have hsub : ∀ c ∈ b.ACoins.coins, c ∈ s.bank.ACoins.coins := by
    intro c hc
    rw [hacoins] at hc
    exact (Wallet.mem_coins_delete.mp hc).1
  refine ⟨hs.with_bank hsaving (fun c hc => hs.acoins c (hsub c hc)) (hdepositing ▸ hs.depositing) hnamed, fun h => ?_⟩
  have hnone : (s.withBank b).NoneLost b.held := by
    intro c hc hsaved hle
    have hle' : s.bank.currentACoinInterval - 1 ≤ c.interval := by
      have hnew : b.currentACoinInterval - 1 ≤ c.interval := hle
      omega
    refine h.recovered c ?_ hsaved hle'
    rcases List.mem_append.mp hc with hc | hc
    · exact List.mem_append_left _ (hsub c hc)
    · exact List.mem_append_right _ (hdepositing ▸ hc)
  have hclean : (s.withBank b).Secured ↔ (s.bank.coinsChanged = false →
      (coinsIn s.acoinFile).Perm (s.bank.ACoins.delete (s.bank.currentACoinInterval - 1)).coins ∧
        (coinsIn s.depositedFile).Perm s.bank.depositingACoins) := by
    rw [← hchanged, ← hacoins, ← hdepositing]
    exact ⟨fun hnew => hnew.clean, fun hnew => ⟨hnone, hnew⟩⟩
  rw [hclean, h.clean_iff, and_iff_left (List.Perm.refl _), Wallet.perm_delete_iff]

theorem beginStop_spec (env : Environment) (hs : s.Sound) (hsaving : s.saving = false) :
    (s.withBank (finish (beginStop env) s.bank)).Sound ∧
      (s.Secured → (s.withBank (finish (beginStop env) s.bank)).Secured) := by
  rw [finish_beginStop]
  cases s.bank.shutdownDeferred with
  | true => exact ⟨hs, id⟩
  | false =>
    have hsub : ∀ c ∈ s.bank.depositingACoins ++ env.iterate s.bank.iterations s.bank.ACoins.coins, c ∈ s.bank.held := by
      intro c hc
      rcases List.mem_append.mp hc with hc | hc
      · exact List.mem_append_right _ hc
      · exact List.mem_append_left _ ((env.iterate_perm _ _).mem_iff.mp hc)
    have hstorable : ∀ c ∈ s.bank.held, Storable c := by
      intro c hc
      rcases List.mem_append.mp hc with hc | hc
      · exact hs.acoins c hc
      · exact hs.depositing c hc
    refine ⟨hs.with_bank hsaving (fun c hc => ?_) (fun c hc => hstorable c (hsub c hc)) rfl, fun h => ?_⟩
    · cases hc
    · refine (secured_iff_of_changed rfl).mpr ?_
      exact NoneLost.mono h.recovered hsub

theorem saveFirst_spec (hs : s.Sound) (hsave : s.saveFirst = some t) :
    t.Sound ∧ (s.Secured → (t.Secured ↔ s.Careful .saveFirst)) := by
  have hstorable : ∀ c ∈ s.bank.coinsToSave, Storable c := fun c hc => hs.acoins c (mem_coinsToSave.mp hc).1
  obtain ⟨data, hwrite, -⟩ := writeCoins_read hstorable
  have hcoins := coinsIn_of_writeCoins hstorable hwrite
  unfold saveFirst at hsave
  split at hsave
  · rename_i hguard
    obtain ⟨-, hchanged, -⟩ := hguard
    rw [hwrite] at hsave
    cases hsave
    refine ⟨⟨hs.acoins, hs.depositing, written_of_writeCoins hstorable hwrite, hs.depositedFile, ?_, hs.named,
      fun _ => ⟨rfl, hchanged, hcoins⟩, fun hfalse => by cases hfalse⟩, fun h => ?_⟩
    · dsimp only
      rw [hcoins]
      exact keys_nodup_coinsToSave s.bank
    · refine Iff.trans (secured_iff_of_changed hchanged) ?_
      unfold NoneLost onDisk
      dsimp only
      rw [hcoins]
      constructor
      · intro hnone coin hdeposit hsaved hle
        rcases List.mem_append.mp (hnone coin (List.mem_append_right _ hdeposit) hsaved hle) with hfirst | hsecond
        · exact List.mem_append_left _ (mem_coinsToSave.mp hfirst).1
        · exact List.mem_append_right _ hsecond
      · intro hcareful coin hheld hsaved hle
        have hwhere : coin ∈ s.bank.ACoins.coins ++ coinsIn s.depositedFile := by
          rcases List.mem_append.mp hheld with hacoin | hdeposit
          · exact List.mem_append_left _ hacoin
          · exact hcareful coin hdeposit hsaved hle
        rcases List.mem_append.mp hwhere with hacoin | hsecond
        · exact List.mem_append_left _ (mem_coinsToSave.mpr ⟨hacoin, hle⟩)
        · exact List.mem_append_right _ hsecond
  · cases hsave

theorem saveSecond_spec (hs : s.Sound) (hsave : s.saveSecond = some t) :
    t.Sound ∧ (t.Secured ↔ s.Careful .saveSecond) := by
  obtain ⟨data, hwrite, -⟩ := writeCoins_read hs.depositing
  have hcoins := coinsIn_of_writeCoins hs.depositing hwrite
  unfold saveSecond at hsave
  split at hsave
  · rename_i hsaving
    obtain ⟨-, -, hfirst⟩ := hs.saving hsaving
    rw [hwrite] at hsave
    cases hsave
    have hkept : ∀ {c : ACoin}, c.isFreshClient s.bank.currentACoinInterval = true →
        (c ∈ s.bank.coinsToSave ↔ c ∈ s.bank.ACoins.coins) := by
      intro c hfresh
      rw [mem_coinsToSave]
      exact and_iff_left (exists_fresh_iff.mp ⟨_, Int.le_refl _, hfresh⟩)
    refine ⟨⟨hs.acoins, hs.depositing, hs.acoinFile, written_of_writeCoins hs.depositing hwrite, hs.nodup, hs.named,
      (fun hfalse => by cases hfalse), fun _ => ⟨?_, hcoins⟩⟩, ?_⟩
    · dsimp only
      rw [hfirst]
      refine (List.perm_ext_iff_of_nodup ?_ ?_).mpr fun c => ?_
      · exact (keys_nodup_coinsToSave s.bank).of_map.sublist List.filter_sublist
      · exact (Wallet.nodup_coins _).sublist List.filter_sublist
      · rw [mem_freshAt, mem_freshAt]
        exact and_congr_left hkept
    · have hperm : s.bank.coinsToSave.Perm s.bank.ACoins.coins ↔
          ∀ coin ∈ s.bank.ACoins.coins, s.bank.currentACoinInterval - 1 ≤ coin.interval := by
        rw [List.perm_ext_iff_of_nodup (keys_nodup_coinsToSave s.bank).of_map (Wallet.nodup_coins _)]
        refine forall_congr' fun c => ?_
        rw [mem_coinsToSave]
        exact and_iff_left_iff_imp
      constructor
      · intro h
        have hclean := (h.clean rfl).1
        dsimp only at hclean
        rw [hfirst] at hclean
        exact hperm.mp hclean
      · intro hcareful
        refine ⟨fun coin hheld _ hle => ?_, fun _ => ⟨?_, ?_⟩⟩
        · unfold onDisk
          dsimp only
          rw [hfirst, hcoins]
          rcases List.mem_append.mp hheld with hacoin | hdeposit
          · exact List.mem_append_left _ (mem_coinsToSave.mpr ⟨hacoin, hle⟩)
          · exact List.mem_append_right _ hdeposit
        · dsimp only
          rw [hfirst]
          exact hperm.mpr hcareful
        · exact List.Perm.of_eq hcoins
  · cases hsave

theorem restart_spec (hs : s.Sound) (interval : UInt32) :
    Sound { s with bank := s.reload interval.toNat, saving := false } ∧
      (Secured { s with bank := s.reload interval.toNat, saving := false } ↔ s.Careful (.restart interval)) := by
  rw [hs.reload_eq]
  refine ⟨⟨fun c hc => ?_, fun c hc => ?_, hs.acoinFile, hs.depositedFile, hs.nodup, rfl,
    (fun hfalse => by cases hfalse), hs.whole⟩, ?_⟩
  · exact hs.acoinFile.storable c (mem_freshAt.mp ((mem_loaded_acoins hs.nodup).mp hc)).1
  · exact hs.depositedFile.storable c (mem_freshAt.mp hc).1
  · have hchanged : (!(freshAt interval.toNat (coinsIn s.acoinFile)).isEmpty) = false ↔
        freshAt interval.toNat (coinsIn s.acoinFile) = [] := by
      rw [Bool.not_eq_false', List.isEmpty_iff]
    have hsecond : (coinsIn s.depositedFile).Perm (freshAt interval.toNat (coinsIn s.depositedFile)) ↔
        ∀ coin ∈ coinsIn s.depositedFile, coin.isFreshClient interval.toNat = true := by
      rw [← List.filter_eq_self]
      constructor
      · exact fun hperm => List.filter_sublist.eq_of_length hperm.length_eq.symm
      · intro hsame
        rw [freshAt, hsame]
    have hfirst := loaded_acoins_perm interval.toNat (coinsIn s.depositedFile) hs.nodup
    constructor
    · intro h
      by_cases hnone : freshAt interval.toNat (coinsIn s.acoinFile) = []
      · obtain ⟨hacoins, hdepositing⟩ := h.clean (hchanged.mpr hnone)
        have hempty := hacoins.trans hfirst
        rw [hnone] at hempty
        exact Or.inr ⟨hempty.eq_nil, hsecond.mp hdepositing⟩
      · exact Or.inl hnone
    · intro hcareful
      refine ⟨fun coin hheld _ _ => ((mem_held_loaded hs.nodup).mp hheld).1, fun hclean => ?_⟩
      have hnone := hchanged.mp hclean
      rcases hcareful with hsome | ⟨hnil, hall⟩
      · exact absurd hnone hsome
      · refine ⟨?_, hsecond.mpr hall⟩
        rw [hnone] at hfirst
        exact (List.Perm.of_eq hnil).trans hfirst.symm

/-- The files stay in order, and an operation keeps the claim under its condition and only then. -/
theorem step_spec (hs : s.Sound) {op : Operation} (hstep : step env s op = some t) :
    t.Sound ∧ (s.Secured → (t.Secured ↔ s.Careful op)) := by
  cases op with
  | addAcoin coin =>
    obtain ⟨hcoin, hcall⟩ := Option.ite_none_right_eq_some.mp hstep
    obtain ⟨hsaving, rfl⟩ := call_eq_some hcall
    exact addAcoin_spec hs hsaving hcoin
  | removeCoin coin =>
    obtain ⟨hsaving, rfl⟩ := call_eq_some hstep
    obtain ⟨hsound, hsecured⟩ := removeCoin_spec hs hsaving coin
    exact ⟨hsound, fun h => iff_of_true (hsecured h) trivial⟩
  | depositAcoins coins =>
    obtain ⟨hcoins, hcall⟩ := Option.ite_none_right_eq_some.mp hstep
    obtain ⟨hsaving, rfl⟩ := call_eq_some hcall
    exact depositAcoins_spec hs hsaving hcoins
  | onDone coins gotResponse =>
    obtain ⟨hsaving, rfl⟩ := call_eq_some hstep
    exact onDone_spec hs hsaving coins gotResponse
  | learnInterval curTime random₁ random₂ interval expiresCurrent expiresNext =>
    obtain ⟨hsaving, rfl⟩ := call_eq_some hstep
    rw [finish_learnInterval]
    by_cases hlt : s.bank.currentACoinInterval < interval.toNat
    · rw [if_pos hlt]
      obtain ⟨hsound, hsecured⟩ := learnInterval_spec hs hsaving (b := learnInterval curTime random₁ random₂
        interval.toNat expiresCurrent.toNat expiresNext.toNat s.bank) rfl rfl rfl rfl hlt
      exact ⟨hsound, fun h => (hsecured h).trans ⟨fun hcareful _ => hcareful, fun hcareful => hcareful hlt⟩⟩
    · rw [if_neg hlt]
      exact ⟨hs, fun h => iff_of_true h fun hfalse => absurd hfalse hlt⟩
  | beginStop =>
    obtain ⟨hsaving, rfl⟩ := call_eq_some hstep
    obtain ⟨hsound, hsecured⟩ := beginStop_spec env hs hsaving
    exact ⟨hsound, fun h => iff_of_true (hsecured h) trivial⟩
  | shutdownSuccess =>
    obtain ⟨hsaving, rfl⟩ := call_eq_some hstep
    refine ⟨hs.with_bank hsaving hs.acoins hs.depositing rfl, fun h => iff_of_true ?_ trivial⟩
    exact (secured_iff_of_changed rfl).mpr h.recovered
  | saveFirst => exact saveFirst_spec hs hstep
  | saveSecond =>
    obtain ⟨hsound, hsecured⟩ := saveSecond_spec hs hstep
    exact ⟨hsound, fun _ => hsecured⟩
  | restart interval =>
    cases hstep
    obtain ⟨hsound, hsecured⟩ := restart_spec hs interval
    exact ⟨hsound, fun _ => hsecured⟩

theorem start_sound (interval : UInt32) : (start interval).Sound := by
  refine ⟨fun c hc => ?_, fun c hc => ?_, written_none, written_none, List.nodup_nil, rfl, (fun h => by cases h), fun _ => ?_⟩
  · cases hc
  · cases hc
  · exact ⟨List.Perm.refl _, rfl⟩

theorem start_secured (interval : UInt32) : (start interval).Secured := by
  refine ⟨fun c hc => ?_, fun _ => ⟨List.Perm.refl _, List.Perm.refl _⟩⟩
  cases hc

theorem saveFirst_eq (hguard : (!s.saving) = true ∧ s.bank.coinsChanged = true ∧ s.bank.filesNamed = true) {data : Bytes}
    (hwrite : writeCoins s.bank.coinsToSave = .ok data) :
    s.saveFirst = some
      { s with
        bank := finish (output (.wrote .acoins data)) s.bank
        acoinFile := some data
        saving := true
        torn := true } := by
  rw [saveFirst, if_pos hguard, hwrite]
  rfl

theorem saveSecond_eq (hsaving : s.saving = true) {data : Bytes} (hwrite : writeCoins s.bank.depositingACoins = .ok data) :
    s.saveSecond = some
      { s with
        bank := { finish (output (.wrote .acoinsInDeposit data)) s.bank with coinsChanged := false }
        depositedFile := some data
        saving := false
        torn := false
        saved := {
          acoins := s.bank.ACoins.coins
          depositing := s.bank.depositingACoins
          interval := s.bank.currentACoinInterval } } := by
  rw [saveSecond, if_pos hsaving, hwrite]
  rfl

/-- The two replacements are those of `save_coins`, which writes the same data and ends in the same state. -/
theorem saveCoins_eq (hs : s.Sound) (hsaving : s.saving = false) (hchanged : s.bank.coinsChanged = true) :
    ∃ t u first second, s.saveFirst = some t ∧ t.saveSecond = some u ∧ u.acoinFile = some first ∧
      u.depositedFile = some second ∧ u.bank = finish saveCoins s.bank ∧
      u.bank.history = s.bank.history ++ [.wrote .acoins first] ++ [.wrote .acoinsInDeposit second] := by
  obtain ⟨first, hfirst, -⟩ := writeCoins_read fun c hc => hs.acoins c (mem_coinsToSave.mp hc).1
  obtain ⟨second, hsecond, -⟩ := writeCoins_read hs.depositing
  have hsave : finish saveCoins s.bank =
      { s.bank with
        history := s.bank.history ++ [.wrote .acoins first] ++ [.wrote .acoinsInDeposit second]
        coinsChanged := false } := by
    refine (outcome_finish (I := (· = _))).mp ?_
    simp only [saveCoins, output, outcome_bind, outcome_get, outcome_when, outcome_rescue, outcome_modify, outcome_attempt,
      hchanged, hs.named, hfirst, hsecond, if_pos]
  have hguard : (!s.saving) = true ∧ s.bank.coinsChanged = true ∧ s.bank.filesNamed = true := by
    rw [hsaving]
    exact ⟨rfl, hchanged, hs.named⟩
  exact ⟨_, _, first, second, saveFirst_eq hguard hfirst, saveSecond_eq rfl hsecond, rfl, rfl, hsave.symm, rfl⟩

/-- In every state of a run the files are what they should be exactly when each operation of it meets its
condition. -/
theorem wallet_persistence {ok : Store → Operation → Prop} {interval : UInt32} {ops : List Operation}
    (h : Run (step env) ok (start interval) ops s) :
    (∀ before t, before <+: ops → Run (step env) ok (start interval) before t → t.Persistent) ↔
      EachStep (step env) Careful (start interval) ops := by
  apply h.forall_prefix_iff (I := fun s => s.Sound ∧ s.Secured)
  · exact fun hs => hs.1.persistent_iff.mpr hs.2
  · intro s t op hs hstep hcareful
    obtain ⟨hsound, hiff⟩ := step_spec hs.1 hstep
    exact ⟨hsound, (hiff hs.2).mpr hcareful⟩
  · intro s t op hs hstep hgood
    obtain ⟨hsound, hiff⟩ := step_spec hs.1 hstep
    exact (hiff hs.2).mp (hsound.persistent_iff.mp hgood)
  · exact ⟨start_sound interval, start_secured interval⟩

end Store

namespace Store

open BankConnection

/-- A coin of the interval 5. -/
def exampleCoin (receipt : UInt8) : ACoin where
  receipt := List.replicate 32 receipt
  interval := 5
  signature := List.replicate 96 0
  value := 1

/-- A coin is deposited while another stays, and the client crashes after the save. -/
theorem wallet_persistence_restarted :
    ∃ s, Run (step exampleEnvironment) (fun _ _ => True) (start 5)
        [.addAcoin (exampleCoin 1), .addAcoin (exampleCoin 2), .removeCoin (exampleCoin 2),
          .depositAcoins [exampleCoin 2], .saveFirst, .saveSecond, .restart 6] s ∧
      s.bank.ACoins.coins = [exampleCoin 1] ∧ s.bank.depositingACoins = [exampleCoin 2] ∧
      ∀ before t, before <+: [.addAcoin (exampleCoin 1), .addAcoin (exampleCoin 2), .removeCoin (exampleCoin 2),
          .depositAcoins [exampleCoin 2], .saveFirst, .saveSecond, .restart 6] →
        Run (step exampleEnvironment) (fun _ _ => True) (start 5) before t → t.Persistent := by
  have hend : (exec (step exampleEnvironment) (start 5)
      [.addAcoin (exampleCoin 1), .addAcoin (exampleCoin 2), .removeCoin (exampleCoin 2),
        .depositAcoins [exampleCoin 2], .saveFirst, .saveSecond, .restart 6]).any
      (fun s => decide (s.bank.ACoins.coins = [exampleCoin 1] ∧ s.bank.depositingACoins = [exampleCoin 2])) = true := by
    decide
  have hcareful : EachStep (step exampleEnvironment) Careful (start 5)
      [.addAcoin (exampleCoin 1), .addAcoin (exampleCoin 2), .removeCoin (exampleCoin 2),
        .depositAcoins [exampleCoin 2], .saveFirst, .saveSecond, .restart 6] := by
    decide
  obtain ⟨s, hrun, hdecide⟩ := exists_run hend (eachStep_true _ _)
  obtain ⟨hacoins, hdepositing⟩ := of_decide_eq_true hdecide
  exact ⟨s, hrun, hacoins, hdepositing, (wallet_persistence hrun).mpr hcareful⟩

/-- A coin that goes into deposit between two saves is in neither file after the first replacement of the
second save. And a deposit that was answered leaves its coin in the file, with no change to be saved. -/
theorem moved_coin_is_lost :
    (∃ s, Run (step exampleEnvironment) (fun _ _ => True) (start 5)
        [.addAcoin (exampleCoin 1), .saveFirst, .saveSecond, .removeCoin (exampleCoin 1),
          .depositAcoins [exampleCoin 1], .saveFirst] s ∧
      exampleCoin 1 ∈ s.saved.coins ∧ exampleCoin 1 ∈ s.bank.held ∧
      (exampleCoin 1).isFreshClient s.bank.currentACoinInterval = true ∧
      (s.reload s.bank.currentACoinInterval).held = [] ∧ ¬s.Persistent) ∧
    ∃ s, Run (step exampleEnvironment) (fun _ _ => True) (start 5)
        [.addAcoin (exampleCoin 1), .removeCoin (exampleCoin 1), .depositAcoins [exampleCoin 1], .saveFirst,
          .saveSecond, .onDone [exampleCoin 1] true] s ∧
      s.bank.coinsChanged = false ∧ s.bank.depositingACoins = [] ∧ coinsIn s.depositedFile = [exampleCoin 1] ∧
      ¬s.Persistent := by
  constructor
  · have hend : (exec (step exampleEnvironment) (start 5)
        [.addAcoin (exampleCoin 1), .saveFirst, .saveSecond, .removeCoin (exampleCoin 1),
          .depositAcoins [exampleCoin 1], .saveFirst]).any
        (fun s => decide (exampleCoin 1 ∈ s.saved.coins ∧ exampleCoin 1 ∈ s.bank.held ∧
          (exampleCoin 1).isFreshClient s.bank.currentACoinInterval = true ∧
          (s.reload s.bank.currentACoinInterval).held = [])) = true := by
      decide
    obtain ⟨s, hrun, hdecide⟩ := exists_run hend (eachStep_true _ _)
    obtain ⟨hsaved, hheld, hfresh, hlost⟩ := of_decide_eq_true hdecide
    refine ⟨s, hrun, hsaved, hheld, hfresh, hlost, fun hgood => ?_⟩
    have hrecovered := hgood.recovered _ _ (Int.le_refl _) hfresh hsaved hheld
    rw [hlost] at hrecovered
    cases hrecovered
  · have hend : (exec (step exampleEnvironment) (start 5)
        [.addAcoin (exampleCoin 1), .removeCoin (exampleCoin 1), .depositAcoins [exampleCoin 1], .saveFirst,
          .saveSecond, .onDone [exampleCoin 1] true]).any
        (fun s => decide (s.bank.coinsChanged = false ∧ s.bank.depositingACoins = [] ∧
          coinsIn s.depositedFile = [exampleCoin 1])) = true := by
      decide
    obtain ⟨s, hrun, hdecide⟩ := exists_run hend (eachStep_true _ _)
    obtain ⟨hchanged, hdepositing, hfile⟩ := of_decide_eq_true hdecide
    refine ⟨s, hrun, hchanged, hdepositing, hfile, fun hgood => ?_⟩
    have hclean := (hgood.clean hchanged).2
    rw [hdepositing, hfile] at hclean
    cases hclean.eq_nil

end Store

end BitBlinder.Client
