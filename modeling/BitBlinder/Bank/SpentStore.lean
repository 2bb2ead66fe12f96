import Mathlib.Data.List.AList
import BitBlinder.ACoin

/-!
# The bank's spent-coin store

`deposit_acoin`, the payment and deposit handlers that call it
(`bank/ACoinMessages.py`), and the interval rollover of `BankServer.py` and
`BankUtil.py`. The store maps an interval to `numberOfSets + 1` sets of hashes.
Every function returns the state it leaves behind even when it raises, because
an exception does not undo what was recorded before it. `accepted` lists the
coins for which `deposit_acoin` returned `'0'`; no function reads it.
-/

namespace BitBlinder.Bank

set_option autoImplicit false

open Struct

structure Config where
  acoinKey : PrivateKey
  md5 : Bytes → Digest
  numberOfSets : Nat

structure AcoinInterval where
  id : Int
  expires : Int
  expiresNext : Int
  deriving DecidableEq

abbrev SpentSets := List (List Digest)

structure Server where
  current : Option AcoinInterval
  acoins : AList (fun _ : Int => SpentSets)
  isInitialize : Bool
  isListening : Bool
  accepted : List ACoin

namespace Server

/-- The server before the first interval is learned. -/
def initial : Server :=
  { current := none, acoins := ∅, isInitialize := false, isListening := false, accepted := [] }

end Server

inductive Status where
  | accepted
  | invalid
  | spent
  deriving DecidableEq

/-- The characters `'0'`, `'1'` and `'2'`. -/
def Status.code : Status → UInt8
  | accepted => 48
  | invalid => 49
  | spent => 50

variable (cfg : Config)

def getCorrectSet (s : UInt8) : PyExcept Nat :=
  if cfg.numberOfSets = 0 then .error .zeroDivisionError else .ok (s.toNat % cfg.numberOfSets)

def depositAcoin (s : Server) (blob : Bytes) (currentInterval : Int) :
    Server × PyExcept (Status × ACoin × Bytes) :=
  match ACoin.readBinary blob with
  | .error e => (s, .error e)
  | .ok (coin, blob) =>
    match coin.isValid cfg.acoinKey.toPublicKey ACoin.isFresh currentInterval with
    | .error e => (s, .error e)
    | .ok false => (s, .ok (.invalid, coin, blob))
    | .ok true =>
      let store := coin.store cfg.md5
      match getCorrectSet cfg store.first with
      | .error e => (s, .error e)
      | .ok set =>
        match s.acoins.lookup coin.interval with
        | none => (s, .error .keyError)
        | some sets =>
          match sets[set]? with
          | none => (s, .error .indexError)
          | some hashes =>
            if store ∈ hashes then
              (s, .ok (.spent, coin, blob))
            else
              ({ s with
                  acoins := s.acoins.insert coin.interval (sets.set set (store :: hashes))
                  accepted := s.accepted ++ [coin] },
                .ok (.accepted, coin, blob))

def paymentLoop (current : Int) : Nat → Server → Bytes → Bytes → Server × PyExcept Bytes
  | 0, s, _, reply => (s, .ok reply)
  | k + 1, s, msg, reply =>
    match depositAcoin cfg s msg current with
    | (s, .error e) => (s, .error e)
    | (s, .ok (result, _, msg)) =>
      let reply := reply ++ [result.code]
      let token := msg.take Globals.ACOIN_KEY_BYTES
      let msg := msg.drop Globals.ACOIN_KEY_BYTES
      if result = .accepted then
        match cfg.acoinKey.decrypt token with
        | .error e => (s, .error e)
        | .ok sig => paymentLoop current k s msg (reply ++ Fmt.packStr Globals.ACOIN_KEY_BYTES sig)
      else
        paymentLoop current k s msg reply

/-- `Payment.on_message`; the returned bytes are what `send_func` is given. -/
def paymentOnMessage (s : Server) (msg : Bytes) : Server × PyExcept Bytes :=
  match s.current with
  | none => (s, .error .indexError)
  | some current =>
    match Basic.readByte msg with
    | .error e => (s, .error e)
    | .ok (numPayments, msg) => paymentLoop cfg current.id numPayments s msg []

def depositLoop (current : Int) : Nat → Server → Bytes → Bytes → Nat →
    Server × PyExcept (Bytes × Nat)
  | 0, s, _, returnSlip, total => (s, .ok (returnSlip, total))
  | k + 1, s, blob, returnSlip, total =>
    match depositAcoin cfg s blob current with
    | (s, .error e) => (s, .error e)
    | (s, .ok (result, _, blob)) =>
      depositLoop current k s blob (returnSlip ++ [result.code])
        (if result = .accepted then total + ACoin.VALUE else total)

/-- `Deposit.unpack_and_verify`: the announced number, the return slip and the total. -/
def unpackAndVerify (s : Server) (blob : Bytes) : Server × PyExcept (Nat × Bytes × Nat) :=
  match Basic.readShort blob with
  | .error e => (s, .error e)
  | .ok (number, blob) =>
    if number = 0 then
      (s, .ok (0, [], 0))
    else
      match s.current with
      | none => (s, .error .indexError)
      | some current =>
        match depositLoop cfg current.id number s blob [] 0 with
        | (s, .error e) => (s, .error e)
        | (s, .ok (returnSlip, total)) => (s, .ok (number, returnSlip, total))

def getIntervals (current : Int) : Int × Int :=
  if current = 0 then (1, current) else (current - 1, current)

def emptySets : SpentSets := List.replicate (cfg.numberOfSets + 1) []

def initializeStore (s : Server) (current : Int) : Server :=
  let (previous, current) := getIntervals current
  let acoins : AList (fun _ : Int => SpentSets) := AList.singleton previous (emptySets cfg)
  { s with acoins := acoins.insert current (emptySets cfg) }

def onNewInterval (s : Server) (current : Int) : Server × Option PyError :=
  let (previous, current) := getIntervals current
  if s.isInitialize then
    let s := { s with acoins := s.acoins.insert current (emptySets cfg) }
    if previous - 1 ∈ s.acoins then
      ({ s with acoins := s.acoins.erase (previous - 1) }, none)
    else
      (s, some .keyError)
  else
    ({ initializeStore cfg s current with isInitialize := true }, none)

/-- The rows of a lookup are an interval id and its `spoils_on` time. -/
def learnedCurrentAcoinInterval (s : Server) (tup : List (Int × Int)) : Server × Option PyError :=
  match tup with
  | [(interval, expires), (_, expiresNext)] =>
    match onNewInterval cfg { s with current := some ⟨interval, expires, expiresNext⟩ } interval with
    | (s, some e) => (s, some e)
    | (s, none) => ({ s with isListening := true }, none)
  | _ => (s, none)

inductive Event where
  | payment (msg : Bytes)
  | deposit (msg : Bytes)
  | lookup (tup : List (Int × Int))

/-- The interval that a lookup passes to `on_new_interval`. -/
def Event.learned : Event → Option Int
  | .lookup [(interval, _), (_, _)] => some interval
  | _ => none

/-- Messages reach the server only once it listens. -/
def handle (s : Server) : Event → Option Server
  | .payment msg => if s.isListening then some (paymentOnMessage cfg s msg).1 else none
  | .deposit msg => if s.isListening then some (unpackAndVerify cfg s msg).1 else none
  | .lookup tup => some (learnedCurrentAcoinInterval cfg s tup).1

/-- Eight sets, raw RSA and a hash that keeps the last sixteen bytes, for concrete runs. -/
def Config.example : Config where
  acoinKey := { PublicKey.example with rsaPrivateDecrypt := rawRsa (2 ^ 768 - 1) 1 96 }
  md5 := fun bs => ⟨packBE 16 (unpackBE bs), packBE_length 16 _⟩
  numberOfSets := 8

section Preservation
variable {cfg} {P : Server → Prop} {current : Int}
variable (kept : ∀ s blob, P s → P (depositAcoin cfg s blob current).1)
include kept

theorem paymentLoop_preserves (k : Nat) (s : Server) (msg reply : Bytes) (hs : P s) :
    P (paymentLoop cfg current k s msg reply).1 := by
  induction k generalizing s msg reply with
  | zero => exact hs
  | succ k ih =>
    have hnext := kept s msg hs
    unfold paymentLoop
    split
    · rename_i t e heq
      rwa [heq] at hnext
    · rename_i t result coin rest heq
      rw [heq] at hnext
      dsimp only
      split
      · split
        · exact hnext
        · exact ih _ _ _ hnext
      · exact ih _ _ _ hnext

theorem depositLoop_preserves (k : Nat) (s : Server) (blob slip : Bytes) (total : Nat) (hs : P s) :
    P (depositLoop cfg current k s blob slip total).1 := by
  induction k generalizing s blob slip total with
  | zero => exact hs
  | succ k ih =>
    have hnext := kept s blob hs
    unfold depositLoop
    split
    · rename_i t e heq
      rwa [heq] at hnext
    · rename_i t result coin rest heq
      rw [heq] at hnext
      exact ih _ _ _ _ hnext

end Preservation

/-- A message keeps what every single `deposit_acoin` call of it keeps. -/
theorem handle_preserves {cfg : Config} {P : Server → Prop} {s t : Server} {e : Event}
    {current : AcoinInterval} (hcurrent : s.current = some current)
    (kept : ∀ s blob, P s → P (depositAcoin cfg s blob current.id).1)
    (hmsg : ∀ tup, e ≠ .lookup tup) (h : handle cfg s e = some t) (hs : P s) : P t := by
  cases e with
  | lookup tup => exact absurd rfl (hmsg tup)
  | payment msg =>
    simp only [handle, Option.ite_none_right_eq_some, Option.some.injEq] at h
    rw [← h.2]
    unfold paymentOnMessage
    rw [hcurrent]
    dsimp only
    split
    · exact hs
    · exact paymentLoop_preserves kept _ _ _ _ hs
  | deposit msg =>
    simp only [handle, Option.ite_none_right_eq_some, Option.some.injEq] at h
    rw [← h.2]
    unfold unpackAndVerify
    rw [hcurrent]
    dsimp only
    split
    · exact hs
    · rename_i number blob hread
      split
      · exact hs
      · have hloop := depositLoop_preserves kept number s blob [] 0 hs
        split
        · rename_i r e heq
          rwa [heq] at hloop
        · rename_i r slip total heq
          rwa [heq] at hloop

end BitBlinder.Bank
