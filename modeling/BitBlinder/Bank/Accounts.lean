import BitBlinder.Table
import BitBlinder.Bank.SpentStore

/-!
# Accounts and the withdrawal handler

The `Accounts` table, `Request` (`bank/ACoinMessages.py`) up to the bytes of its
reply, and the reply of `Deposit`. `balance` is a PostgreSQL `INT`: an `UPDATE`
that leaves its range fails and changes nothing.
-/

namespace BitBlinder.Bank

set_option autoImplicit false

open Struct

def IntRange (b : Int) : Prop := -2 ^ 31 ≤ b ∧ b < 2 ^ 31

instance (b : Int) : Decidable (IntRange b) := inferInstanceAs (Decidable (_ ∧ _))

structure Accounts extends Table String Int where
  inRange : ∀ r ∈ rows, IntRange r.2

namespace Accounts

theorem inRange_of_select {a : Accounts} {user : String} {b : Int} (h : b ∈ a.select user) :
    IntRange b := by
  exact a.inRange _ (Table.mem_select.mp h)

/-- `UPDATE Accounts SET Balance = f(Balance) WHERE Username = user`. -/
def updateBalance (a : Accounts) (user : String) (f : Int → Int) : Option Accounts :=
  if h : ∀ b ∈ a.select user, IntRange (f b) then
    some { a.update user f with
      inRange := by
        rintro ⟨user', b'⟩ hr
        rcases Table.mem_select_update (Table.mem_select.mpr hr) with ⟨-, hb'⟩ | ⟨-, b, hb, rfl⟩
        · exact a.inRange _ (Table.mem_select.mp hb')
        · exact h b hb }
  else
    none

theorem total_updateBalance {a a' : Accounts} {user : String} {f : Int → Int}
    (h : a.updateBalance user f = some a') :
    a'.total = a.total + ((a.select user).map fun b => f b - b).sum := by
  unfold updateBalance at h
  split at h
  · cases h
    exact Table.total_update a.toTable user f
  · cases h

end Accounts

def ACOIN_VALUE : Nat := 1

/-- The attributes of a `Request` that its methods share. -/
structure Request where
  user : String
  number : Nat
  bill : Nat
  signatures : Bytes

namespace Request

/-- The signing loop; what it has added to the handler stays when `decrypt` raises. -/
def mintLoop (cfg : Config) (value : Nat) : Nat → Request → Bytes → Request × PyExcept Unit
  | 0, r, _ => (r, .ok ())
  | k + 1, r, msg =>
    match cfg.acoinKey.decrypt (msg.take Globals.ACOIN_KEY_BYTES) with
    | .error e => (r, .error e)
    | .ok sig =>
      mintLoop cfg value k
        { r with
          signatures := r.signatures ++ Fmt.packStr Globals.ACOIN_KEY_BYTES sig
          bill := r.bill + value }
        (msg.drop Globals.ACOIN_KEY_BYTES)

/-- `unpack_and_mint` up to the `SELECT` that it issues when it does not raise. -/
def unpackAndMint (cfg : Config) (r : Request) (msg : Bytes) : Request × PyExcept Unit :=
  match Basic.readShort msg with
  | .error e => (r, .error e)
  | .ok (number, msg) =>
    let r := { r with number }
    match Basic.readInt msg with
    | .error e => (r, .error e)
    | .ok (value, msg) =>
      if number = 0 then
        (r, .error (.valueError "number of coins must be greater than 0!"))
      else if value ≠ ACOIN_VALUE ∨ value = 0 then
        (r, .error (.valueError "coins must have a positive, integer value"))
      else
        mintLoop cfg value number { r with bill := 0, signatures := [] } msg

/-- `update_account`: the proposed balance and the balance it was computed from. -/
def updateAccount (r : Request) (tup : List Int) : PyExcept (Int × Int) :=
  match tup with
  | [balance] => .ok (balance - r.bill, balance)
  | _ => .error (.assertionError "")

/-- The bytes that `send_reply` gives to `encrypted_reply`. -/
def sendReply (r : Request) (success : Bool) (proposedBalance balance : Int) : PyExcept Bytes :=
  if success then do
    let proposedBalance ← Basic.toUnsigned proposedBalance
    let head ← Basic.structPack [.B, .I, .I] (0, proposedBalance, r.number, ())
    return head ++ r.signatures
  else do
    let balance ← Basic.toUnsigned balance
    Basic.structPack [.B, .I] (1, balance, ())

theorem updateAccount_ok {r : Request} {tup : List Int} {proposedBalance balance : Int}
    (h : r.updateAccount tup = .ok (proposedBalance, balance)) :
    tup = [balance] ∧ proposedBalance = balance - r.bill := by
  unfold Request.updateAccount at h
  split at h
  · cases h
    exact ⟨rfl, rfl⟩
  · cases h

/-- A handler that has signed a whole request: one signature for each unit of the bill. -/
structure Minted (r : Request) : Prop where
  number_lt : r.number < 2 ^ 16
  signatures_length : r.signatures.length = Globals.ACOIN_KEY_BYTES * r.bill

theorem mintLoop_minted (cfg : Config) (k : Nat) {r : Request} (msg : Bytes) (hr : r.Minted) :
    (mintLoop cfg ACOIN_VALUE k r msg).1.Minted := by
  induction k generalizing r msg with
  | zero => exact hr
  | succ k ih =>
    unfold mintLoop
    split
    · exact hr
    · refine ih _ ⟨hr.number_lt, ?_⟩
      simp only [List.length_append, hr.signatures_length, Fmt.packStr_length]
      rw [ACOIN_VALUE, Nat.mul_add, Nat.mul_one]

/-- A request that was signed went through the loop, from an empty bill. -/
theorem unpackAndMint_ok {cfg : Config} {r r' : Request} {msg : Bytes}
    (h : r.unpackAndMint cfg msg = (r', .ok ())) :
    ∃ number rest, number < 2 ^ 16 ∧
      mintLoop cfg ACOIN_VALUE number { r with number, bill := 0, signatures := [] } rest = (r', .ok ()) := by
  unfold unpackAndMint at h
  split at h
  · cases h
  · rename_i number rest hnumber
    have hlt : number < 2 ^ 16 := Basic.readShort_lt hnumber
    dsimp only at h
    split at h
    · cases h
    · split at h
      · cases h
      · split at h
        · cases h
        · rename_i value rest' hvalue _ hone
          have hvalue : value = ACOIN_VALUE := by
            by_contra hne
            exact hone (Or.inl hne)
          subst hvalue
          exact ⟨number, _, hlt, h⟩

theorem unpackAndMint_minted {cfg : Config} {r r' : Request} {msg : Bytes}
    (h : r.unpackAndMint cfg msg = (r', .ok ())) : r'.Minted := by
  obtain ⟨number, rest, hlt, hloop⟩ := unpackAndMint_ok h
  have hminted := mintLoop_minted cfg number (r := { r with number, bill := 0, signatures := [] })
    rest ⟨hlt, by simp⟩
  rwa [hloop] at hminted

theorem mintLoop_bill {cfg : Config} (k : Nat) {r r' : Request} {msg : Bytes}
    (h : mintLoop cfg ACOIN_VALUE k r msg = (r', .ok ())) : r'.number = r.number ∧ r'.bill = r.bill + k := by
  induction k generalizing r msg with
  | zero =>
    cases h
    exact ⟨rfl, rfl⟩
  | succ k ih =>
    unfold mintLoop at h
    split at h
    · cases h
    · obtain ⟨hnumber, hbill⟩ := ih h
      refine ⟨hnumber, hbill.trans ?_⟩
      unfold ACOIN_VALUE
      dsimp only
      omega

/-- The bill of a request that was signed is the number of coins it asks for. -/
theorem unpackAndMint_bill {cfg : Config} {r r' : Request} {msg : Bytes}
    (h : r.unpackAndMint cfg msg = (r', .ok ())) : r'.bill = r'.number := by
  obtain ⟨number, rest, -, hloop⟩ := unpackAndMint_ok h
  obtain ⟨hnumber, hbill⟩ := mintLoop_bill number hloop
  rw [hnumber, hbill, Nat.zero_add]

end Request

/-! ### The replies of `Deposit` and `TCPServer` -/

def MIN_SEC : Int := 5

/-- `get_interval_time_deltas`, at the time `curTime`. -/
def getIntervalTimeDeltas (current : AcoinInterval) (curTime : Int) : Int × Int :=
  let curExp := current.expires - curTime
  let curExp := if curExp < MIN_SEC then MIN_SEC else curExp
  let nextExp := current.expiresNext - curTime
  let nextExp := if nextExp < MIN_SEC then MIN_SEC else nextExp
  (curExp, nextExp)

/-- The bytes that `Deposit.reply` gives to `encrypted_reply`, at the time `curTime`; `msg`
holds the balances that the `SELECT` returned. -/
def depositReply (number : Nat) (returnSlip : Bytes) (current : AcoinInterval) (curTime : Int)
    (msg : List Int) : PyExcept Bytes :=
  match msg with
  | [] => .error .indexError
  | balance :: _ => do
    let balance ← Basic.toUnsigned balance
    let interval ← Basic.toUnsigned current.id
    let curExp ← Basic.toUnsigned (getIntervalTimeDeltas current curTime).1
    let nextExp ← Basic.toUnsigned (getIntervalTimeDeltas current curTime).2
    Basic.structPack [.I, .I, .I, .I, .s number] (balance, interval, curExp, nextExp, returnSlip, ())

/-- What `TCPServer.err` sends. -/
def errorText : Bytes :=
  "An error was encountered with your request; contact kans or contact jash to get kans.".toUTF8.toList

theorem depositLoop_length {cfg : Config} {current : Int} (k : Nat) {s t : Server}
    {blob returnSlip returnSlip' : Bytes} {total total' : Nat}
    (h : depositLoop cfg current k s blob returnSlip total = (t, .ok (returnSlip', total'))) :
    returnSlip'.length = returnSlip.length + k := by
  induction k generalizing s blob returnSlip total with
  | zero =>
    cases h
    rfl
  | succ k ih =>
    unfold depositLoop at h
    split at h
    · cases h
    · rw [ih h, List.length_append, List.length_singleton]
      omega

/-- The return slip has one status for each coin that the message announces. -/
theorem unpackAndVerify_slip {cfg : Config} {s t : Server} {blob rest returnSlip : Bytes}
    {n number total : Nat} (hn : Basic.readShort blob = .ok (n, rest))
    (h : unpackAndVerify cfg s blob = (t, .ok (number, returnSlip, total))) :
    number = n ∧ returnSlip.length = n := by
  unfold unpackAndVerify at h
  rw [hn] at h
  dsimp only at h
  split at h
  · rename_i hzero
    cases h
    exact ⟨hzero.symm, hzero.symm⟩
  · split at h
    · cases h
    · split at h
      · cases h
      · rename_i hloop
        cases h
        refine ⟨rfl, ?_⟩
        rw [depositLoop_length _ hloop, List.length_nil, Nat.zero_add]

end BitBlinder.Bank
