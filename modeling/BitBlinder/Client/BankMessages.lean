import BitBlinder.ACoin

/-!
# Coin requests and responses

`make_acoin_request` and `parse_acoin_response` of `core/bank/BankMessages.py`.
A `Draw` is what the random generator returns for one request.
-/

namespace BitBlinder.Client

set_option autoImplicit false

open Struct

structure Draw where
  blindingFactor : Nat
  receipt : Nat
  receipt_lt : receipt < 2 ^ (Globals.ACOIN_BYTES * 8)

/-- No blinding and receipts that count up, for concrete runs. -/
def Draw.counting (n : Nat) : Draw :=
  ⟨1, n % 2 ^ (Globals.ACOIN_BYTES * 8), Nat.mod_lt n (Nat.two_pow_pos _)⟩

structure AcoinRequest where
  blindingFactor : Nat
  receipt : Bytes
  msg : Bytes
  interval : Int
  value : Nat
  deriving DecidableEq

def makeAcoinRequest (bankKey : PublicKey) (draw : Draw) (interval : Int) (value : Nat) :
    PyExcept AcoinRequest := do
  let receipt ← Basic.longToBytes draw.receipt Globals.ACOIN_BYTES
  let msg ← ACoin.packAcoinForSigning receipt interval
  let msg ← bankKey.blind msg draw.blindingFactor (some Globals.ACOIN_KEY_BYTES)
  return { blindingFactor := draw.blindingFactor, receipt, msg, interval, value }

/-- `None` is a coin that does not pass validation. -/
def parseAcoinResponse (bankKey : PublicKey) (sig : Bytes) (request : AcoinRequest)
    (validate : Bool) : PyExcept (Option ACoin) := do
  let sig ← bankKey.unblind sig request.blindingFactor (some Globals.ACOIN_KEY_BYTES)
  let coin := ACoin.create request.value request.receipt sig request.interval
  if validate then
    let valid ← coin.isValid bankKey ACoin.isFreshClient request.interval
    return if valid then some coin else none
  else
    return some coin

theorem makeAcoinRequest_ok {bankKey : PublicKey} {draw : Draw} {interval : Int} {value : Nat}
    {request : AcoinRequest} (h : makeAcoinRequest bankKey draw interval value = .ok request) :
    unpackBE request.receipt = draw.receipt ∧ request.value = value := by
  obtain ⟨receipt, hreceipt, h⟩ := PyExcept.bind_eq_ok h
  obtain ⟨msg, -, h⟩ := PyExcept.bind_eq_ok h
  obtain ⟨blinded, -, h⟩ := PyExcept.bind_eq_ok h
  cases h
  exact ⟨Basic.unpackBE_longToBytes hreceipt, rfl⟩

/-- A request can be made whenever the bank's modulus has at most `ACOIN_KEY_BYTES` bytes and
the interval fits its field. -/
theorem makeAcoinRequest_exists {bankKey : PublicKey}
    (hfits : bankKey.n ≤ 256 ^ Globals.ACOIN_KEY_BYTES) (draw : Draw) {interval : Int}
    (hpos : 0 ≤ interval) (hlt : interval < 2 ^ 32) (value : Nat) :
    ∃ request, makeAcoinRequest bankKey draw interval value = .ok request := by
  have hdraw : draw.receipt < 256 ^ Globals.ACOIN_BYTES := by
    have hdraw := draw.receipt_lt
    rwa [Nat.mul_comm, Nat.pow_mul] at hdraw
  obtain ⟨receipt, hreceipt⟩ := Basic.longToBytes_of_lt (by decide) hdraw
  have hmsg : ∃ msg, ACoin.packAcoinForSigning receipt interval = .ok msg := by
    unfold ACoin.packAcoinForSigning Basic.toUnsigned
    rw [if_pos hpos, PyExcept.ok_bind]
    refine ⟨_, Basic.structPack_eq_ok_iff.mpr ⟨⟨trivial, ?_, trivial⟩, rfl⟩⟩
    change interval.toNat < 256 ^ 4
    omega
  obtain ⟨msg, hmsg⟩ := hmsg
  obtain ⟨blinded, hblinded⟩ : ∃ blinded,
      bankKey.blind msg draw.blindingFactor (some Globals.ACOIN_KEY_BYTES) = .ok blinded := by
    have hlen : bankKey.lengthOr (some Globals.ACOIN_KEY_BYTES) = Globals.ACOIN_KEY_BYTES := rfl
    unfold PublicKey.blind
    rw [hlen]
    exact Basic.longToBytes_of_lt (by decide) (Nat.lt_of_lt_of_le (Nat.mod_lt _ bankKey.n_pos) hfits)
  unfold makeAcoinRequest
  rw [hreceipt, PyExcept.ok_bind, hmsg, PyExcept.ok_bind, hblinded, PyExcept.ok_bind]
  exact ⟨_, rfl⟩

theorem parseAcoinResponse_valid {bankKey : PublicKey} {sig : Bytes} {request : AcoinRequest}
    {coin : ACoin} (h : parseAcoinResponse bankKey sig request true = .ok (some coin)) :
    coin.receipt = request.receipt ∧ coin.value = request.value ∧ coin.interval = request.interval ∧
      coin.isValid bankKey ACoin.isFreshClient coin.interval = .ok true := by
  obtain ⟨sig', -, h⟩ := PyExcept.bind_eq_ok h
  dsimp only at h
  rw [if_pos rfl] at h
  obtain ⟨valid, hvalid, h⟩ := PyExcept.bind_eq_ok h
  cases valid with
  | false => cases h
  | true =>
    cases h
    exact ⟨rfl, rfl, rfl, hvalid⟩

end BitBlinder.Client
