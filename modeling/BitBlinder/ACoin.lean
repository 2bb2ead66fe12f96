import BitBlinder.Basic

/-!
# Keys and anonymous coins

`common/classes/PublicKey.py`, `PrivateKey.py` and `ACoin.py`. The raw RSA
operations belong to M2Crypto and are fields of the key: `none` is its
`RSAError`, raised for a string of the wrong length or not below the modulus.
-/

namespace BitBlinder

set_option autoImplicit false

open Struct

namespace Globals

def ACOIN_BYTES : Nat := 32
def ACOIN_KEY_BYTES : Nat := 96
def TOR_ID_KEY_BYTES : Nat := 128
def CELLS_PER_MB : Nat := 2048
def CELLS_PER_PAYMENT : Nat := 5 * CELLS_PER_MB

end Globals

structure PublicKey where
  n : Nat
  e : Nat
  keyLen : Nat
  n_pos : 0 < n
  rsaPublicEncrypt : Bytes → Option Bytes

structure PrivateKey extends PublicKey where
  rsaPrivateDecrypt : Bytes → Option Bytes

/-- The documented behaviour of raw RSA: `x ↦ x ^ k mod n` on strings of the key's length. -/
def rawRsa (n k keyLen : Nat) (msg : Bytes) : Option Bytes :=
  if msg.length = keyLen ∧ unpackBE msg < n then some (packBE keyLen (unpackBE msg ^ k % n)) else none

/-- A key of the real length for raw RSA, for concrete runs. -/
def PublicKey.example : PublicKey where
  n := 2 ^ 768 - 1
  e := 65537
  keyLen := 96
  n_pos := Nat.sub_pos_of_lt (Nat.one_lt_two_pow (by decide))
  rsaPublicEncrypt := rawRsa (2 ^ 768 - 1) 65537 96

theorem PublicKey.example_fits : PublicKey.example.n ≤ 256 ^ Globals.ACOIN_KEY_BYTES := by
  decide +kernel

/-- The first loop of `inverse`: extended Euclid on the pair `(u3, v3)`. -/
def inverseLoop (u1 v1 : Int) (u3 v3 : Nat) : Int :=
  if _h : 0 < v3 then
    inverseLoop v1 (u1 - v1 * (u3 / v3 : Nat)) v3 (u3 - v3 * (u3 / v3))
  else
    u1
termination_by v3
decreasing_by
  have hmod := Nat.mod_lt u3 _h
  have hdiv := Nat.div_add_mod u3 v3
  omega

/-- The second loop of `inverse`. -/
def raiseToNonneg (v : Nat) (hv : 0 < v) (u1 : Int) : Int :=
  if u1 < 0 then raiseToNonneg v hv (u1 + v) else u1
termination_by (-u1).toNat
decreasing_by omega

def inverse (u v : Nat) (hv : 0 < v) : Nat :=
  (raiseToNonneg v hv (inverseLoop 1 0 u v)).toNat

namespace PublicKey

/-- `encrypt(msg, False)`: raw RSA with the public exponent. -/
def encrypt (key : PublicKey) (msg : Bytes) : PyExcept Bytes :=
  match key.rsaPublicEncrypt msg with
  | some bs => .ok bs
  | none => .error .rsaError

/-- `length or self.keyLen`. -/
def lengthOr (key : PublicKey) (length : Option Nat) : Nat :=
  match length with
  | some 0 => key.keyLen
  | some len => len
  | none => key.keyLen

def blind (key : PublicKey) (message : Bytes) (r : Nat) (length : Option Nat) : PyExcept Bytes :=
  let tmp := r ^ key.e % key.n
  Basic.longToBytes (Basic.bytesToLong message * tmp % key.n) (key.lengthOr length)

def unblind (key : PublicKey) (message : Bytes) (r : Nat) (length : Option Nat) : PyExcept Bytes :=
  let tmp := inverse r key.n key.n_pos
  Basic.longToBytes (Basic.bytesToLong message * tmp % key.n) (key.lengthOr length)

end PublicKey

/-- `decrypt(msg, False)`: raw RSA with the private exponent. -/
def PrivateKey.decrypt (key : PrivateKey) (msg : Bytes) : PyExcept Bytes :=
  match key.rsaPrivateDecrypt msg with
  | some bs => .ok bs
  | none => .error .rsaError

/-- The value of `md5(...).digest()`. -/
abbrev Digest := {bs : Bytes // bs.length = 16}

def Digest.first (d : Digest) : UInt8 := d.val.headD 0

structure ACoin where
  receipt : Bytes
  interval : Int
  signature : Bytes
  value : Nat
  deriving DecidableEq

namespace ACoin

def VALUE : Nat := 1

def MESSAGE_FORMAT : List Fmt := [.s Globals.ACOIN_BYTES, .I, .s Globals.ACOIN_KEY_BYTES]

def SIG_FORMAT : List Fmt := [.s Globals.ACOIN_BYTES, .I]

/-- Python compares coins by `COMPARISON_ORDER`, which leaves the signature out. -/
def key (coin : ACoin) : Bytes × Nat × Int := (coin.receipt, coin.value, coin.interval)

def packAcoinForSigning (receipt : Bytes) (interval : Int) : PyExcept Bytes := do
  let interval ← Basic.toUnsigned interval
  Basic.structPack SIG_FORMAT (receipt, interval, ())

def writeBinary (coin : ACoin) : PyExcept Bytes := do
  let interval ← Basic.toUnsigned coin.interval
  Basic.structPack MESSAGE_FORMAT (coin.receipt, interval, coin.signature, ())

def readBinary (msg : Bytes) : PyExcept (ACoin × Bytes) := do
  let ((receipt, interval, signature, _), msg) ← Basic.readMessage MESSAGE_FORMAT msg
  return ({ receipt, interval, signature, value := VALUE }, msg)

def create (value : Nat) (receipt sig : Bytes) (interval : Int) : ACoin :=
  { receipt, interval, signature := sig, value }

/-- The slice `bs[-k:]`. -/
def lastBytes (k : Nat) (bs : Bytes) : Bytes := bs.drop (bs.length - k)

/-- `validate`, for the freshness test of the class it runs in. -/
def validate (bankKey : PublicKey) (isFresh : ACoin → Int → Bool) (coin : ACoin)
    (currentAcoinInterval : Int) : PyExcept Unit := do
  let msg ← packAcoinForSigning coin.receipt coin.interval
  let encrypted ← bankKey.encrypt coin.signature
  if lastBytes msg.length encrypted ≠ msg then
    throw (.coinValidationError "bad bank signature")
  if !isFresh coin currentAcoinInterval then
    throw (.coinValidationError "Coin has either expired is from the future!")

/-- Only validation errors become `False`; other exceptions go through. -/
def isValid (bankKey : PublicKey) (isFresh : ACoin → Int → Bool) (coin : ACoin)
    (currentAcoinInterval : Int) : PyExcept Bool :=
  match validate bankKey isFresh coin currentAcoinInterval with
  | .ok _ => .ok true
  | .error (.coinValidationError _) => .ok false
  | .error e => .error e

/-- The bank's test: the current interval or the one before. -/
def isFresh (coin : ACoin) (currentAcoinInterval : Int) : Bool :=
  !(coin.interval ≠ currentAcoinInterval && coin.interval ≠ currentAcoinInterval - 1)

/-- The client's test also admits the next interval. -/
def isFreshClient (coin : ACoin) (currentAcoinInterval : Int) : Bool :=
  currentAcoinInterval - 1 ≤ coin.interval && coin.interval < currentAcoinInterval + 2

def store (md5 : Bytes → Digest) (coin : ACoin) : Digest := md5 coin.signature

@[simp] theorem isFresh_iff (coin : ACoin) (current : Int) :
    coin.isFresh current = true ↔ coin.interval = current - 1 ∨ coin.interval = current := by
  simp only [isFresh, Bool.not_eq_true', Bool.and_eq_false_iff, decide_eq_false_iff_not, not_not]
  exact or_comm

theorem packAcoinForSigning_ok {receipt : Bytes} {interval : Int} {msg : Bytes}
    (h : packAcoinForSigning receipt interval = .ok msg) :
    msg.length = 36 ∧ interval = unpackBE (msg.drop 32) := by
  unfold packAcoinForSigning Basic.toUnsigned at h
  split at h
  · rename_i hpos
    simp only [PyExcept.ok_bind, Basic.structPack, SIG_FORMAT, pack, Fmt.pack] at h
    cases hint : Fmt.packUInt 4 interval.toNat with
    | none => simp [hint] at h
    | some bs =>
      obtain ⟨hlen, hval⟩ := Fmt.packUInt_eq_some hint
      simp [hint, Globals.ACOIN_BYTES] at h
      subst h
      refine ⟨by simp [hlen], ?_⟩
      rw [List.drop_append_of_le_length (by simp), List.drop_of_length_le (by simp)]
      simp [hval, Int.toNat_of_nonneg hpos]
  · simp at h

theorem readBinary_error {msg : Bytes} {e : PyError} (h : readBinary msg = .error e) :
    ∃ text, e = .assertionError text := by
  unfold readBinary Basic.readMessage at h
  split at h
  · cases h
  · simp only [PyExcept.error_bind, Except.error.injEq] at h
    exact ⟨_, h.symm⟩

theorem packAcoinForSigning_error {receipt : Bytes} {interval : Int} {e : PyError}
    (h : packAcoinForSigning receipt interval = .error e) : e = .structError := by
  unfold packAcoinForSigning Basic.toUnsigned Basic.structPack at h
  split at h
  · simp only [PyExcept.ok_bind] at h
    split at h
    · simp at h
    · exact (Except.error.inj h).symm
  · exact (Except.error.inj h).symm

theorem isValid_error {bankKey : PublicKey} {fresh : ACoin → Int → Bool} {coin : ACoin}
    {current : Int} {e : PyError} (h : isValid bankKey fresh coin current = .error e) :
    e = .structError ∨ e = .rsaError := by
  unfold isValid validate at h
  cases hmsg : packAcoinForSigning coin.receipt coin.interval with
  | error e' =>
    have he' := packAcoinForSigning_error hmsg
    subst he'
    simp only [hmsg, PyExcept.error_bind, Except.error.injEq] at h
    exact Or.inl h.symm
  | ok msg =>
    unfold PublicKey.encrypt at h
    cases henc : bankKey.rsaPublicEncrypt coin.signature with
    | none =>
      simp only [hmsg, henc, PyExcept.ok_bind, PyExcept.error_bind, Except.error.injEq] at h
      exact Or.inr h.symm
    | some encrypted =>
      by_cases hsig : lastBytes msg.length encrypted = msg
      · by_cases hfresh : fresh coin current = true
        · simp [hmsg, henc, hsig, hfresh] at h
        · simp [hmsg, henc, hsig, hfresh] at h
      · simp [hmsg, henc, hsig] at h

theorem isValid_eq_true {bankKey : PublicKey} {fresh : ACoin → Int → Bool} {coin : ACoin}
    {current : Int} (h : isValid bankKey fresh coin current = .ok true) :
    fresh coin current = true ∧ ∃ msg encrypted,
      packAcoinForSigning coin.receipt coin.interval = .ok msg ∧
      bankKey.encrypt coin.signature = .ok encrypted ∧ lastBytes msg.length encrypted = msg := by
  unfold isValid validate at h
  cases hmsg : packAcoinForSigning coin.receipt coin.interval with
  | error e => cases e <;> simp [hmsg] at h
  | ok msg =>
    cases henc : bankKey.encrypt coin.signature with
    | error e => cases e <;> simp [hmsg, henc] at h
    | ok encrypted =>
      by_cases hsig : lastBytes msg.length encrypted = msg
      · by_cases hfresh : fresh coin current = true
        · exact ⟨hfresh, msg, encrypted, rfl, rfl, hsig⟩
        · simp [hmsg, henc, hsig, hfresh] at h
      · simp [hmsg, henc, hsig] at h

/-- The signature alone determines the interval of a coin that passes validation. -/
theorem interval_eq_of_signature_eq {bankKey : PublicKey} {fresh : ACoin → Int → Bool}
    {coin coin' : ACoin} {current current' : Int}
    (h : isValid bankKey fresh coin current = .ok true)
    (h' : isValid bankKey fresh coin' current' = .ok true)
    (hsig : coin.signature = coin'.signature) : coin.interval = coin'.interval := by
  obtain ⟨_, msg, enc, hmsg, henc, hlast⟩ := isValid_eq_true h
  obtain ⟨_, msg', enc', hmsg', henc', hlast'⟩ := isValid_eq_true h'
  obtain ⟨hlen, hval⟩ := packAcoinForSigning_ok hmsg
  obtain ⟨hlen', hval'⟩ := packAcoinForSigning_ok hmsg'
  have henceq : enc = enc' := by
    rw [hsig, henc'] at henc
    exact (Except.ok.inj henc).symm
  have hmsgeq : msg = msg' := by
    rw [← hlast, ← hlast', hlen, hlen', henceq]
  rw [hval, hval', hmsgeq]

end ACoin

end BitBlinder
