import BitBlinder.ACoin
import BitBlinder.Rsa

/-!
# What a coin's signature has to be

`validate` raises the signature to the public exponent and compares the last
bytes of the result with the message. The bytes before them are not looked at,
so a coin passes with any signature whose image ends in its message, and the
signature of a coin is unique only among those whose image is the message.
-/

namespace BitBlinder

set_option autoImplicit false

open Struct

/-- The key's raw RSA operation is exponentiation on strings of `ACOIN_KEY_BYTES` bytes. -/
structure PublicKey.Raw (key : PublicKey) : Prop where
  fits : key.n ≤ 256 ^ Globals.ACOIN_KEY_BYTES
  encrypt_eq : key.rsaPublicEncrypt = rawRsa key.n key.e Globals.ACOIN_KEY_BYTES

namespace PublicKey

/-- The image of a signature under the public exponent. -/
def image (key : PublicKey) (signature : Bytes) : Nat := unpackBE signature ^ key.e % key.n

theorem Raw.encrypt {key : PublicKey} (h : key.Raw) {signature : Bytes}
    (hlength : signature.length = Globals.ACOIN_KEY_BYTES) (hlt : unpackBE signature < key.n) :
    key.encrypt signature = .ok (packBE Globals.ACOIN_KEY_BYTES (key.image signature)) := by
  unfold PublicKey.encrypt
  rw [h.encrypt_eq, rawRsa, if_pos ⟨hlength, hlt⟩]
  rfl

end PublicKey

namespace ACoin

/-- The bytes that are signed: the receipt and the interval. -/
def message (coin : ACoin) : Bytes := coin.receipt ++ packBE 4 coin.interval.toNat

/-- A coin as it comes out of `read_binary`, with a signature below the modulus. -/
structure WellFormed (key : PublicKey) (coin : ACoin) : Prop where
  receipt_length : coin.receipt.length = Globals.ACOIN_BYTES
  interval_nonneg : 0 ≤ coin.interval
  interval_lt : coin.interval < 2 ^ 32
  signature_length : coin.signature.length = Globals.ACOIN_KEY_BYTES
  signature_lt : unpackBE coin.signature < key.n

instance (key : PublicKey) (coin : ACoin) : Decidable (coin.WellFormed key) :=
  decidable_of_iff
    (coin.receipt.length = Globals.ACOIN_BYTES ∧ 0 ≤ coin.interval ∧ coin.interval < 2 ^ 32 ∧
      coin.signature.length = Globals.ACOIN_KEY_BYTES ∧ unpackBE coin.signature < key.n)
    ⟨fun ⟨h₁, h₂, h₃, h₄, h₅⟩ => ⟨h₁, h₂, h₃, h₄, h₅⟩,
      fun ⟨h₁, h₂, h₃, h₄, h₅⟩ => ⟨h₁, h₂, h₃, h₄, h₅⟩⟩

/-- The image of the signature ends in the message, and is longer. -/
def OnlyEndsInMessage (key : PublicKey) (coin : ACoin) : Prop :=
  256 ^ 36 ≤ key.image coin.signature ∧ key.image coin.signature % 256 ^ 36 = unpackBE coin.message

instance (key : PublicKey) (coin : ACoin) : Decidable (coin.OnlyEndsInMessage key) :=
  inferInstanceAs (Decidable (_ ∧ _))

theorem packAcoinForSigning_eq {receipt : Bytes} {interval : Int}
    (hreceipt : receipt.length = Globals.ACOIN_BYTES) (hpos : 0 ≤ interval) (hlt : interval < 2 ^ 32) :
    packAcoinForSigning receipt interval = .ok (receipt ++ packBE 4 interval.toNat) := by
  unfold packAcoinForSigning Basic.toUnsigned
  rw [if_pos hpos, PyExcept.ok_bind]
  refine Basic.structPack_eq_ok_iff.mpr ⟨⟨trivial, ?_, trivial⟩, ?_⟩
  · change interval.toNat < 256 ^ 4
    omega
  · have hstr : Fmt.packStr Globals.ACOIN_BYTES receipt = receipt := by
      unfold Fmt.packStr
      rw [hreceipt, Nat.sub_self, List.replicate_zero, List.append_nil, ← hreceipt, List.take_length]
    change Fmt.packStr Globals.ACOIN_BYTES receipt ++ (packBE 4 interval.toNat ++ []) = _
    rw [hstr, List.append_nil]

section Validation
variable {key : PublicKey} {coin : ACoin} {fresh : ACoin → Int → Bool} {current : Int}

theorem length_message (h : coin.WellFormed key) : coin.message.length = 36 := by
  rw [message, List.length_append, h.receipt_length, packBE_length]
  rfl

theorem message_lt (h : coin.WellFormed key) : unpackBE coin.message < 256 ^ 36 := by
  have hlt := unpackBE_lt coin.message
  rwa [length_message h] at hlt

/-- What `validate` accepts: the image ends in the message, and the interval is fresh. -/
theorem validate_eq_ok_iff (hkey : key.Raw) (h : coin.WellFormed key) :
    coin.validate key fresh current = .ok () ↔
      key.image coin.signature % 256 ^ 36 = unpackBE coin.message ∧ fresh coin current = true := by
  have hlast : lastBytes 36 (packBE Globals.ACOIN_KEY_BYTES (key.image coin.signature)) =
      packBE 36 (key.image coin.signature) := by
    unfold lastBytes
    rw [packBE_length]
    exact drop_packBE 60 36 _
  have hpack := packAcoinForSigning_eq h.receipt_length h.interval_nonneg h.interval_lt
  have hencrypt := hkey.encrypt h.signature_length h.signature_lt
  have hmessage : coin.receipt ++ packBE 4 coin.interval.toNat = coin.message := rfl
  unfold validate
  rw [hpack, PyExcept.ok_bind, hencrypt, PyExcept.ok_bind, hmessage, length_message h, hlast,
    ← packBE_eq_iff (length_message h)]
  by_cases hsig : packBE 36 (key.image coin.signature) = coin.message
  · by_cases hfresh : fresh coin current = true
    · simp [hsig, hfresh]
    · simp [hsig, hfresh]
  · simp [hsig]

/-- For a fresh coin, `validate` accepts exactly the signatures whose image is the message if and
only if the image does not merely end in it; and of one receipt and interval it accepts at most
one signature whose image is not longer than the message. -/
theorem validate_accepts_full_signatures_iff (key : PublicKey) (hkey : key.Raw) (coin : ACoin)
    (h : coin.WellFormed key) (fresh : ACoin → Int → Bool) (current : Int)
    (hfresh : fresh coin current = true) :
    ((coin.validate key fresh current = .ok () ↔
        key.image coin.signature = unpackBE coin.message) ↔ ¬coin.OnlyEndsInMessage key) ∧
      ∀ {p q d : Nat}, key.n = p * q → Rsa.Keys p q key.e d → ∀ other : ACoin, other.WellFormed key →
        other.receipt = coin.receipt → other.interval = coin.interval →
        coin.validate key fresh current = .ok () → other.validate key fresh current = .ok () →
        ¬coin.OnlyEndsInMessage key → ¬other.OnlyEndsInMessage key → other.signature = coin.signature := by
  have himage : ∀ {c : ACoin}, c.WellFormed key → c.validate key fresh current = .ok () →
      ¬c.OnlyEndsInMessage key → key.image c.signature = unpackBE c.message := by
    intro c hc hvalid hfull
    have hends := ((validate_eq_ok_iff hkey hc).mp hvalid).1
    rw [← hends]
    have hshort : key.image c.signature < 256 ^ 36 := by
      by_contra hlong
      exact hfull ⟨Nat.not_lt.mp hlong, hends⟩
    exact (Nat.mod_eq_of_lt hshort).symm
  constructor
  · constructor
    · intro hiff hends
      have hvalid := (validate_eq_ok_iff hkey h).mpr ⟨hends.2, hfresh⟩
      have heq := hiff.mp hvalid
      have hlt := message_lt h
      rw [← heq] at hlt
      exact absurd hends.1 (Nat.not_le.mpr hlt)
    · intro hfull
      refine ⟨fun hvalid => himage h hvalid hfull, ?_⟩
      intro heq
      refine (validate_eq_ok_iff hkey h).mpr ⟨?_, hfresh⟩
      rw [heq]
      exact Nat.mod_eq_of_lt (message_lt h)
  · intro p q d hn hkeys other hother hreceipt hinterval hvalid hvalid' hfull hfull'
    have hmessage : other.message = coin.message := by
      unfold message
      rw [hreceipt, hinterval]
    have hpow : key.image other.signature = key.image coin.signature := by
      rw [himage hother hvalid' hfull', himage h hvalid hfull, hmessage]
    have hlt := h.signature_lt
    have hlt' := hother.signature_lt
    unfold PublicKey.image at hpow
    rw [hn] at hpow hlt hlt'
    have heq := hkeys.eq_of_pow_modEq hlt' hlt hpow
    rw [← packBE_unpackBE other.signature, ← packBE_unpackBE coin.signature, heq, h.signature_length,
      hother.signature_length]

end Validation

end ACoin

/-! ### A key for concrete coins -/

def exampleP : Nat := 2 ^ 52 * 3 ^ 209 + 1

def exampleQ : Nat := 2 ^ 160 * 3 ^ 141 + 1

/-- The inverse of `65537` modulo `2 ^ 160 * 3 ^ 209`. -/
def exampleD : Nat := (21646 * (2 ^ 160 * 3 ^ 209) + 1) / 65537

theorem exampleP_prime : exampleP.Prime := by
  have hdigits : 2 ^ 52 * 3 ^ 209 < 2 ^ 384 := by decide +kernel
  refine Rsa.prime_of_pow_mod (g := 11) ?_ ?_ ?_
  · rw [← Rsa.powMod_eq 384 11 hdigits]
    decide +kernel
  · rw [← Rsa.powMod_eq 384 11 (by omega)]
    decide +kernel
  · rw [← Rsa.powMod_eq 384 11 (by omega)]
    decide +kernel

theorem exampleQ_prime : exampleQ.Prime := by
  have hdigits : 2 ^ 160 * 3 ^ 141 < 2 ^ 384 := by decide +kernel
  refine Rsa.prime_of_pow_mod (g := 7) ?_ ?_ ?_
  · rw [← Rsa.powMod_eq 384 7 hdigits]
    decide +kernel
  · rw [← Rsa.powMod_eq 384 7 (by omega)]
    decide +kernel
  · rw [← Rsa.powMod_eq 384 7 (by omega)]
    decide +kernel

theorem exampleKeys : Rsa.Keys exampleP exampleQ 65537 exampleD where
  p_prime := exampleP_prime
  q_prime := exampleQ_prime
  ne := by decide
  inverse := by decide

/-- An RSA key of ninety-six bytes. -/
def PublicKey.rsa : PublicKey where
  n := exampleP * exampleQ
  e := 65537
  keyLen := Globals.ACOIN_KEY_BYTES
  n_pos := Nat.mul_pos exampleP_prime.pos exampleQ_prime.pos
  rsaPublicEncrypt := rawRsa (exampleP * exampleQ) 65537 Globals.ACOIN_KEY_BYTES

theorem PublicKey.rsa_raw : PublicKey.rsa.Raw where
  fits := by decide
  encrypt_eq := rfl

namespace ACoin

/-- A coin of the first interval whose signature is made from the image `x`. -/
def signedAs (x : Nat) : ACoin where
  receipt := List.replicate 32 1
  interval := 1
  signature := packBE Globals.ACOIN_KEY_BYTES
    (Rsa.powMod (exampleP * exampleQ) 768 x exampleD)
  value := VALUE

/-- The message of these coins as a number. -/
def exampleMessage : Nat := unpackBE (signedAs 0).message

/-- The signature made with the private exponent is accepted, and no other is accepted for the
same receipt and interval unless its image is longer than the message. -/
theorem validate_accepts_full_signatures_iff_signed :
    (signedAs exampleMessage).WellFormed .rsa ∧
      ((signedAs exampleMessage).validate .rsa isFresh 1 = .ok () ↔
        PublicKey.rsa.image (signedAs exampleMessage).signature =
          unpackBE (signedAs exampleMessage).message) ∧
      (signedAs exampleMessage).validate .rsa isFresh 1 = .ok () := by
  have hwell : (signedAs exampleMessage).WellFormed .rsa := by decide +kernel
  have hfull : ¬(signedAs exampleMessage).OnlyEndsInMessage .rsa := by decide +kernel
  have hiff := validate_accepts_full_signatures_iff .rsa PublicKey.rsa_raw _ hwell isFresh 1 rfl
  refine ⟨hwell, hiff.1.mpr hfull, (hiff.1.mpr hfull).mpr ?_⟩
  decide +kernel

/-- A second signature for the same receipt and interval: its image is the message with one more
byte before it, and both coins are accepted. -/
theorem longer_image_accepted :
    (signedAs (exampleMessage + 256 ^ 36)).WellFormed .rsa ∧
      (signedAs (exampleMessage + 256 ^ 36)).validate .rsa isFresh 1 = .ok () ∧
      PublicKey.rsa.image (signedAs (exampleMessage + 256 ^ 36)).signature ≠
        unpackBE (signedAs (exampleMessage + 256 ^ 36)).message ∧
      (signedAs exampleMessage).WellFormed .rsa ∧
      (signedAs exampleMessage).validate .rsa isFresh 1 = .ok () ∧
      (signedAs (exampleMessage + 256 ^ 36)).signature ≠ (signedAs exampleMessage).signature := by
  have hwell : (signedAs exampleMessage).WellFormed .rsa := by decide +kernel
  have hlonger : (signedAs (exampleMessage + 256 ^ 36)).WellFormed .rsa := by decide +kernel
  refine ⟨hlonger, ?_, by decide +kernel, hwell, ?_, by decide +kernel⟩
  · exact (validate_eq_ok_iff PublicKey.rsa_raw hlonger).mpr (by decide +kernel)
  · exact (validate_eq_ok_iff PublicKey.rsa_raw hwell).mpr (by decide +kernel)

end ACoin

end BitBlinder
