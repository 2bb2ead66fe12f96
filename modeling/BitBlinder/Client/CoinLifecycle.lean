import Mathlib.Data.Int.ModEq
import BitBlinder.Signatures
import BitBlinder.Client.BankMessages

/-!
# From a request to a coin

A request is blinded, signed by the bank and unblinded. With raw RSA on both
sides the result is the bank's signature on the receipt and the interval, so
the coin is valid, and it stays valid when it is written out and read back.
-/

namespace BitBlinder

set_option autoImplicit false

open Struct

/-! ### `inverse` -/

/-- The loop keeps `u1 * u` congruent to `u3`, and ends in the greatest common divisor. -/
theorem inverseLoop_modEq {u v : Nat} (u1 v1 : Int) (u3 v3 : Nat) (hu : u1 * u ≡ u3 [ZMOD v])
    (hv : v1 * u ≡ v3 [ZMOD v]) : inverseLoop u1 v1 u3 v3 * u ≡ Nat.gcd u3 v3 [ZMOD v] := by
  fun_induction inverseLoop u1 v1 u3 v3 with
  | case1 u1 v1 u3 v3 hpos ih =>
    have hrest : u3 - v3 * (u3 / v3) = u3 % v3 := by
      have hdiv := Nat.div_add_mod u3 v3
      omega
    have hcast : ((u3 - v3 * (u3 / v3) : Nat) : Int) = u3 - v3 * (u3 / v3 : Nat) := by
      rw [Nat.cast_sub (Nat.mul_div_le u3 v3), Nat.cast_mul]
    have hnext : (u1 - v1 * (u3 / v3 : Nat)) * u ≡ (u3 - v3 * (u3 / v3) : Nat) [ZMOD v] := by
      rw [hcast, sub_mul, mul_right_comm]
      exact hu.sub (hv.mul_right _)
    have hgcd : Nat.gcd u3 v3 = Nat.gcd v3 (u3 - v3 * (u3 / v3)) := by
      rw [hrest, Nat.gcd_comm u3 v3, Nat.gcd_rec v3 u3, Nat.gcd_comm]
    rw [hgcd]
    exact ih hv hnext
  | case2 u1 v1 u3 v3 hzero =>
    have hv3 : v3 = 0 := by omega
    rw [hv3, Nat.gcd_zero_right]
    exact hu

theorem raiseToNonneg_modEq {v : Nat} (hv : 0 < v) (u1 : Int) :
    0 ≤ raiseToNonneg v hv u1 ∧ raiseToNonneg v hv u1 ≡ u1 [ZMOD v] := by
  fun_induction raiseToNonneg v hv u1 with
  | case1 u1 hneg ih => exact ⟨ih.1, ih.2.trans Int.add_modEq_right⟩
  | case2 u1 hnonneg => exact ⟨Int.not_lt.mp hnonneg, Int.ModEq.refl u1⟩

theorem inverseLoop_modEq_gcd (u v : Nat) : inverseLoop 1 0 u v * u ≡ Nat.gcd u v [ZMOD v] := by
  refine inverseLoop_modEq 1 0 u v ?_ ?_
  · rw [one_mul]
  · rw [zero_mul]
    exact (Int.modEq_zero_iff_dvd.mpr (dvd_refl _)).symm

theorem mul_inverse_modEq {u v : Nat} (hv : 0 < v) (h : Nat.gcd u v = 1) :
    u * inverse u v hv ≡ 1 [MOD v] := by
  have hloop := inverseLoop_modEq_gcd u v
  obtain ⟨hnonneg, hmod⟩ := raiseToNonneg_modEq hv (inverseLoop 1 0 u v)
  rw [h, Nat.cast_one] at hloop
  rw [← Int.natCast_modEq_iff, inverse, Nat.cast_mul, Int.toNat_of_nonneg hnonneg, mul_comm, Nat.cast_one]
  exact (hmod.mul_right _).trans hloop

/-- A string of the key's length for a number below the modulus. -/
theorem PublicKey.Raw.longToBytes {key : PublicKey} (h : key.Raw) (x : Nat) :
    Basic.longToBytes (x % key.n) Globals.ACOIN_KEY_BYTES =
      .ok (packBE Globals.ACOIN_KEY_BYTES (x % key.n)) := by
  refine Basic.longToBytes_eq (by decide) ?_
  exact Nat.lt_of_lt_of_le (Nat.mod_lt x key.n_pos) h.fits

theorem PublicKey.Raw.unpackBE_packBE {key : PublicKey} (h : key.Raw) (x : Nat) :
    unpackBE (packBE Globals.ACOIN_KEY_BYTES (x % key.n)) = x % key.n := by
  refine Struct.unpackBE_packBE _ _ ?_
  exact Nat.lt_of_lt_of_le (Nat.mod_lt x key.n_pos) h.fits

/-- The bank's key: its private operation is raw RSA with the exponent `d`, which is inverse to
the public one. -/
structure PrivateKey.Matches (key : PrivateKey) (p q d : Nat) : Prop extends key.toPublicKey.Raw where
  n_eq : key.n = p * q
  keys : Rsa.Keys p q key.e d
  decrypt_eq : key.rsaPrivateDecrypt = rawRsa key.n d Globals.ACOIN_KEY_BYTES

theorem PrivateKey.Matches.decrypt {key : PrivateKey} {p q d : Nat} (h : key.Matches p q d) (x : Nat) :
    key.decrypt (packBE Globals.ACOIN_KEY_BYTES (x % key.n)) =
      .ok (packBE Globals.ACOIN_KEY_BYTES ((x % key.n) ^ d % key.n)) := by
  unfold PrivateKey.decrypt
  rw [h.decrypt_eq, rawRsa, h.unpackBE_packBE, if_pos ⟨packBE_length _ _, Nat.mod_lt x key.n_pos⟩]

/-- A well-formed coin survives `write_binary` and `read_binary`, with the value of every coin. -/
theorem ACoin.readBinary_writeBinary {key : PublicKey} {coin : ACoin} (h : coin.WellFormed key) :
    ∃ bytes, coin.writeBinary = .ok bytes ∧
      ACoin.readBinary bytes = .ok ({ coin with value := ACoin.VALUE }, []) := by
  have hfits : Struct.Fits ACoin.MESSAGE_FORMAT (coin.receipt, coin.interval.toNat, coin.signature, ()) := by
    refine ⟨h.receipt_length, ?_, h.signature_length, trivial⟩
    change coin.interval.toNat < 256 ^ 4
    have hlt := h.interval_lt
    omega
  obtain ⟨bytes, hpack, -, hread⟩ := Basic.readMessage_append hfits []
  refine ⟨bytes, ?_, ?_⟩
  · unfold ACoin.writeBinary Basic.toUnsigned
    rw [if_pos h.interval_nonneg, PyExcept.ok_bind]
    exact hpack
  · rw [List.append_nil] at hread
    unfold ACoin.readBinary
    rw [hread, PyExcept.ok_bind]
    have hinterval : ((coin.interval.toNat : Nat) : Int) = coin.interval :=
      Int.toNat_of_nonneg h.interval_nonneg
    simp only [PyExcept.pure_eq, hinterval]

namespace Client

/-- The receipt of a request, and the number that is signed for it. -/
def Draw.bytes (draw : Draw) : Bytes := packBE Globals.ACOIN_BYTES draw.receipt

def signedNumber (draw : Draw) (interval : Int) : Nat :=
  unpackBE (draw.bytes ++ packBE 4 interval.toNat)

/-- The number that the client sends to be signed. -/
def blindedNumber (key : PublicKey) (draw : Draw) (interval : Int) : Nat :=
  signedNumber draw interval * (draw.blindingFactor ^ key.e % key.n) % key.n

/-- The unblinded signature. -/
def unblindedNumber (key : PublicKey) (d : Nat) (draw : Draw) (interval : Int) : Nat :=
  blindedNumber key draw interval ^ d % key.n * inverse draw.blindingFactor key.n key.n_pos % key.n

theorem two_pow_message_bits : 2 ^ 288 = 256 ^ 36 := by decide +kernel

theorem signedNumber_lt (draw : Draw) (interval : Int) : signedNumber draw interval < 2 ^ 288 := by
  have hbytes := unpackBE_lt (draw.bytes ++ packBE 4 interval.toNat)
  have hlength : (draw.bytes ++ packBE 4 interval.toNat).length = 36 := by
    rw [List.length_append, Draw.bytes, packBE_length, packBE_length]
    rfl
  rw [hlength, ← two_pow_message_bits] at hbytes
  exact hbytes

theorem makeAcoinRequest_eq {key : PublicKey} (h : key.Raw) (draw : Draw) {interval : Int}
    (hpos : 0 ≤ interval) (hlt : interval < 2 ^ 32) (value : Nat) :
    makeAcoinRequest key draw interval value = .ok
      { blindingFactor := draw.blindingFactor
        receipt := draw.bytes
        msg := packBE Globals.ACOIN_KEY_BYTES (blindedNumber key draw interval)
        interval, value } := by
  have hdraw : draw.receipt < 256 ^ Globals.ACOIN_BYTES := by
    have hdraw := draw.receipt_lt
    rwa [Nat.mul_comm, Nat.pow_mul] at hdraw
  have hreceipt : Basic.longToBytes draw.receipt Globals.ACOIN_BYTES = .ok draw.bytes :=
    Basic.longToBytes_eq (by decide) hdraw
  have hbytes : draw.bytes.length = Globals.ACOIN_BYTES := packBE_length _ _
  have hmsg := ACoin.packAcoinForSigning_eq hbytes hpos hlt
  have hlength : key.lengthOr (some Globals.ACOIN_KEY_BYTES) = Globals.ACOIN_KEY_BYTES := rfl
  unfold makeAcoinRequest PublicKey.blind
  rw [hreceipt, PyExcept.ok_bind, hmsg, PyExcept.ok_bind, hlength, Basic.bytesToLong_eq]
  dsimp only
  rw [h.longToBytes, PyExcept.ok_bind]
  rfl

theorem unblind_eq {key : PrivateKey} {p q d : Nat} (h : key.Matches p q d) (draw : Draw) (interval : Int) :
    key.unblind (packBE Globals.ACOIN_KEY_BYTES (blindedNumber key.toPublicKey draw interval ^ d % key.n))
        draw.blindingFactor (some Globals.ACOIN_KEY_BYTES) =
      .ok (packBE Globals.ACOIN_KEY_BYTES (unblindedNumber key.toPublicKey d draw interval)) := by
  have hlength : key.lengthOr (some Globals.ACOIN_KEY_BYTES) = Globals.ACOIN_KEY_BYTES := rfl
  unfold PublicKey.unblind
  dsimp only
  rw [hlength, Basic.bytesToLong_eq, h.unpackBE_packBE, h.longToBytes]
  rfl

/-- The coin that comes out of the unblinding. -/
def unblindedCoin (key : PublicKey) (d : Nat) (draw : Draw) (interval : Int) (value : Nat) : ACoin where
  receipt := draw.bytes
  interval := interval
  signature := packBE Globals.ACOIN_KEY_BYTES (unblindedNumber key d draw interval)
  value := value

theorem unblindedCoin_wellFormed {key : PublicKey} (h : key.Raw) (d : Nat) (draw : Draw) {interval : Int}
    (hpos : 0 ≤ interval) (hlt : interval < 2 ^ 32) (value : Nat) :
    (unblindedCoin key d draw interval value).WellFormed key where
  receipt_length := packBE_length _ _
  interval_nonneg := hpos
  interval_lt := hlt
  signature_length := packBE_length _ _
  signature_lt := by
    change unpackBE (packBE Globals.ACOIN_KEY_BYTES (unblindedNumber key d draw interval)) < key.n
    unfold unblindedNumber
    rw [h.unpackBE_packBE]
    exact Nat.mod_lt _ key.n_pos

/-- The image of the unblinded signature is the message. -/
theorem image_unblinded {key : PrivateKey} {p q d : Nat} (h : key.Matches p q d) (hlow : 2 ^ 288 ≤ key.n)
    {draw : Draw} (hgcd : Nat.gcd draw.blindingFactor key.n = 1) (interval : Int) :
    key.image (packBE Globals.ACOIN_KEY_BYTES (unblindedNumber key.toPublicKey d draw interval)) =
      signedNumber draw interval := by
  have hmessage : signedNumber draw interval < key.n := Nat.lt_of_lt_of_le (signedNumber_lt draw interval) hlow
  have hinverse := mul_inverse_modEq key.n_pos hgcd
  unfold PublicKey.image unblindedNumber
  rw [h.unpackBE_packBE]
  unfold blindedNumber
  generalize inverse draw.blindingFactor key.n key.n_pos = inv at hinverse ⊢
  rw [h.n_eq] at hmessage hinverse ⊢
  exact h.keys.unblind_pow_mod hinverse hmessage

theorem unblindedCoin_valid {key : PrivateKey} {p q d : Nat} (h : key.Matches p q d) (hlow : 2 ^ 288 ≤ key.n)
    {draw : Draw} (hgcd : Nat.gcd draw.blindingFactor key.n = 1) {interval : Int} (hpos : 0 ≤ interval)
    (hlt : interval < 2 ^ 32) (value : Nat) {fresh : ACoin → Int → Bool} {current : Int}
    (hfresh : fresh (unblindedCoin key.toPublicKey d draw interval value) current = true) :
    (unblindedCoin key.toPublicKey d draw interval value).validate key.toPublicKey fresh current = .ok () := by
  have hwell := unblindedCoin_wellFormed h.toRaw d draw hpos hlt value
  have himage := image_unblinded h hlow hgcd interval
  refine (ACoin.validate_eq_ok_iff h.toRaw hwell).mpr ⟨?_, hfresh⟩
  have hmessage : unpackBE (unblindedCoin key.toPublicKey d draw interval value).message =
      signedNumber draw interval := rfl
  rw [hmessage, ← himage]
  refine Nat.mod_eq_of_lt ?_
  rw [unblindedCoin, himage]
  exact Nat.lt_of_lt_of_eq (signedNumber_lt draw interval) two_pow_message_bits

theorem isFresh_at_interval {fresh : ACoin → Int → Bool} (h : fresh ∈ [ACoin.isFreshClient, ACoin.isFresh])
    (coin : ACoin) : fresh coin coin.interval = true := by
  simp only [List.mem_cons, List.not_mem_nil, or_false] at h
  rcases h with rfl | rfl
  · simp [ACoin.isFreshClient]
  · simp

/-- Under every key whose operations are raw RSA, a request that the bank has signed becomes a coin
that is valid at its interval, for the client and for the bank, and is so after it has been
written and read. -/
theorem coin_lifecycle (key : PrivateKey) {p q d : Nat} (h : key.Matches p q d) (hlow : 2 ^ 288 ≤ key.n)
    (draw : Draw) (hgcd : Basic.gcd draw.blindingFactor key.n = 1) {interval : Int} (hpos : 0 ≤ interval)
    (hlt : interval < 2 ^ 32) (value : Nat) (validate : Bool) :
    ∃ request sig coin bytes coin',
      makeAcoinRequest key.toPublicKey draw interval value = .ok request ∧
      key.decrypt request.msg = .ok sig ∧
      parseAcoinResponse key.toPublicKey sig request validate = .ok (some coin) ∧
      coin.receipt = packBE Globals.ACOIN_BYTES draw.receipt ∧ coin.interval = interval ∧
      coin.writeBinary = .ok bytes ∧ ACoin.readBinary bytes = .ok (coin', []) ∧
      ∀ fresh ∈ [ACoin.isFreshClient, ACoin.isFresh],
        coin.validate key.toPublicKey fresh interval = .ok () ∧
        coin'.validate key.toPublicKey fresh interval = .ok () := by
  rw [Basic.gcd_eq] at hgcd
  have hvalid : ∀ fresh ∈ [ACoin.isFreshClient, ACoin.isFresh], ∀ value,
      (unblindedCoin key.toPublicKey d draw interval value).validate key.toPublicKey fresh interval =
        .ok () := by
    intro fresh hfresh value
    exact unblindedCoin_valid h hlow hgcd hpos hlt value (isFresh_at_interval hfresh _)
  have hrequest := makeAcoinRequest_eq h.toRaw draw hpos hlt value
  have hdecrypt := h.decrypt (signedNumber draw interval * (draw.blindingFactor ^ key.e % key.n))
  have hwell := unblindedCoin_wellFormed h.toRaw d draw hpos hlt value
  obtain ⟨bytes, hwrite, hread⟩ := ACoin.readBinary_writeBinary hwell
  refine ⟨_, _, unblindedCoin key.toPublicKey d draw interval value, bytes, _, hrequest, hdecrypt, ?_, rfl, rfl,
    hwrite, hread, ?_⟩
  · have hvalidated : (unblindedCoin key.toPublicKey d draw interval value).isValid key.toPublicKey
        ACoin.isFreshClient interval = .ok true := by
      unfold ACoin.isValid
      rw [hvalid ACoin.isFreshClient List.mem_cons_self value]
    have hunblind := unblind_eq h draw interval
    unfold parseAcoinResponse
    dsimp only
    unfold blindedNumber at hunblind
    rw [hunblind, PyExcept.ok_bind]
    cases validate with
    | false => rfl
    | true =>
      have hcreate : ACoin.create value draw.bytes
          (packBE Globals.ACOIN_KEY_BYTES (unblindedNumber key.toPublicKey d draw interval)) interval =
          unblindedCoin key.toPublicKey d draw interval value := rfl
      rw [if_pos rfl, hcreate, hvalidated]
      rfl
  · intro fresh hfresh
    exact ⟨hvalid fresh hfresh value, hvalid fresh hfresh ACoin.VALUE⟩

/-- The private key that belongs to the example key. -/
def examplePrivateKey : PrivateKey :=
  { PublicKey.rsa with
    rsaPrivateDecrypt := rawRsa (exampleP * exampleQ) exampleD Globals.ACOIN_KEY_BYTES }

theorem examplePrivateKey_matches : examplePrivateKey.Matches exampleP exampleQ exampleD where
  toRaw := PublicKey.rsa_raw
  n_eq := rfl
  keys := exampleKeys
  decrypt_eq := rfl

/-- A receipt of zeros, blinded with ten. -/
theorem coin_lifecycle_blinded_with_ten :
    2 ^ 288 ≤ examplePrivateKey.n ∧ Basic.gcd 10 examplePrivateKey.n = 1 ∧
      ∃ request sig coin bytes coin',
        makeAcoinRequest examplePrivateKey.toPublicKey ⟨10, 0, Nat.two_pow_pos _⟩ 7 1 = .ok request ∧
        examplePrivateKey.decrypt request.msg = .ok sig ∧
        parseAcoinResponse examplePrivateKey.toPublicKey sig request true = .ok (some coin) ∧
        coin.receipt = packBE Globals.ACOIN_BYTES 0 ∧ coin.interval = 7 ∧
        coin.writeBinary = .ok bytes ∧ ACoin.readBinary bytes = .ok (coin', []) ∧
        ∀ fresh ∈ [ACoin.isFreshClient, ACoin.isFresh],
          coin.validate examplePrivateKey.toPublicKey fresh 7 = .ok () ∧
          coin'.validate examplePrivateKey.toPublicKey fresh 7 = .ok () := by
  have hlow : 2 ^ 288 ≤ examplePrivateKey.n := by decide +kernel
  have hgcd : Basic.gcd 10 examplePrivateKey.n = 1 := by
    rw [Basic.gcd_eq]
    decide
  exact ⟨hlow, hgcd, coin_lifecycle examplePrivateKey examplePrivateKey_matches hlow ⟨10, 0, Nat.two_pow_pos _⟩ hgcd
    (by decide) (by decide) 1 true⟩

end Client

end BitBlinder
