import BitBlinder.Client.CoinLifecycle

/-!
# `inverse` and the removal of a blinding factor

`inverse` computes one of the two Bézout coefficients only. The bound on it is
an invariant in which the other remainders appear: at every turn of the loop
`|v1| * u3 + |u1| * v3` is `v`. So the coefficient at the exit lies strictly
between `-v` and `v`, the second loop makes one turn at most, and the result is
the inverse below `v`.
-/

namespace BitBlinder

set_option autoImplicit false

open Struct

/-! ### The bound of the coefficient -/

/-- The coefficients alternate in sign, so their moduli add up when the quotient is taken off. -/
theorem natAbs_sub_mul {u1 v1 : Int} (hsign : u1 * v1 ≤ 0) (k : Nat) :
    (u1 - v1 * k).natAbs = u1.natAbs + v1.natAbs * k := by
  have hmul : (v1 * k).natAbs = v1.natAbs * k := by rw [Int.natAbs_mul, Int.natAbs_natCast]
  rw [← hmul]
  rcases Int.le_total 0 v1 with hv | hv
  · have hvk : 0 ≤ v1 * k := Int.mul_nonneg hv (Int.natCast_nonneg k)
    rcases eq_or_lt_of_le hv with hzero | hpos
    · rw [← hzero]
      simp
    · have hu : u1 ≤ 0 := nonpos_of_mul_nonpos_left hsign hpos
      omega
  · have hvk : v1 * k ≤ 0 := Int.mul_nonpos_of_nonpos_of_nonneg hv (Int.natCast_nonneg k)
    rcases eq_or_lt_of_le hv with hzero | hneg
    · rw [hzero]
      simp
    · have hu : 0 ≤ u1 := by
        by_contra hlt
        have hprod := Int.mul_pos_of_neg_of_neg (Int.not_le.mp hlt) hneg
        omega
      omega

/-- What a turn of the loop keeps: the coefficients and the remainders make up `v`, the signs
alternate, and the coefficient that is returned in the end is bounded. -/
structure Bounded (v : Nat) (u1 v1 : Int) (u3 v3 : Nat) : Prop where
  remainder_pos : 0 < u3
  total : v1.natAbs * u3 + u1.natAbs * v3 = v
  signs : u1 * v1 ≤ 0
  bound : u1.natAbs ≤ v

theorem Bounded.next {v : Nat} {u1 v1 : Int} {u3 v3 : Nat} (h : Bounded v u1 v1 u3 v3) (hpos : 0 < v3) :
    Bounded v v1 (u1 - v1 * (u3 / v3 : Nat)) v3 (u3 - v3 * (u3 / v3)) := by
  have hmoduli := natAbs_sub_mul h.signs (u3 / v3)
  refine ⟨hpos, ?_, ?_, ?_⟩
  · have hle := Nat.mul_div_le u3 v3
    rw [hmoduli]
    calc
      (u1.natAbs + v1.natAbs * (u3 / v3)) * v3 + v1.natAbs * (u3 - v3 * (u3 / v3))
        = v1.natAbs * (v3 * (u3 / v3) + (u3 - v3 * (u3 / v3))) + u1.natAbs * v3 := by ring
      _ = v1.natAbs * u3 + u1.natAbs * v3 := by rw [Nat.add_sub_cancel' hle]
      _ = v := h.total
  · have hsquare : 0 ≤ v1 * v1 * (u3 / v3 : Nat) := Int.mul_nonneg (mul_self_nonneg v1) (Int.natCast_nonneg _)
    calc
      v1 * (u1 - v1 * (u3 / v3 : Nat)) = u1 * v1 - v1 * v1 * (u3 / v3 : Nat) := by ring
      _ ≤ 0 := by linarith [h.signs]
  · calc
      v1.natAbs ≤ v1.natAbs * u3 := Nat.le_mul_of_pos_right _ h.remainder_pos
      _ ≤ v1.natAbs * u3 + u1.natAbs * v3 := Nat.le_add_right _ _
      _ = v := h.total

theorem inverseLoop_natAbs_le {v : Nat} (u1 v1 : Int) (u3 v3 : Nat) (h : Bounded v u1 v1 u3 v3) :
    (inverseLoop u1 v1 u3 v3).natAbs ≤ v := by
  fun_induction inverseLoop u1 v1 u3 v3 with
  | case1 u1 v1 u3 v3 hpos ih => exact ih (h.next hpos)
  | case2 u1 v1 u3 v3 hzero => exact h.bound

/-- The coefficient is not a multiple of `v`, so it stays strictly inside its bound. -/
theorem inverseLoop_natAbs_lt {u v : Nat} (hu : 0 < u) (hv : 1 < v) (hgcd : Nat.gcd u v = 1) :
    (inverseLoop 1 0 u v).natAbs < v := by
  have hle : (inverseLoop 1 0 u v).natAbs ≤ v := by
    refine inverseLoop_natAbs_le 1 0 u v ⟨hu, ?_, ?_, ?_⟩
    · simp
    · simp
    · exact hv.le
  refine lt_of_le_of_ne hle ?_
  intro heq
  have hmod := inverseLoop_modEq_gcd u v
  rw [hgcd] at hmod
  have hdvd : (v : Int) ∣ inverseLoop 1 0 u v := Int.natCast_dvd.mpr (by rw [heq])
  have hone : (v : Int) ∣ 1 := by
    have hprod : (v : Int) ∣ inverseLoop 1 0 u v * u := Dvd.dvd.mul_right hdvd _
    exact hmod.dvd_iff.mp hprod
  have hle := Int.le_of_dvd one_pos hone
  omega

/-- From above `-v`, the second loop adds `v` once at most. -/
theorem raiseToNonneg_eq {v : Nat} (hv : 0 < v) {u1 : Int} (h : -v ≤ u1) :
    raiseToNonneg v hv u1 = if u1 < 0 then u1 + v else u1 := by
  rw [raiseToNonneg]
  split
  · have hnonneg : ¬u1 + v < 0 := by omega
    rw [raiseToNonneg, if_neg hnonneg]
  · rfl

theorem inverse_lt {u v : Nat} (hu : 0 < u) (hv : 1 < v) (hgcd : Nat.gcd u v = 1) :
    inverse u v (Nat.zero_lt_of_lt hv) < v := by
  have hlt := inverseLoop_natAbs_lt hu hv hgcd
  have hlow : -(v : Int) ≤ inverseLoop 1 0 u v := by omega
  rw [inverse, raiseToNonneg_eq _ hlow]
  split <;> omega

theorem mul_inverse_mod {u v : Nat} (hv : 1 < v) (hgcd : Nat.gcd u v = 1) :
    u * inverse u v (Nat.zero_lt_of_lt hv) % v = 1 := by
  have hmod := mul_inverse_modEq (Nat.zero_lt_of_lt hv) hgcd
  rwa [Nat.ModEq, Nat.mod_eq_of_lt hv] at hmod

/-! ### Blinding factors -/

/-- A factor coprime to the modulus comes out, whatever number it was multiplied into. -/
theorem PublicKey.unblind_mul {key : PublicKey} {r s : Nat} {message : Bytes} (hr : Nat.gcd r key.n = 1)
    (hs : s < key.n) (hmessage : Basic.bytesToLong message = s * r % key.n) (length : Option Nat) :
    key.unblind message r length = Basic.longToBytes s (key.lengthOr length) := by
  have hinv := mul_inverse_modEq key.n_pos hr
  have hfactor : s * r % key.n * inverse r key.n key.n_pos ≡ s [MOD key.n] :=
    calc
      s * r % key.n * inverse r key.n key.n_pos ≡ s * r * inverse r key.n key.n_pos [MOD key.n] :=
        (Nat.mod_modEq _ _).mul_right _
      _ = s * (r * inverse r key.n key.n_pos) := Nat.mul_assoc _ _ _
      _ ≡ s * 1 [MOD key.n] := hinv.mul_left _
      _ = s := Nat.mul_one _
  unfold PublicKey.unblind
  dsimp only
  rw [hmessage, hfactor, Nat.mod_eq_of_lt hs]

/-- A key pair whose private operation is raw RSA with the exponent `d`, on strings of the key's
length. -/
structure PrivateKey.RawPair (key : PrivateKey) (p q d : Nat) : Prop where
  n_eq : key.n = p * q
  keys : Rsa.Keys p q key.e d
  fits : key.n ≤ 256 ^ key.keyLen
  decrypt_eq : key.rsaPrivateDecrypt = rawRsa key.n d key.keyLen

namespace PrivateKey.RawPair
variable {key : PrivateKey} {p q d : Nat}

theorem keyLen_pos (h : key.RawPair p q d) : 0 < key.keyLen := by
  rcases Nat.eq_zero_or_pos key.keyLen with hzero | hpos
  · have hn := h.fits
    have hp := h.keys.p_prime.two_le
    have hq := h.keys.q_prime.two_le
    have hprod := Nat.mul_le_mul hp hq
    rw [hzero, h.n_eq, pow_zero] at hn
    omega
  · exact hpos

theorem mod_lt (h : key.RawPair p q d) (x : Nat) : x % key.n < 256 ^ key.keyLen :=
  Nat.lt_of_lt_of_le (Nat.mod_lt x key.n_pos) h.fits

theorem decrypt (h : key.RawPair p q d) (x : Nat) :
    key.decrypt (packBE key.keyLen (x % key.n)) = .ok (packBE key.keyLen ((x % key.n) ^ d % key.n)) := by
  unfold PrivateKey.decrypt
  rw [h.decrypt_eq, rawRsa, Struct.unpackBE_packBE _ _ (h.mod_lt x),
    if_pos ⟨packBE_length _ _, Nat.mod_lt x key.n_pos⟩]

/-- The number that is signed for a blinded message is the message's signature times the factor. -/
theorem signed_blinded (h : key.RawPair p q d) (m r : Nat) :
    (m * (r ^ key.e % key.n) % key.n) ^ d % key.n = m ^ d % key.n * r % key.n := by
  have hfactor := h.keys.signed_blinded_modEq r m
  rw [← h.n_eq] at hfactor
  have hreduced : (m * (r ^ key.e % key.n)) ^ d ≡ m ^ d * r [MOD key.n] :=
    (((Nat.mod_modEq (r ^ key.e) key.n).mul_left m).pow d).trans hfactor
  rw [← Nat.pow_mod, hreduced, Nat.mod_mul_mod]

/-- What comes out of the unblinding is the signature of the message. -/
theorem unblind_blind (h : key.RawPair p q d) (message : Bytes) {r : Nat} (hr : Nat.gcd r key.n = 1) :
    ∃ blinded signed, key.blind message r none = .ok blinded ∧ key.decrypt blinded = .ok signed ∧
      key.unblind signed r none = .ok (packBE key.keyLen (Basic.bytesToLong message ^ d % key.n)) := by
  have hdefault : key.lengthOr none = key.keyLen := rfl
  have hpack : ∀ x, Basic.longToBytes (x % key.n) key.keyLen = .ok (packBE key.keyLen (x % key.n)) :=
    fun x => Basic.longToBytes_eq h.keyLen_pos (h.mod_lt x)
  have hblind : key.blind message r none =
      .ok (packBE key.keyLen (Basic.bytesToLong message * (r ^ key.e % key.n) % key.n)) := by
    unfold PublicKey.blind
    dsimp only
    rw [hdefault, hpack]
  refine ⟨_, _, hblind, h.decrypt _, ?_⟩
  have hlt : Basic.bytesToLong message ^ d % key.n < key.n := Nat.mod_lt _ key.n_pos
  rw [PublicKey.unblind_mul hr hlt ?_ none, hdefault, hpack]
  rw [Basic.bytesToLong_eq, Struct.unpackBE_packBE _ _ (h.mod_lt _), h.signed_blinded]

end PrivateKey.RawPair

/-- `inverse` is the inverse below the modulus, and unblinding removes the blinding factor and
nothing else: from any string of a number times the factor, and so from a blind signature. -/
theorem unblind_inverse :
    (∀ (u v : Nat) (_ : 0 < u) (hv : 1 < v), Nat.gcd u v = 1 →
      inverse u v (Nat.zero_lt_of_lt hv) < v ∧ u * inverse u v (Nat.zero_lt_of_lt hv) % v = 1) ∧
    (∀ (key : PublicKey) (r s : Nat) (message : Bytes) (length : Option Nat), Nat.gcd r key.n = 1 →
      s < key.n → Basic.bytesToLong message = s * r % key.n →
      key.unblind message r length = Basic.longToBytes s (key.lengthOr length)) ∧
    ∀ (key : PrivateKey) (p q d : Nat), key.RawPair p q d → ∀ (message : Bytes) (r : Nat),
      Nat.gcd r key.n = 1 →
      ∃ blinded signed, key.blind message r none = .ok blinded ∧ key.decrypt blinded = .ok signed ∧
        key.unblind signed r none = .ok (packBE key.keyLen (Basic.bytesToLong message ^ d % key.n)) := by
  refine ⟨fun u v hu hv hgcd => ⟨inverse_lt hu hv hgcd, mul_inverse_mod hv hgcd⟩, ?_, ?_⟩
  · intro key r s message length hr hs hmessage
    exact key.unblind_mul hr hs hmessage length
  · intro key p q d h message r hr
    exact h.unblind_blind message hr

theorem unblind_inverse_above :
    (inverse 10 7 (by decide) < 7 ∧ 10 * inverse 10 7 (by decide) % 7 = 1) ∧
      Client.examplePrivateKey.unblind [30] 10 (some 1) = Basic.longToBytes 3 1 ∧
      ∃ blinded signed, Client.examplePrivateKey.blind [5, 6] 10 none = .ok blinded ∧
        Client.examplePrivateKey.decrypt blinded = .ok signed ∧
        Client.examplePrivateKey.unblind signed 10 none = .ok (packBE Client.examplePrivateKey.keyLen
          (Basic.bytesToLong [5, 6] ^ exampleD % Client.examplePrivateKey.n)) := by
  have hgcd : Nat.gcd 10 Client.examplePrivateKey.n = 1 := by decide
  have hmatches := Client.examplePrivateKey_matches
  refine ⟨unblind_inverse.1 10 7 (by decide) (by decide) (by decide), ?_, ?_⟩
  · exact unblind_inverse.2.1 Client.examplePrivateKey.toPublicKey 10 3 [30] (some 1) hgcd
      (by decide) (by decide)
  · exact unblind_inverse.2.2 Client.examplePrivateKey exampleP exampleQ exampleD
      ⟨hmatches.n_eq, hmatches.keys, hmatches.fits, hmatches.decrypt_eq⟩ [5, 6] 10 hgcd

end BitBlinder
