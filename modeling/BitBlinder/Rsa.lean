import Mathlib.FieldTheory.Finite.Basic
import Mathlib.NumberTheory.LucasPrimality
import Mathlib.Data.Nat.ChineseRemainder

/-!
# Arithmetic of RSA

For a modulus `p * q` and exponents that are inverse to each other modulo
`lcm (p - 1) (q - 1)`, raising to the one undoes raising to the other, on all
residues. So raising to the public exponent is injective below the modulus,
and a factor `r ^ e` that was multiplied in comes out as a factor `r`.
-/

namespace BitBlinder.Rsa

set_option autoImplicit false

/-- `x ^ k % n` by squaring; `fuel` bounds the number of binary digits of `k`. -/
def powMod (n : Nat) : Nat → Nat → Nat → Nat
  | 0, _, _ => 1 % n
  | fuel + 1, x, k =>
    let half := powMod n fuel (x * x % n) (k / 2)
    if k % 2 = 1 then x * half % n else half

theorem powMod_eq {n k : Nat} (fuel x : Nat) (hk : k < 2 ^ fuel) : powMod n fuel x k = x ^ k % n := by
  induction fuel generalizing x k with
  | zero =>
    have hzero : k = 0 := by simpa using hk
    rw [hzero, powMod, pow_zero]
  | succ fuel ih =>
    have hhalf : powMod n fuel (x * x % n) (k / 2) = x ^ (2 * (k / 2)) % n := by
      rw [ih _ (by rw [pow_succ] at hk; omega), ← Nat.pow_mod, pow_mul, pow_two]
    rw [powMod, hhalf]
    split
    · have hodd : k = 2 * (k / 2) + 1 := by omega
      conv_rhs => rw [hodd, pow_succ, Nat.mul_comm]
      rw [Nat.mul_mod, Nat.mod_mod, ← Nat.mul_mod]
    · have heven : k = 2 * (k / 2) := by omega
      conv_rhs => rw [heven]

/-- Lucas' test where the prime less one has no prime factors but two and three. -/
theorem prime_of_pow_mod {a b g : Nat} (hone : g ^ (2 ^ a * 3 ^ b) % (2 ^ a * 3 ^ b + 1) = 1)
    (htwo : g ^ (2 ^ a * 3 ^ b / 2) % (2 ^ a * 3 ^ b + 1) ≠ 1)
    (hthree : g ^ (2 ^ a * 3 ^ b / 3) % (2 ^ a * 3 ^ b + 1) ≠ 1) : (2 ^ a * 3 ^ b + 1).Prime := by
  have hlarge : 1 < 2 ^ a * 3 ^ b + 1 := by
    have hpos : 0 < 2 ^ a * 3 ^ b := Nat.mul_pos (Nat.two_pow_pos a) (Nat.pow_pos (by decide))
    omega
  have hcast : ∀ k, (g : ZMod (2 ^ a * 3 ^ b + 1)) ^ k = 1 ↔ g ^ k % (2 ^ a * 3 ^ b + 1) = 1 := by
    intro k
    have hmod := ZMod.natCast_eq_natCast_iff (g ^ k) 1 (2 ^ a * 3 ^ b + 1)
    rw [Nat.cast_pow, Nat.cast_one, Nat.ModEq, Nat.mod_eq_of_lt hlarge] at hmod
    exact hmod
  refine lucas_primality _ (g : ZMod (2 ^ a * 3 ^ b + 1)) ((hcast _).mpr hone) ?_
  intro r hr hdvd
  rw [Nat.add_sub_cancel] at hdvd ⊢
  rw [Ne, hcast]
  rcases (Nat.Prime.dvd_mul hr).mp hdvd with h | h
  · rw [(Nat.prime_dvd_prime_iff_eq hr Nat.prime_two).mp (hr.dvd_of_dvd_pow h)]
    exact htwo
  · rw [(Nat.prime_dvd_prime_iff_eq hr Nat.prime_three).mp (hr.dvd_of_dvd_pow h)]
    exact hthree

structure Keys (p q e d : Nat) : Prop where
  p_prime : p.Prime
  q_prime : q.Prime
  ne : p ≠ q
  inverse : e * d ≡ 1 [MOD Nat.lcm (p - 1) (q - 1)]

/-- Fermat's little theorem for exponents that are one modulo `p - 1`. -/
theorem pow_modEq_self {p k : Nat} (hp : p.Prime) (hpos : 0 < k) (hk : k ≡ 1 [MOD p - 1]) (x : Nat) :
    x ^ k ≡ x [MOD p] := by
  obtain ⟨m, hm⟩ := (Nat.modEq_iff_dvd' hpos).mp hk.symm
  have hkm : k = (p - 1) * m + 1 := by omega
  have : Fact p.Prime := ⟨hp⟩
  rw [← ZMod.natCast_eq_natCast_iff, Nat.cast_pow]
  by_cases hx : (x : ZMod p) = 0
  · rw [hx, zero_pow hpos.ne']
  · rw [hkm, pow_succ, pow_mul, ZMod.pow_card_sub_one_eq_one hx, one_pow, one_mul]

namespace Keys
variable {p q e d : Nat}

theorem coprime (h : Keys p q e d) : Nat.Coprime p q := (Nat.coprime_primes h.p_prime h.q_prime).mpr h.ne

theorem exponent_pos (h : Keys p q e d) : 0 < e * d := by
  rcases Nat.eq_zero_or_pos (e * d) with hzero | hpos
  · -- Otherwise `lcm (p - 1) (q - 1)` is one, and both primes are two.
    have hmod := h.inverse
    rw [hzero] at hmod
    have hlcm : Nat.lcm (p - 1) (q - 1) ∣ 1 := by simpa using (Nat.modEq_iff_dvd' (Nat.zero_le 1)).mp hmod
    have hp : p - 1 ∣ 1 := (Nat.dvd_lcm_left _ _).trans hlcm
    have hq : q - 1 ∣ 1 := (Nat.dvd_lcm_right _ _).trans hlcm
    have hp2 := h.p_prime.two_le
    have hq2 := h.q_prime.two_le
    have hne := h.ne
    rw [Nat.dvd_one] at hp hq
    omega
  · exact hpos

/-- Both exponents together change nothing. -/
theorem pow_mul_modEq (h : Keys p q e d) (x : Nat) : x ^ (e * d) ≡ x [MOD p * q] := by
  refine (Nat.modEq_and_modEq_iff_modEq_mul h.coprime).mp ⟨?_, ?_⟩
  · exact pow_modEq_self h.p_prime h.exponent_pos (h.inverse.of_dvd (Nat.dvd_lcm_left _ _)) x
  · exact pow_modEq_self h.q_prime h.exponent_pos (h.inverse.of_dvd (Nat.dvd_lcm_right _ _)) x

/-- The private exponent undoes the public one. -/
theorem pow_pow_modEq (h : Keys p q e d) (x : Nat) : (x ^ d) ^ e ≡ x [MOD p * q] := by
  rw [← pow_mul, Nat.mul_comm d e]
  exact h.pow_mul_modEq x

theorem eq_of_pow_modEq (h : Keys p q e d) {x y : Nat} (hx : x < p * q) (hy : y < p * q)
    (hxy : x ^ e ≡ y ^ e [MOD p * q]) : x = y := by
  have hpow : x ^ (e * d) ≡ y ^ (e * d) [MOD p * q] := by
    rw [pow_mul, pow_mul]
    exact hxy.pow d
  have hmod : x ≡ y [MOD p * q] := (h.pow_mul_modEq x).symm.trans (hpow.trans (h.pow_mul_modEq y))
  exact hmod.eq_of_lt_of_lt hx hy

/-- The signature of a blinded number is that of the number times the blinding factor. -/
theorem signed_blinded_modEq (h : Keys p q e d) (r m : Nat) : (m * r ^ e) ^ d ≡ m ^ d * r [MOD p * q] := by
  rw [mul_pow, ← pow_mul]
  exact (h.pow_mul_modEq r).mul_left _

/-- A blinded number, signed and multiplied by the inverse of the blinding factor, is the
signature of the number itself. -/
theorem unblind_modEq (h : Keys p q e d) {r inv : Nat} (hinv : r * inv ≡ 1 [MOD p * q]) (m : Nat) :
    (m * r ^ e) ^ d * inv ≡ m ^ d [MOD p * q] := by
  have hr := h.signed_blinded_modEq r m
  calc
    (m * r ^ e) ^ d * inv ≡ m ^ d * r * inv [MOD p * q] := hr.mul_right inv
    _ = m ^ d * (r * inv) := Nat.mul_assoc _ _ _
    _ ≡ m ^ d * 1 [MOD p * q] := hinv.mul_left _
    _ = m ^ d := Nat.mul_one _

/-- The same with a reduction after every step, as a program computes it: the result is a signature
of the number. -/
theorem unblind_pow_mod (h : Keys p q e d) {r inv m : Nat} (hinv : r * inv ≡ 1 [MOD p * q]) (hm : m < p * q) :
    ((m * (r ^ e % (p * q)) % (p * q)) ^ d % (p * q) * inv % (p * q)) ^ e % (p * q) = m := by
  have hblinded : m * (r ^ e % (p * q)) % (p * q) ≡ m * r ^ e [MOD p * q] :=
    (Nat.mod_modEq _ _).trans ((Nat.mod_modEq _ _).mul_left m)
  have hsigned : (m * (r ^ e % (p * q)) % (p * q)) ^ d % (p * q) * inv % (p * q) ≡ m ^ d [MOD p * q] :=
    calc
      (m * (r ^ e % (p * q)) % (p * q)) ^ d % (p * q) * inv % (p * q)
        ≡ (m * (r ^ e % (p * q)) % (p * q)) ^ d % (p * q) * inv [MOD p * q] := Nat.mod_modEq _ _
      _ ≡ (m * r ^ e) ^ d * inv [MOD p * q] := ((Nat.mod_modEq _ _).trans (hblinded.pow d)).mul_right inv
      _ ≡ m ^ d [MOD p * q] := h.unblind_modEq hinv m
  have hmod : _ ≡ m [MOD p * q] := (hsigned.pow e).trans (h.pow_pow_modEq m)
  rwa [Nat.ModEq, Nat.mod_eq_of_lt hm] at hmod

end Keys

end BitBlinder.Rsa
