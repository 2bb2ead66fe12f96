import Mathlib.Algebra.Order.Ring.Int
import Mathlib.Data.List.Induction

/-!
# Network-order byte strings

The standard-size, big-endian part of Python's `struct`: unsigned integers of
one, two and four bytes and fixed-length strings. A format is a list of field
codes; `pack` fails where `struct.error` is raised, and `unpack` reads a string
whose length is already known to be `calcsize`.
-/

namespace BitBlinder.Struct

set_option autoImplicit false

abbrev Bytes := List UInt8

/-- The low `w` bytes of `x`, most significant first. -/
def packBE : Nat → Nat → Bytes
  | 0, _ => []
  | w + 1, x => packBE w (x / 256) ++ [UInt8.ofNat (x % 256)]

def unpackBE (bs : Bytes) : Nat := bs.foldl (fun acc b => acc * 256 + b.toNat) 0

@[simp] theorem packBE_length (w x : Nat) : (packBE w x).length = w := by
  induction w generalizing x with
  | zero => rfl
  | succ w ih => simp [packBE, ih]

@[simp] theorem unpackBE_nil : unpackBE [] = 0 := rfl

@[simp] theorem unpackBE_append_singleton (bs : Bytes) (b : UInt8) :
    unpackBE (bs ++ [b]) = unpackBE bs * 256 + b.toNat := by
  simp [unpackBE]

theorem unpackBE_packBE (w x : Nat) (hx : x < 256 ^ w) : unpackBE (packBE w x) = x := by
  induction w generalizing x with
  | zero =>
    have hzero : x = 0 := by simpa using hx
    simp [packBE, hzero]
  | succ w ih =>
    have hdiv : x / 256 < 256 ^ w := by
      apply Nat.div_lt_of_lt_mul
      rwa [Nat.pow_succ, Nat.mul_comm] at hx
    have hlow : (UInt8.ofNat (x % 256)).toNat = x % 256 := by simp
    rw [packBE, unpackBE_append_singleton, ih _ hdiv, hlow]
    omega

theorem unpackBE_append (bs cs : Bytes) :
    unpackBE (bs ++ cs) = unpackBE bs * 256 ^ cs.length + unpackBE cs := by
  induction cs using List.reverseRecOn with
  | nil => simp
  | append_singleton cs c ih =>
    rw [← List.append_assoc, unpackBE_append_singleton, unpackBE_append_singleton, ih,
      List.length_append, List.length_singleton, Nat.pow_succ, Nat.add_mul, Nat.mul_assoc]
    omega

theorem unpackBE_zero_cons (bs : Bytes) : unpackBE (0 :: bs) = unpackBE bs := by
  simp [unpackBE]

theorem unpackBE_lt (bs : Bytes) : unpackBE bs < 256 ^ bs.length := by
  induction bs using List.reverseRecOn with
  | nil => simp
  | append_singleton bs b ih =>
    rw [unpackBE_append_singleton, List.length_append, List.length_singleton, Nat.pow_succ]
    have hb : b.toNat < 256 := b.toNat_lt
    omega

theorem packBE_unpackBE (bs : Bytes) : packBE bs.length (unpackBE bs) = bs := by
  induction bs using List.reverseRecOn with
  | nil => rfl
  | append_singleton bs b ih =>
    have hb : b.toNat < 256 := b.toNat_lt
    have hdiv : (unpackBE bs * 256 + b.toNat) / 256 = unpackBE bs := by omega
    have hmod : (unpackBE bs * 256 + b.toNat) % 256 = b.toNat := by omega
    rw [unpackBE_append_singleton, List.length_append, List.length_singleton, packBE, hdiv, hmod, ih]
    simp

theorem unpackBE_packBE_mod (w x : Nat) : unpackBE (packBE w x) = x % 256 ^ w := by
  induction w generalizing x with
  | zero => simp [packBE, Nat.mod_one]
  | succ w ih =>
    have hlow : (UInt8.ofNat (x % 256)).toNat = x % 256 := by simp
    rw [packBE, unpackBE_append_singleton, ih, hlow, Nat.pow_succ, Nat.mul_comm (256 ^ w), Nat.mod_mul]
    omega

/-- The last bytes of a number are its low bytes. -/
theorem drop_packBE (k w x : Nat) : (packBE (k + w) x).drop k = packBE w x := by
  induction w generalizing x with
  | zero => exact List.drop_of_length_le (Nat.le_of_eq (packBE_length _ _))
  | succ w ih =>
    rw [← Nat.add_assoc, packBE, List.drop_append_of_le_length, ih, packBE]
    rw [packBE_length]
    exact Nat.le_add_right k w

theorem packBE_eq_iff {w x : Nat} {bs : Bytes} (h : bs.length = w) :
    packBE w x = bs ↔ x % 256 ^ w = unpackBE bs := by
  constructor
  · intro heq
    rw [← heq, unpackBE_packBE_mod]
  · intro heq
    rw [← packBE_unpackBE bs, ← packBE_unpackBE (packBE w x), packBE_length, unpackBE_packBE_mod, heq, h]

inductive Fmt where
  | B | H | I | L
  | s (n : Nat)

namespace Fmt

def size : Fmt → Nat
  | B => 1
  | H => 2
  | I => 4
  | L => 4
  | s n => n

def text : Fmt → String
  | B => "B"
  | H => "H"
  | I => "I"
  | L => "L"
  | s n => toString n ++ "s"

@[reducible] def Val : Fmt → Type
  | B => Nat
  | H => Nat
  | I => Nat
  | L => Nat
  | s _ => Bytes

def packUInt (w x : Nat) : Option Bytes :=
  if x < 256 ^ w then some (packBE w x) else none

/-- A string field is cut or filled with zero bytes to its length. -/
def packStr (n : Nat) (bs : Bytes) : Bytes :=
  bs.take n ++ List.replicate (n - bs.length) 0

def pack : (f : Fmt) → f.Val → Option Bytes
  | B, x => packUInt 1 x
  | H, x => packUInt 2 x
  | I, x => packUInt 4 x
  | L, x => packUInt 4 x
  | s n, bs => some (packStr n bs)

def unpack : (f : Fmt) → Bytes → f.Val
  | B, bs => unpackBE bs
  | H, bs => unpackBE bs
  | I, bs => unpackBE bs
  | L, bs => unpackBE bs
  | s _, bs => bs

/-- The values a field carries without loss. -/
def Fits : (f : Fmt) → f.Val → Prop
  | B, x => x < 256 ^ 1
  | H, x => x < 256 ^ 2
  | I, x => x < 256 ^ 4
  | L, x => x < 256 ^ 4
  | s n, bs => bs.length = n

@[simp] theorem packStr_length (n : Nat) (bs : Bytes) : (packStr n bs).length = n := by
  simp [packStr]
  omega

theorem packUInt_eq_some {w x : Nat} {bs : Bytes} (h : packUInt w x = some bs) :
    bs.length = w ∧ unpackBE bs = x := by
  unfold packUInt at h
  split at h
  · rename_i hx
    have hbs := Option.some.inj h
    subst hbs
    exact ⟨packBE_length w x, unpackBE_packBE w x hx⟩
  · simp at h

theorem packUInt_roundtrip {w x : Nat} (hx : x < 256 ^ w) :
    ∃ bs, packUInt w x = some bs ∧ bs.length = w ∧ unpackBE bs = x :=
  ⟨packBE w x, by simp [packUInt, hx], packBE_length w x, unpackBE_packBE w x hx⟩

theorem pack_roundtrip (f : Fmt) (x : f.Val) (hx : f.Fits x) :
    ∃ bs, f.pack x = some bs ∧ bs.length = f.size ∧ f.unpack bs = x := by
  cases f with
  | B => exact packUInt_roundtrip hx
  | H => exact packUInt_roundtrip hx
  | I => exact packUInt_roundtrip hx
  | L => exact packUInt_roundtrip hx
  | s n =>
    have hn : List.length x = n := hx
    exact ⟨x, by simp [pack, packStr, ← hn], hn, rfl⟩

end Fmt

@[reducible] def Vals : List Fmt → Type
  | [] => Unit
  | f :: fs => f.Val × Vals fs

def calcsize (fs : List Fmt) : Nat := (fs.map Fmt.size).sum

def formatText (fs : List Fmt) : String := "!" ++ String.join (fs.map Fmt.text)

def pack : (fs : List Fmt) → Vals fs → Option Bytes
  | [], _ => some []
  | f :: fs, (x, xs) => do
    let head ← f.pack x
    let tail ← pack fs xs
    return head ++ tail

def unpack : (fs : List Fmt) → Bytes → Vals fs
  | [], _ => ()
  | f :: fs, bs => (f.unpack (bs.take f.size), unpack fs (bs.drop f.size))

def Fits : (fs : List Fmt) → Vals fs → Prop
  | [], _ => True
  | f :: fs, (x, xs) => f.Fits x ∧ Fits fs xs

/-- Packing values that fit succeeds, has the computed size, and is undone by `unpack`. -/
theorem pack_roundtrip (fs : List Fmt) (xs : Vals fs) (h : Fits fs xs) :
    ∃ bs, pack fs xs = some bs ∧ bs.length = calcsize fs ∧ unpack fs bs = xs := by
  induction fs with
  | nil => exact ⟨[], rfl, rfl, rfl⟩
  | cons f fs ih =>
    obtain ⟨x, xs⟩ := xs
    obtain ⟨hx, hxs⟩ := h
    obtain ⟨head, hpack, hlen, hread⟩ := f.pack_roundtrip x hx
    obtain ⟨tail, htail, htlen, htread⟩ := ih xs hxs
    refine ⟨head ++ tail, by simp [pack, hpack, htail], ?_, ?_⟩
    · simp [calcsize, hlen] at htlen ⊢
      exact htlen
    · simp [unpack, ← hlen, hread, htread]

theorem packStr_of_length {n : Nat} {bs : Bytes} (h : bs.length = n) : Fmt.packStr n bs = bs := by
  unfold Fmt.packStr
  rw [h, Nat.sub_self, List.take_of_length_le h.le, List.replicate_zero, List.append_nil]

namespace Fmt

/-- A number is in the range of its field; strings are cut or filled. -/
def InRange : (f : Fmt) → f.Val → Prop
  | B, x => x < 256 ^ 1
  | H, x => x < 256 ^ 2
  | I, x => x < 256 ^ 4
  | L, x => x < 256 ^ 4
  | s _, _ => True

def packed : (f : Fmt) → f.Val → Bytes
  | B, x => packBE 1 x
  | H, x => packBE 2 x
  | I, x => packBE 4 x
  | L, x => packBE 4 x
  | s n, bs => packStr n bs

theorem packUInt_eq_some_iff {w x : Nat} {bs : Bytes} :
    packUInt w x = some bs ↔ x < 256 ^ w ∧ packBE w x = bs := by
  simp [packUInt, Option.ite_none_right_eq_some]

theorem pack_eq_some_iff (f : Fmt) (x : f.Val) (bs : Bytes) :
    f.pack x = some bs ↔ f.InRange x ∧ f.packed x = bs := by
  cases f with
  | B => exact packUInt_eq_some_iff
  | H => exact packUInt_eq_some_iff
  | I => exact packUInt_eq_some_iff
  | L => exact packUInt_eq_some_iff
  | s n => simp [pack, InRange, packed]

theorem packed_length (f : Fmt) (x : f.Val) : (f.packed x).length = f.size := by
  cases f with
  | B => exact packBE_length 1 x
  | H => exact packBE_length 2 x
  | I => exact packBE_length 4 x
  | L => exact packBE_length 4 x
  | s n => exact packStr_length n x

theorem packed_unpack (f : Fmt) {bs : Bytes} (h : bs.length = f.size) : f.packed (f.unpack bs) = bs := by
  cases f with
  | B => exact (congrArg (packBE · (unpackBE bs)) h.symm).trans (packBE_unpackBE bs)
  | H => exact (congrArg (packBE · (unpackBE bs)) h.symm).trans (packBE_unpackBE bs)
  | I => exact (congrArg (packBE · (unpackBE bs)) h.symm).trans (packBE_unpackBE bs)
  | L => exact (congrArg (packBE · (unpackBE bs)) h.symm).trans (packBE_unpackBE bs)
  | s n => exact packStr_of_length h

end Fmt

def InRange : (fs : List Fmt) → Vals fs → Prop
  | [], _ => True
  | f :: fs, (x, xs) => f.InRange x ∧ InRange fs xs

/-- The packed string of values that are in range. -/
def packed : (fs : List Fmt) → Vals fs → Bytes
  | [], _ => []
  | f :: fs, (x, xs) => f.packed x ++ packed fs xs

theorem pack_eq_some_iff (fs : List Fmt) (xs : Vals fs) (bs : Bytes) :
    pack fs xs = some bs ↔ InRange fs xs ∧ packed fs xs = bs := by
  induction fs generalizing bs with
  | nil => simp [pack, InRange, packed]
  | cons f fs ih =>
    obtain ⟨x, xs⟩ := xs
    have hcons : pack (f :: fs) (x, xs) = some bs ↔
        ∃ head, f.pack x = some head ∧ ∃ tail, pack fs xs = some tail ∧ head ++ tail = bs := by
      simp [pack, Option.bind_eq_some_iff]
    rw [hcons]
    simp only [Fmt.pack_eq_some_iff, ih, InRange, packed]
    constructor
    · rintro ⟨head, ⟨hx, rfl⟩, tail, ⟨hxs, rfl⟩, rfl⟩
      exact ⟨⟨hx, hxs⟩, rfl⟩
    · rintro ⟨⟨hx, hxs⟩, rfl⟩
      exact ⟨_, ⟨hx, rfl⟩, _, ⟨hxs, rfl⟩, rfl⟩

/-- A string of the right length is what its fields are packed to. -/
theorem packed_unpack (fs : List Fmt) {bs : Bytes} (h : bs.length = calcsize fs) : packed fs (unpack fs bs) = bs := by
  induction fs generalizing bs with
  | nil => exact (List.length_eq_zero_iff.mp h).symm
  | cons f fs ih =>
    have hsize : calcsize (f :: fs) = f.size + calcsize fs := rfl
    rw [hsize] at h
    have htake : (bs.take f.size).length = f.size := by
      rw [List.length_take]
      omega
    have hdrop : (bs.drop f.size).length = calcsize fs := by
      rw [List.length_drop]
      omega
    have hfield : f.packed (f.unpack (bs.take f.size)) = bs.take f.size := f.packed_unpack htake
    unfold packed unpack
    rw [hfield, ih hdrop, List.take_append_drop]

theorem pack_isSome_iff (fs : List Fmt) (xs : Vals fs) : (pack fs xs).isSome ↔ InRange fs xs := by
  rw [Option.isSome_iff_exists]
  constructor
  · rintro ⟨bs, hpack⟩
    exact ((pack_eq_some_iff fs xs bs).mp hpack).1
  · intro h
    exact ⟨_, (pack_eq_some_iff fs xs _).mpr ⟨h, rfl⟩⟩

theorem unpackBE_take_lt (w : Nat) (bs : Bytes) : unpackBE (bs.take w) < 256 ^ w :=
  Nat.lt_of_lt_of_le (unpackBE_lt _) (Nat.pow_le_pow_right (by decide) (List.length_take_le w bs))

theorem inRange_unpack (fs : List Fmt) (bs : Bytes) : InRange fs (unpack fs bs) := by
  induction fs generalizing bs with
  | nil => trivial
  | cons f fs ih =>
    refine ⟨?_, ih _⟩
    cases f with
    | B => exact unpackBE_take_lt 1 bs
    | H => exact unpackBE_take_lt 2 bs
    | I => exact unpackBE_take_lt 4 bs
    | L => exact unpackBE_take_lt 4 bs
    | s n => trivial

theorem packed_length (fs : List Fmt) (xs : Vals fs) : (packed fs xs).length = calcsize fs := by
  induction fs with
  | nil => rfl
  | cons f fs ih =>
    have htail := ih xs.2
    simp only [packed, List.length_append, Fmt.packed_length, htail]
    simp [calcsize]

end BitBlinder.Struct
