import BitBlinder.Struct

/-!
# Stream ciphers

A stream cipher has a state that goes one further with each byte, whatever the byte is, and
gives the byte that this one is added to. Encrypting and decrypting are the same then, and
a text may be taken in parts. RC4 is one; SHA-1, which its keys are made by, is here too.
-/

namespace BitBlinder

open Struct (Bytes packBE unpackBE)

set_option autoImplicit false

structure StreamCipher (κ : Type) where
  init : Bytes → κ
  next : κ → UInt8 × κ

namespace StreamCipher
variable {κ : Type} (c : StreamCipher κ)

def update : κ → Bytes → Bytes × κ
  | k, [] => ([], k)
  | k, b :: s => ((b ^^^ (c.next k).1) :: (update (c.next k).2 s).1, (update (c.next k).2 s).2)

variable {c} {k : κ}

@[simp] theorem update_nil : c.update k [] = ([], k) := rfl

@[simp] theorem update_length (s : Bytes) : (c.update k s).1.length = s.length := by
  induction s generalizing k with
  | nil => rfl
  | cons b s ih => simp [update, ih]

theorem update_append (s t : Bytes) :
    c.update k (s ++ t) =
      ((c.update k s).1 ++ (c.update (c.update k s).2 t).1, (c.update (c.update k s).2 t).2) := by
  induction s generalizing k with
  | nil => rfl
  | cons b s ih => simp only [List.cons_append, update, ih]

/-- The state goes on by the length alone. -/
theorem update_state {s t : Bytes} (h : s.length = t.length) : (c.update k s).2 = (c.update k t).2 := by
  induction s generalizing k t with
  | nil =>
    obtain rfl := List.length_eq_zero_iff.mp h.symm
    rfl
  | cons b s ih =>
    cases t with
    | nil => simp at h
    | cons b' t => exact ih (by simpa using h)

theorem update_update (s : Bytes) : (c.update k (c.update k s).1).1 = s := by
  induction s generalizing k with
  | nil => rfl
  | cons b s ih => simp only [update, ih, UInt8.xor_assoc, UInt8.xor_self, UInt8.xor_zero]

end StreamCipher

/-! ## RC4 -/

structure Rc4State where
  S : Vector UInt8 256
  i : UInt8
  j : UInt8

namespace Rc4

def swapped (S : Vector UInt8 256) (i j : UInt8) : Vector UInt8 256 :=
  (S.set i.toFin S[j.toFin]).set j.toFin S[i.toFin]

/-- The key schedule. -/
def schedule (key : Bytes) : Vector UInt8 256 :=
  ((List.range 256).foldl
    (fun (acc : Vector UInt8 256 × UInt8) n =>
      let i := UInt8.ofNat n
      let j := acc.2 + acc.1[i.toFin] + key.getD (n % key.length) 0
      (swapped acc.1 i j, j))
    (Vector.ofFn fun n : Fin 256 => UInt8.ofNat n.val, 0)).1

def next (s : Rc4State) : UInt8 × Rc4State :=
  let i := s.i + 1
  let j := s.j + s.S[i.toFin]
  let S := swapped s.S i j
  (S[(S[i.toFin] + S[j.toFin]).toFin], ⟨S, i, j⟩)

end Rc4

def rc4 : StreamCipher Rc4State where
  init key := ⟨Rc4.schedule key, 0, 0⟩
  next := Rc4.next

/-! ## SHA-1 -/

namespace Sha1

structure Words where
  a : UInt32
  b : UInt32
  c : UInt32
  d : UInt32
  e : UInt32

def rotl (x : UInt32) (n : UInt32) : UInt32 := (x <<< n) ||| (x >>> (32 - n))

def start : Words := ⟨0x67452301, 0xEFCDAB89, 0x98BADCFE, 0x10325476, 0xC3D2E1F0⟩

def padded (s : Bytes) : Bytes :=
  s ++ [0x80] ++ List.replicate ((119 - s.length % 64) % 64) 0 ++ packBE 8 (8 * s.length)

/-- The words of a block, the latest first. -/
def schedule (block : Bytes) : List UInt32 :=
  let first := (List.range 16).map fun n => UInt32.ofNat (unpackBE ((block.drop (4 * n)).take 4))
  (List.range 64).foldl
    (fun ws _ => rotl (ws.getD 2 0 ^^^ ws.getD 7 0 ^^^ ws.getD 13 0 ^^^ ws.getD 15 0) 1 :: ws) first.reverse

def round (w : Words) (t : Nat) (x : UInt32) : Words :=
  let (f, k) :=
    if t < 20 then ((w.b &&& w.c) ||| (~~~w.b &&& w.d), (0x5A827999 : UInt32))
    else if t < 40 then (w.b ^^^ w.c ^^^ w.d, 0x6ED9EBA1)
    else if t < 60 then ((w.b &&& w.c) ||| (w.b &&& w.d) ||| (w.c &&& w.d), 0x8F1BBCDC)
    else (w.b ^^^ w.c ^^^ w.d, 0xCA62C1D6)
  ⟨rotl w.a 5 + f + w.e + k + x, w.a, rotl w.b 30, w.c, w.d⟩

def compress (h : Words) (block : Bytes) : Words :=
  let w := (schedule block).reverse.zipIdx.foldl (fun w p => round w p.2 p.1) h
  ⟨h.a + w.a, h.b + w.b, h.c + w.c, h.d + w.d, h.e + w.e⟩

def compressAll : Nat → Words → Bytes → Words
  | 0, h, _ => h
  | n + 1, h, s => compressAll n (compress h (s.take 64)) (s.drop 64)

def Words.digest (w : Words) : Bytes := [w.a, w.b, w.c, w.d, w.e].flatMap fun x => packBE 4 x.toNat

end Sha1

def sha1 (s : Bytes) : Bytes :=
  (Sha1.compressAll ((Sha1.padded s).length / 64) Sha1.start (Sha1.padded s)).digest

theorem sha1_length (s : Bytes) : (sha1 s).length = 20 := by
  simp [sha1, Sha1.Words.digest]

end BitBlinder
