import BitBlinder.PyList
import Mathlib.Data.Bool.Count

/-!
# `BitTorrent/bitfield.py`

A bit for each piece of a torrent and the number of those that are false. The field carries
its length and that count as facts, so no field with a wrong count can be built; copies are
the field itself.
-/

namespace BitBlinder

open Struct (Bytes)

set_option autoImplicit false
set_option maxRecDepth 2048

/-! ### The bits of a byte -/

namespace Bits

/-- `count` rounds of the loop of `_int_to_booleans`. -/
def booleans : Nat → Nat → List Bool
  | 0, _ => []
  | count + 1, x => (x &&& 0x80 != 0) :: booleans count (x <<< 1)

def intToBooleans (x : Nat) : List Bool := booleans 8 x

def lookup (c : UInt8) : List Bool := intToBooleans c.toNat

/-- `reverse_lookup_table[bits]`. -/
def reverseLookup (bits : List Bool) : PyExcept UInt8 :=
  match (List.range 256).find? fun i => intToBooleans i == bits with
  | some i => .ok (UInt8.ofNat i)
  | none => .error .keyError

/-- The number that a list of bits writes. -/
def value (bits : List Bool) : Nat := bits.foldl (fun acc bit => 2 * acc + bit.toNat) 0

@[simp] theorem length_intToBooleans (x : Nat) : (intToBooleans x).length = 8 := rfl

theorem value_intToBooleans : ∀ x < 256, value (intToBooleans x) = x := by decide

theorem intToBooleans_value_eight : ∀ a b c d e f g h : Bool,
    value [a, b, c, d, e, f, g, h] < 256 ∧
      intToBooleans (value [a, b, c, d, e, f, g, h]) = [a, b, c, d, e, f, g, h] := by decide

theorem intToBooleans_value {bits : List Bool} (h : bits.length = 8) :
    value bits < 256 ∧ intToBooleans (value bits) = bits := by
  match bits, h with
  | [a, b, c, d, e, f, g, h], _ => exact intToBooleans_value_eight a b c d e f g h

/-- The table finds the byte that a list of bits came from. -/
theorem reverseLookup_eq {bits : List Bool} (h : bits.length = 8) :
    reverseLookup bits = .ok (UInt8.ofNat (value bits)) := by
  obtain ⟨hlt, hbits⟩ := intToBooleans_value h
  have hfind : (List.range 256).find? (fun i => intToBooleans i == bits) = some (value bits) := by
    cases hfound : (List.range 256).find? fun i => intToBooleans i == bits with
    | none =>
      have hno := List.find?_eq_none.mp hfound (value bits) (List.mem_range.mpr hlt)
      exact absurd (beq_iff_eq.mpr hbits) hno
    | some i =>
      have hi : i < 256 := List.mem_range.mp (List.mem_of_find?_eq_some hfound)
      have htest : (intToBooleans i == bits) = true := List.find?_some (p := fun i => intToBooleans i == bits) hfound
      have hsame : intToBooleans i = bits := beq_iff_eq.mp htest
      rw [← hsame, value_intToBooleans i hi]
  unfold reverseLookup
  rw [hfind]

theorem lookup_value {bits : List Bool} (h : bits.length = 8) :
    lookup (UInt8.ofNat (value bits)) = bits := by
  obtain ⟨hlt, hbits⟩ := intToBooleans_value h
  unfold lookup
  rw [UInt8.toNat_ofNat', Nat.mod_eq_of_lt hlt, hbits]

theorem reverseLookup_lookup (c : UInt8) : reverseLookup (lookup c) = .ok c := by
  unfold lookup
  rw [reverseLookup_eq (length_intToBooleans _), value_intToBooleans _ c.toNat_lt, UInt8.ofNat_toNat]

theorem length_flatMap_lookup (bs : Bytes) : (bs.flatMap lookup).length = 8 * bs.length := by
  induction bs with
  | nil => rfl
  | cons c bs ih =>
    rw [List.flatMap_cons, List.length_append, ih, List.length_cons]
    change 8 + 8 * bs.length = 8 * (bs.length + 1)
    omega

end Bits

/-! ### The field -/

structure Bitfield (length : Nat) where
  array : List Bool
  numfalse : Int
  length_array : array.length = length
  counted : numfalse = (array.count false : Nat)

namespace Bitfield
variable {length : Nat}

/-- `negsum`, the length less the number of true bits. -/
def negsum (array : List Bool) : Int := array.length - (array.count true : Nat)

theorem negsum_eq (array : List Bool) : negsum array = (array.count false : Nat) := by
  unfold negsum
  have hsum := List.count_true_add_count_false array
  omega

def ofArray (array : List Bool) (h : array.length = length) : Bitfield length :=
  ⟨array, negsum array, h, negsum_eq array⟩

theorem ext_array {b c : Bitfield length} (h : b.array = c.array) : b = c := by
  have hnum : b.numfalse = c.numfalse := by rw [b.counted, c.counted, h]
  cases b
  cases c
  congr

/-- `Bitfield(length)`. -/
def empty (length : Nat) : Bitfield length := ofArray (List.replicate length false) List.length_replicate

def badLength : PyError := .valueError ""

theorem length_kept {bitstring : Bytes} {extra : Nat} (h : (extra : Int) = bitstring.length * 8 - length) :
    ((bitstring.flatMap Bits.lookup).take ((bitstring.flatMap Bits.lookup).length - extra)).length = length := by
  rw [List.length_take, Bits.length_flatMap_lookup]
  omega

/-- `Bitfield(length, bitstring)`. -/
def ofBitstring (length : Nat) (bitstring : Bytes) : PyExcept (Bitfield length) :=
  if h : 0 ≤ (bitstring.length * 8 - length : Int) ∧ (bitstring.length * 8 - length : Int) < 8 then
    let r := bitstring.flatMap Bits.lookup
    let extra := (bitstring.length * 8 - length : Int).toNat
    if r.drop (r.length - extra) ≠ List.replicate extra false then .error badLength
    else .ok (ofArray (r.take (r.length - extra)) (length_kept (Int.toNat_of_nonneg h.1)))
  else .error badLength

theorem lt_length (b : Bitfield length) (i : Fin length) : i.val < b.array.length :=
  Nat.lt_of_lt_of_eq i.isLt b.length_array.symm

/-- `field[index]`. -/
def getitem (b : Bitfield length) (i : Fin length) : Bool := b.array.get ⟨i.val, b.lt_length i⟩

theorem length_set (b : Bitfield length) (i : Fin length) (val : Bool) :
    (b.array.set i.val val).length = length := by rw [List.length_set, b.length_array]

theorem counted_set (b : Bitfield length) (i : Fin length) (val : Bool) :
    b.numfalse + ((b.getitem i).toNat - val.toNat) = ((b.array.set i.val val).count false : Nat) := by
  have hlt := b.lt_length i
  have hcount : (b.array.set i.val val).count false =
      b.array.count false - (if b.array[i.val] == false then 1 else 0) + (if val == false then 1 else 0) :=
    List.count_set hlt
  have hpos : b.array[i.val] = false → 0 < b.array.count false := fun h =>
    List.count_pos_iff.mpr (h ▸ List.getElem_mem hlt)
  have hget : b.getitem i = b.array[i.val] := rfl
  rw [b.counted, hcount, hget]
  cases hold : b.array[i.val] <;> cases val <;> simp
  · have := hpos hold
    omega
  · have := hpos hold
    omega

/-- `field[index] = val`, which keeps the count of the false bits. -/
def setitem (b : Bitfield length) (i : Fin length) (val : Bool) : Bitfield length :=
  ⟨b.array.set i.val val, b.numfalse + ((b.getitem i).toNat - val.toNat), b.length_set i val, b.counted_set i val⟩

def complete (b : Bitfield length) : Bool := b.numfalse == 0

/-- The groups of eight of a list of bits, the last one filled up. -/
def groups : List Bool → List (List Bool)
  | [] => []
  | a :: bits =>
    let group := (a :: bits).take 8
    (group ++ List.replicate (8 - group.length) false) :: groups ((a :: bits).drop 8)
termination_by bits => bits.length
decreasing_by
  rw [List.length_drop, List.length_cons]
  omega

def tostring (b : Bitfield length) : PyExcept Bytes := (groups b.array).mapM Bits.reverseLookup

/-! ### Single bits -/

variable {b c : Bitfield length} {i j : Fin length}

theorem getElem?_array (b : Bitfield length) (i : Fin length) : b.array[i.val]? = some (b.getitem i) :=
  List.getElem?_eq_getElem (b.lt_length i)

@[simp] theorem getitem_empty (i : Fin length) : (empty length).getitem i = false :=
  List.getElem_replicate _

theorem getitem_setitem (b : Bitfield length) (i j : Fin length) (val : Bool) :
    (b.setitem i val).getitem j = if j = i then val else b.getitem j := by
  have hget := getElem?_array (b.setitem i val) j
  change (b.array.set i.val val)[j.val]? = _ at hget
  rw [List.getElem?_set] at hget
  by_cases hji : j = i
  · subst hji
    rw [if_pos rfl, if_pos (b.lt_length j)] at hget
    rw [if_pos rfl]
    exact (Option.some.inj hget).symm
  · have hval : i.val ≠ j.val := fun h => hji (Fin.ext h.symm)
    rw [if_neg hval, getElem?_array] at hget
    rw [if_neg hji]
    exact (Option.some.inj hget).symm

/-- The count of the false bits is zero when every bit is true. -/
theorem complete_iff : b.complete = true ↔ ∀ i, b.getitem i = true := by
  have hcount : b.complete = true ↔ b.array.count false = 0 := by
    unfold complete
    rw [beq_iff_eq, b.counted, Int.natCast_eq_zero]
  rw [hcount, List.count_eq_zero]
  constructor
  · intro hno i
    have hmem : b.getitem i ∈ b.array := List.getElem_mem (b.lt_length i)
    cases hbit : b.getitem i with
    | true => rfl
    | false => exact absurd (hbit ▸ hmem) hno
  · intro hall hmem
    obtain ⟨k, hk⟩ := List.mem_iff_getElem?.mp hmem
    have hlt : k < length := b.length_array ▸ (List.getElem?_eq_some_iff.mp hk).1
    rw [getElem?_array b ⟨k, hlt⟩, hall] at hk
    exact Bool.false_ne_true (Option.some.inj hk).symm

/-! ### The field on the wire -/

/-- The bits of the string are those of the field and fewer than eight false ones. -/
structure Writes (b : Bitfield length) (bitstring : Bytes) : Prop where
  bits : bitstring.flatMap Bits.lookup = b.array ++ List.replicate (8 * bitstring.length - length) false
  fits : length ≤ 8 * bitstring.length
  tight : 8 * bitstring.length < length + 8

theorem flatten_groups (bits : List Bool) :
    (∀ group ∈ groups bits, group.length = 8) ∧ bits.length ≤ 8 * (groups bits).length ∧
      8 * (groups bits).length < bits.length + 8 ∧
      (groups bits).flatten = bits ++ List.replicate (8 * (groups bits).length - bits.length) false := by
  induction bits using groups.induct with
  | case1 =>
    rw [groups]
    exact ⟨fun _ h => absurd h List.not_mem_nil, by decide, by decide, rfl⟩
  | case2 a bits ih =>
    obtain ⟨heach, hfits, htight, hflat⟩ := ih
    have htake : ((a :: bits).take 8).length = min 8 (bits.length + 1) := List.length_take
    have hdrop : ((a :: bits).drop 8).length = bits.length + 1 - 8 := List.length_drop
    rw [hdrop] at hfits htight hflat
    rw [groups]
    refine ⟨?_, ?_, ?_, ?_⟩
    · intro g hg
      rcases List.mem_cons.mp hg with rfl | hg
      · rw [List.length_append, List.length_replicate, htake]
        omega
      · exact heach g hg
    · rw [List.length_cons, List.length_cons]
      omega
    · rw [List.length_cons, List.length_cons]
      omega
    · rw [List.flatten_cons, hflat, htake, List.length_cons, List.length_cons]
      by_cases hlong : 8 ≤ bits.length + 1
      · rw [Nat.min_eq_left hlong, Nat.sub_self, List.replicate_zero, List.append_nil, ← List.append_assoc,
          List.take_append_drop]
        congr 2
        omega
      · have hnil : (a :: bits).drop 8 = [] := List.drop_eq_nil_of_le (by rw [List.length_cons]; omega)
        have hall : (a :: bits).take 8 = a :: bits := List.take_of_length_le (by rw [List.length_cons]; omega)
        rw [hnil, hall, List.nil_append, List.append_assoc, List.replicate_append_replicate, groups]
        congr 2
        rw [List.length_nil]
        omega

theorem mapM_reverseLookup {gs : List (List Bool)} (h : ∀ g ∈ gs, g.length = 8) :
    gs.mapM Bits.reverseLookup = .ok (gs.map fun g => UInt8.ofNat (Bits.value g)) := by
  induction gs with
  | nil => rfl
  | cons g gs ih =>
    rw [List.mapM_cons, Bits.reverseLookup_eq (h g List.mem_cons_self),
      ih fun g' hg' => h g' (List.mem_cons_of_mem g hg')]
    rfl

theorem flatMap_lookup_map {gs : List (List Bool)} (h : ∀ g ∈ gs, g.length = 8) :
    (gs.map fun g => UInt8.ofNat (Bits.value g)).flatMap Bits.lookup = gs.flatten := by
  induction gs with
  | nil => rfl
  | cons g gs ih =>
    rw [List.map_cons, List.flatMap_cons, List.flatten_cons, Bits.lookup_value (h g List.mem_cons_self),
      ih fun g' hg' => h g' (List.mem_cons_of_mem g hg')]

theorem exists_writes (b : Bitfield length) : ∃ bitstring, b.tostring = .ok bitstring ∧ Writes b bitstring := by
  obtain ⟨heach, hfits, htight, hflat⟩ := flatten_groups b.array
  refine ⟨_, mapM_reverseLookup heach, ?_⟩
  rw [b.length_array] at hfits htight hflat
  constructor
  · rw [flatMap_lookup_map heach, hflat, List.length_map]
  · rwa [List.length_map]
  · rwa [List.length_map]

theorem Writes.unique {bs bs' : Bytes} (h : Writes b bs) (h' : Writes b bs') : bs = bs' := by
  have hlen : bs.length = bs'.length := by
    have := h.fits
    have := h.tight
    have := h'.fits
    have := h'.tight
    omega
  have hbits : bs.flatMap Bits.lookup = bs'.flatMap Bits.lookup := by rw [h.bits, h'.bits, hlen]
  clear h h'
  induction bs generalizing bs' with
  | nil => exact (List.length_eq_zero_iff.mp hlen.symm).symm
  | cons x bs ih =>
    cases bs' with
    | nil => exact absurd hlen (Nat.succ_ne_zero _)
    | cons y bs' =>
      rw [List.flatMap_cons, List.flatMap_cons] at hbits
      obtain ⟨hxy, hrest⟩ := List.append_inj hbits rfl
      have hread := Bits.reverseLookup_lookup x
      rw [hxy, Bits.reverseLookup_lookup y] at hread
      rw [Except.ok.inj hread, ih (Nat.succ.inj hlen) hrest]

theorem ofBitstring_eq_ok_iff {bs : Bytes} : ofBitstring length bs = .ok b ↔ Writes b bs := by
  have hall := Bits.length_flatMap_lookup bs
  unfold ofBitstring
  by_cases hlen : 0 ≤ (bs.length * 8 - length : Int) ∧ (bs.length * 8 - length : Int) < 8
  · have hextra : (bs.length * 8 - length : Int).toNat = 8 * bs.length - length := by omega
    have hkeep : (bs.flatMap Bits.lookup).length - (8 * bs.length - length) = length := by omega
    rw [dif_pos hlen]
    simp only [hextra, hkeep]
    constructor
    · intro hok
      split at hok
      · exact (PyExcept.error_ne_ok hok).elim
      · rename_i hpad
        have harray : (bs.flatMap Bits.lookup).take length = b.array := congrArg array (Except.ok.inj hok)
        refine ⟨?_, by omega, by omega⟩
        rw [← harray, ← not_not.mp hpad, List.take_append_drop]
    · intro hw
      have htake : (bs.flatMap Bits.lookup).take length = b.array := by
        rw [hw.bits, List.take_left' b.length_array]
      have hdrop : (bs.flatMap Bits.lookup).drop length = List.replicate (8 * bs.length - length) false := by
        rw [hw.bits, List.drop_left' b.length_array]
      rw [if_neg (not_not.mpr hdrop)]
      exact congrArg Except.ok (ext_array htake)
  · rw [dif_neg hlen]
    refine ⟨fun hbad => (PyExcept.error_ne_ok hbad).elim, fun hw => absurd ?_ hlen⟩
    have := hw.fits
    have := hw.tight
    omega

/-- A string is read as a field exactly when the field is written as that string, and every
field is written: what a peer sends as its bits is what the other one reads, and of all the
strings of the right length only those that some field is written as are accepted. -/
theorem ofBitstring_iff_tostring (b : Bitfield length) :
    (∃ bs, b.tostring = .ok bs) ∧ ∀ bs, ofBitstring length bs = .ok b ↔ b.tostring = .ok bs := by
  obtain ⟨written, hwritten, hw⟩ := exists_writes b
  refine ⟨⟨written, hwritten⟩, fun bs => ?_⟩
  rw [ofBitstring_eq_ok_iff, hwritten, Except.ok.injEq]
  constructor
  · intro h
    exact hw.unique h
  · rintro rfl
    exact hw

end Bitfield

end BitBlinder
