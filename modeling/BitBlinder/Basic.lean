import BitBlinder.Struct

/-!
# The message helpers of `common/utils/Basic.py`

Readers return the value and the unread rest of the message, or the exception
that leaves the caller. Longs are natural numbers: no caller converts a
negative one.
-/

namespace BitBlinder

set_option autoImplicit false

open Struct

inductive PyError where
  | assertionError (msg : String)
  | valueError (msg : String)
  | exception (msg : String)
  | coinValidationError (msg : String)
  | insufficientACoins (msg : String)
  | structError
  | keyError
  | indexError
  | nameError
  | attributeError
  | zeroDivisionError
  | rsaError
  | torCtlClosed
  | typeError
  deriving DecidableEq

abbrev PyExcept := Except PyError

namespace PyExcept
variable {α β : Type}

@[simp] theorem ok_bind (a : α) (f : α → PyExcept β) :
    (Except.ok a >>= f : PyExcept β) = f a := rfl

@[simp] theorem error_bind (e : PyError) (f : α → PyExcept β) :
    (Except.error e >>= f : PyExcept β) = .error e := rfl

@[simp] theorem pure_eq (a : α) : (pure a : PyExcept α) = .ok a := rfl

@[simp] theorem throw_eq (e : PyError) : (throw e : PyExcept α) = .error e := rfl

theorem bind_eq_ok {x : PyExcept α} {f : α → PyExcept β} {b : β} (h : x >>= f = .ok b) :
    ∃ a, x = .ok a ∧ f a = .ok b := by
  cases x with
  | error e => simp at h
  | ok a => exact ⟨a, rfl, h⟩

end PyExcept

namespace Basic

def readMessage (format : List Fmt) (msg : Bytes) : PyExcept (Vals format × Bytes) :=
  if calcsize format ≤ msg.length then
    .ok (unpack format (msg.take (calcsize format)), msg.drop (calcsize format))
  else
    .error (.assertionError ("Message was not long enough to unpack " ++ formatText format))

/-- One field read by a format of its own. -/
def readField (f : Fmt) (msg : Bytes) : PyExcept (f.Val × Bytes) := do
  let (vals, msg) ← readMessage [f] msg
  return (vals.1, msg)

def readByte (msg : Bytes) : PyExcept (Nat × Bytes) := readField .B msg

def readShort (msg : Bytes) : PyExcept (Nat × Bytes) := readField .H msg

def readInt (msg : Bytes) : PyExcept (Nat × Bytes) := readField .I msg

def readLong (msg : Bytes) : PyExcept (Nat × Bytes) := readField .L msg

/-- `read_hexid`, with the twenty raw bytes in place of their hexadecimal text. -/
def readHexid (msg : Bytes) : PyExcept (Bytes × Bytes) := readField (.s 20) msg

def readLenstr (msg : Bytes) : PyExcept (Bytes × Bytes) := do
  let (msgLen, msg) ← readInt msg
  readField (.s msgLen) msg

/-- `struct.pack` as called from Python code: out-of-range values raise. -/
def structPack (format : List Fmt) (vals : Vals format) : PyExcept Bytes :=
  match pack format vals with
  | some bs => .ok bs
  | none => .error .structError

def writeField (f : Fmt) (x : f.Val) : PyExcept Bytes := structPack [f] (x, ())

def writeByte (x : Nat) : PyExcept Bytes := writeField .B x

def writeShort (x : Nat) : PyExcept Bytes := writeField .H x

def writeInt (x : Nat) : PyExcept Bytes := writeField .I x

def writeLong (x : Nat) : PyExcept Bytes := writeField .L x

def writeHexid (hexId : Bytes) : PyExcept Bytes := writeField (.s 20) hexId

def writeLenstr (msg : Bytes) : PyExcept Bytes :=
  structPack [.I, .s msg.length] (msg.length, msg, ())

/-- A possibly negative Python integer given to an unsigned field. -/
def toUnsigned (x : Int) : PyExcept Nat :=
  if 0 ≤ x then .ok x.toNat else .error .structError

def gcd (a b : Nat) : Nat :=
  if 0 < b then gcd b (a % b) else a
termination_by b
decreasing_by exact Nat.mod_lt a ‹_›

/-- Four bytes at a time, `acc << 32` plus the next word. -/
def accumulateWords : Nat → Nat → Bytes → Nat
  | 0, acc, _ => acc
  | k + 1, acc, data => accumulateWords k (acc * 2 ^ 32 + unpackBE (data.take 4)) (data.drop 4)

def bytesToLong (data : Bytes) : Nat :=
  let extra := if data.length % 4 = 0 then 0 else 4 - data.length % 4
  accumulateWords ((data.length + extra) / 4) 0 (List.replicate extra 0 ++ data)

/-- The words of `data`, most significant first; `fuel` bounds their number. -/
def longWords : Nat → Nat → Bytes → Bytes
  | 0, _, acc => acc
  | fuel + 1, data, acc =>
    if 0 < data then longWords fuel (data / 2 ^ 32) (packBE 4 (data % 2 ^ 32) ++ acc) else acc

/-- The minimal big-endian string of `data`; zero has one byte. -/
def longToBytesMin (data : Nat) : Bytes :=
  match (longWords (data.log2 / 32 + 1) data []).dropWhile (· = 0) with
  | [] => [0]
  | bs => bs

def longToBytes (data dataLen : Nat) : PyExcept Bytes :=
  let newStr := longToBytesMin data
  if dataLen < newStr.length then
    .error (.exception ("the length of the string: " ++ toString newStr.length ++
      " is bigger than dataLen: " ++ toString dataLen))
  else
    .ok (List.replicate (dataLen - newStr.length) 0 ++ newStr)

theorem gcd_eq (a b : Nat) : gcd a b = Nat.gcd a b := by
  fun_induction gcd a b with
  | case1 a b hb ih => rw [ih, Nat.gcd_comm a b, Nat.gcd_rec b a, Nat.gcd_comm]
  | case2 a b hb =>
    have hzero : b = 0 := by omega
    rw [hzero, Nat.gcd_zero_right]

theorem unpackBE_longWords (fuel data : Nat) (acc : Bytes) (h : data < 2 ^ (32 * fuel)) :
    unpackBE (longWords fuel data acc) = data * 256 ^ acc.length + unpackBE acc := by
  induction fuel generalizing data acc with
  | zero =>
    have hzero : data = 0 := by simpa using h
    subst hzero
    simp [longWords]
  | succ fuel ih =>
    unfold longWords
    split
    · have hword : data % 2 ^ 32 < 256 ^ 4 := Nat.mod_lt _ (by decide)
      have hquot : data / 2 ^ 32 < 2 ^ (32 * fuel) := by
        apply Nat.div_lt_of_lt_mul
        rwa [← Nat.pow_add, Nat.add_comm, ← Nat.mul_succ]
      have hsplit : data = data / 2 ^ 32 * 2 ^ 32 + data % 2 ^ 32 := by omega
      have hpow : (256 : Nat) ^ 4 = 2 ^ 32 := by decide
      rw [ih _ _ hquot, unpackBE_append, unpackBE_packBE 4 _ hword, List.length_append, packBE_length,
        Nat.pow_add]
      calc
        data / 2 ^ 32 * (256 ^ 4 * 256 ^ acc.length) + (data % 2 ^ 32 * 256 ^ acc.length + unpackBE acc)
          = (data / 2 ^ 32 * 2 ^ 32 + data % 2 ^ 32) * 256 ^ acc.length + unpackBE acc := by
            rw [hpow, Nat.add_mul, Nat.mul_assoc, Nat.add_assoc]
        _ = data * 256 ^ acc.length + unpackBE acc := by rw [← hsplit]
    · rename_i hpos
      have hzero : data = 0 := by omega
      simp [hzero]

/-- Any fuel past the number of words gives the same words: the loop over `data` ends. -/
theorem longWords_fuel (fuel k data : Nat) (acc : Bytes) (h : data < 2 ^ (32 * fuel)) :
    longWords (fuel + k) data acc = longWords fuel data acc := by
  induction fuel generalizing data acc with
  | zero =>
    have hzero : data = 0 := by simpa using h
    subst hzero
    cases k <;> simp [longWords]
  | succ fuel ih =>
    have hquot : data / 2 ^ 32 < 2 ^ (32 * fuel) := by
      apply Nat.div_lt_of_lt_mul
      rwa [← Nat.pow_add, Nat.add_comm, ← Nat.mul_succ]
    rw [Nat.add_right_comm, longWords, longWords, ih _ _ hquot]

theorem unpackBE_dropWhile_zero (bs : Bytes) : unpackBE (bs.dropWhile (· = 0)) = unpackBE bs := by
  induction bs with
  | nil => rfl
  | cons b bs ih =>
    by_cases hb : b = 0
    · subst hb
      rw [List.dropWhile_cons_of_pos (by simp), ih, unpackBE_zero_cons]
    · rw [List.dropWhile_cons_of_neg (by simpa using hb)]

theorem unpackBE_longToBytesMin (data : Nat) : unpackBE (longToBytesMin data) = data := by
  have hlt : data < 2 ^ (32 * (data.log2 / 32 + 1)) := by
    refine Nat.lt_of_lt_of_le Nat.lt_log2_self (Nat.pow_le_pow_right (by decide) ?_)
    omega
  have hwords := unpackBE_longWords (data.log2 / 32 + 1) data [] hlt
  rw [← unpackBE_dropWhile_zero] at hwords
  simp only [List.length_nil, Nat.pow_zero, Nat.mul_one, unpackBE_nil, Nat.add_zero] at hwords
  unfold longToBytesMin
  split
  · rename_i hnil
    rw [hnil, unpackBE_nil] at hwords
    rw [← hwords]
    rfl
  · exact hwords

theorem unpackBE_replicate_zero_append (n : Nat) (bs : Bytes) :
    unpackBE (List.replicate n 0 ++ bs) = unpackBE bs := by
  induction n with
  | zero => rfl
  | succ n ih => rw [List.replicate_succ, List.cons_append, unpackBE_zero_cons, ih]

/-- A long is the big-endian value of its string. -/
theorem unpackBE_longToBytes {data dataLen : Nat} {bs : Bytes} (h : longToBytes data dataLen = .ok bs) :
    unpackBE bs = data := by
  unfold longToBytes at h
  dsimp only at h
  split at h
  · cases h
  · cases h
    rw [unpackBE_replicate_zero_append]
    exact unpackBE_longToBytesMin data

theorem length_longToBytes {data dataLen : Nat} {bs : Bytes} (h : longToBytes data dataLen = .ok bs) :
    bs.length = dataLen := by
  unfold longToBytes at h
  dsimp only at h
  split at h
  · cases h
  · cases h
    rw [List.length_append, List.length_replicate]
    omega

theorem pow_le_unpackBE_cons {b : UInt8} (hb : b ≠ 0) (bs : Bytes) :
    256 ^ bs.length ≤ unpackBE (b :: bs) := by
  have hpos : 1 ≤ b.toNat := by
    have hne : b.toNat ≠ 0 := fun h => hb (UInt8.toNat_inj.mp h)
    omega
  have happend := unpackBE_append [b] bs
  have hone : unpackBE [b] = b.toNat := by simp [unpackBE]
  rw [List.singleton_append, hone] at happend
  rw [happend]
  calc
    256 ^ bs.length = 1 * 256 ^ bs.length := (Nat.one_mul _).symm
    _ ≤ b.toNat * 256 ^ bs.length := Nat.mul_le_mul_right _ hpos
    _ ≤ b.toNat * 256 ^ bs.length + unpackBE bs := Nat.le_add_right _ _

theorem longToBytesMin_length_le {data k : Nat} (hk : 0 < k) (h : data < 256 ^ k) :
    (longToBytesMin data).length ≤ k := by
  have hvalue := unpackBE_longToBytesMin data
  unfold longToBytesMin at hvalue ⊢
  split
  · exact hk
  · rename_i bs hne
    cases hbs : (longWords (data.log2 / 32 + 1) data []).dropWhile (· = 0) with
    | nil => exact absurd hbs hne
    | cons b rest =>
      rw [hbs] at hvalue
      dsimp only at hvalue
      have hb : b ≠ 0 := by
        intro hzero
        have hhead := List.head?_dropWhile_not (· = 0) (longWords (data.log2 / 32 + 1) data [])
        simp [hbs, hzero] at hhead
      have hlow := pow_le_unpackBE_cons hb rest
      rw [hvalue] at hlow
      have hlt : 256 ^ rest.length < 256 ^ k := Nat.lt_of_le_of_lt hlow h
      exact (Nat.pow_lt_pow_iff_right (by decide)).mp hlt

theorem longToBytes_of_lt {data dataLen : Nat} (hpos : 0 < dataLen) (h : data < 256 ^ dataLen) :
    ∃ bs, longToBytes data dataLen = .ok bs := by
  unfold longToBytes
  dsimp only
  rw [if_neg (Nat.not_lt.mpr (longToBytesMin_length_le hpos h))]
  exact ⟨_, rfl⟩

theorem longToBytes_eq {data dataLen : Nat} (hpos : 0 < dataLen) (h : data < 256 ^ dataLen) :
    longToBytes data dataLen = .ok (packBE dataLen data) := by
  obtain ⟨bs, hbs⟩ := longToBytes_of_lt hpos h
  rw [hbs, ← length_longToBytes hbs, ← unpackBE_longToBytes hbs, packBE_unpackBE]

theorem accumulateWords_eq (k acc : Nat) {data : Bytes} (h : data.length = 4 * k) :
    accumulateWords k acc data = acc * 256 ^ data.length + unpackBE data := by
  induction k generalizing acc data with
  | zero =>
    rw [List.length_eq_zero_iff.mp h]
    simp [accumulateWords]
  | succ k ih =>
    have hrest : (data.drop 4).length = 4 * k := by
      rw [List.length_drop, h]
      omega
    have hpow : (256 : Nat) ^ 4 = 2 ^ 32 := by decide
    have hlength : data.length = 4 + (data.drop 4).length := by omega
    have hsplit := unpackBE_append (data.take 4) (data.drop 4)
    rw [List.take_append_drop] at hsplit
    rw [accumulateWords, ih _ hrest, hsplit, hlength, Nat.pow_add, hpow, Nat.add_mul, Nat.mul_assoc,
      Nat.add_assoc]

theorem bytesToLong_eq (data : Bytes) : bytesToLong data = unpackBE data := by
  unfold bytesToLong
  dsimp only
  rw [accumulateWords_eq, Nat.zero_mul, Nat.zero_add, unpackBE_replicate_zero_append]
  rw [List.length_append, List.length_replicate]
  split <;> omega

theorem longToBytes_bytesToLong {s : Bytes} (hs : s ≠ []) :
    longToBytes (bytesToLong s) s.length = .ok s := by
  rw [bytesToLong_eq, longToBytes_eq (List.length_pos_iff.mpr hs) (unpackBE_lt s), packBE_unpackBE]

/-- What is written is below the bound its width gives. -/
theorem lt_of_longToBytes {data dataLen : Nat} {bs : Bytes}
    (h : longToBytes data dataLen = .ok bs) : data < 256 ^ dataLen := by
  have hlt := unpackBE_lt bs
  rwa [unpackBE_longToBytes h, length_longToBytes h] at hlt

theorem longToBytes_raises_iff {data dataLen : Nat} (hpos : 0 < dataLen) :
    (∃ e, longToBytes data dataLen = .error e) ↔ 256 ^ dataLen ≤ data := by
  constructor
  · rintro ⟨e, he⟩
    by_contra hlt
    obtain ⟨bs, hbs⟩ := longToBytes_of_lt hpos (Nat.lt_of_not_le hlt)
    rw [hbs] at he
    cases he
  · intro hle
    cases hres : longToBytes data dataLen with
    | error e => exact ⟨e, rfl⟩
    | ok bs => exact absurd (lt_of_longToBytes hres) (Nat.not_lt.mpr hle)

/-- A width writes exactly the numbers it has room for, and each of its strings is written. -/
theorem longToBytes_exact :
    (∀ s : Bytes, s ≠ [] → longToBytes (bytesToLong s) s.length = .ok s) ∧
      ∀ data dataLen : Nat, 1 ≤ dataLen →
        ((∃ e, longToBytes data dataLen = .error e) ↔ 256 ^ dataLen ≤ data) ∧
          (data < 256 ^ dataLen → ∃ bs, longToBytes data dataLen = .ok bs ∧ bs.length = dataLen ∧
            bytesToLong bs = data) := by
  refine ⟨fun s hs => longToBytes_bytesToLong hs, fun data dataLen hpos => ⟨longToBytes_raises_iff hpos, ?_⟩⟩
  intro hlt
  obtain ⟨bs, hbs⟩ := longToBytes_of_lt hpos hlt
  refine ⟨bs, hbs, length_longToBytes hbs, ?_⟩
  rw [bytesToLong_eq]
  exact unpackBE_longToBytes hbs

theorem longToBytes_exact_padded :
    longToBytes (bytesToLong [0, 0, 0, 0, 7]) 5 = .ok [0, 0, 0, 0, 7] ∧
      (∃ e, longToBytes 65536 2 = .error e) ∧ ∃ bs, longToBytes 0 5 = .ok bs ∧ bs.length = 5 := by
  refine ⟨longToBytes_exact.1 [0, 0, 0, 0, 7] (by decide), ?_, ?_⟩
  · exact (longToBytes_exact.2 65536 2 (by decide)).1.mpr (by decide)
  · obtain ⟨bs, hbs, hlen, -⟩ := (longToBytes_exact.2 0 5 (by decide)).2 (by decide)
    exact ⟨bs, hbs, hlen⟩

theorem structPack_eq_ok_iff {format : List Fmt} {vals : Vals format} {bs : Bytes} :
    structPack format vals = .ok bs ↔ InRange format vals ∧ packed format vals = bs := by
  rw [← pack_eq_some_iff, structPack]
  cases pack format vals <;> simp

theorem readMessage_append {format : List Fmt} {vals : Vals format} (h : Fits format vals)
    (rest : Bytes) :
    ∃ bs, structPack format vals = .ok bs ∧ bs.length = calcsize format ∧
      readMessage format (bs ++ rest) = .ok (vals, rest) := by
  obtain ⟨bs, hpack, hlen, hread⟩ := pack_roundtrip format vals h
  refine ⟨bs, by simp [structPack, hpack], hlen, ?_⟩
  simp [readMessage, ← hlen, hread]

theorem readMessage_packed {format : List Fmt} {vals : Vals format} (h : Fits format vals)
    (rest : Bytes) : readMessage format (packed format vals ++ rest) = .ok (vals, rest) := by
  obtain ⟨bs, hpack, -, hread⟩ := readMessage_append h rest
  obtain ⟨-, hbs⟩ := structPack_eq_ok_iff.mp hpack
  rwa [hbs]

theorem readField_packed {f : Fmt} {x : f.Val} (h : f.Fits x) (rest : Bytes) :
    readField f (f.packed x ++ rest) = .ok (x, rest) := by
  have hfits : Struct.Fits [f] (x, ()) := ⟨h, trivial⟩
  have hread := readMessage_packed hfits rest
  simp only [packed, List.append_nil] at hread
  rw [readField, hread]
  rfl

theorem toUnsigned_of_ok {x : Int} {n : Nat} (h : toUnsigned x = .ok n) : (n : Int) = x := by
  unfold toUnsigned at h
  split at h
  · cases h
    exact Int.toNat_of_nonneg ‹_›
  · cases h

theorem readMessage_of_ok {format : List Fmt} {msg rest : Bytes} {vals : Vals format}
    (h : readMessage format msg = .ok (vals, rest)) :
    calcsize format ≤ msg.length ∧ vals = unpack format (msg.take (calcsize format)) ∧
      rest = msg.drop (calcsize format) := by
  unfold readMessage at h
  split at h
  · simp only [Except.ok.injEq, Prod.mk.injEq] at h
    exact ⟨by assumption, h.1.symm, h.2.symm⟩
  · simp at h

theorem inRange_of_readMessage {format : List Fmt} {msg rest : Bytes} {vals : Vals format}
    (h : readMessage format msg = .ok (vals, rest)) : InRange format vals := by
  obtain ⟨-, hvals, -⟩ := readMessage_of_ok h
  rw [hvals]
  exact inRange_unpack format _

theorem readField_eq {f : Fmt} {msg : Bytes} (h : f.size ≤ msg.length) :
    readField f msg = .ok (f.unpack (msg.take f.size), msg.drop f.size) := by
  have hsize : calcsize [f] = f.size := by simp [calcsize]
  simp only [readField, readMessage, hsize, h, ↓reduceIte, PyExcept.ok_bind, PyExcept.pure_eq, unpack,
    List.take_take, Nat.min_self]

theorem readByte_cons (b : UInt8) (msg : Bytes) : readByte (b :: msg) = .ok (b.toNat, msg) := by
  have hread : readField .B (b :: msg) = _ := readField_eq (Nat.le_add_left _ _)
  simpa [readByte, Fmt.size, Fmt.unpack, unpackBE] using hread

theorem readField_of_ok {f : Fmt} {msg rest : Bytes} {x : f.Val}
    (h : readField f msg = .ok (x, rest)) :
    f.size ≤ msg.length ∧ x = f.unpack (msg.take f.size) ∧ rest = msg.drop f.size := by
  obtain ⟨⟨vals, rest'⟩, hread, hret⟩ := PyExcept.bind_eq_ok h
  obtain ⟨hlen, hvals, hrest⟩ := readMessage_of_ok hread
  simp only [PyExcept.pure_eq, Except.ok.injEq, Prod.mk.injEq] at hret
  have hsize : calcsize [f] = f.size := by simp [calcsize]
  rw [hsize] at hlen hvals hrest
  refine ⟨hlen, ?_, ?_⟩
  · rw [← hret.1, hvals]
    simp only [unpack, List.take_take, Nat.min_self]
  · rw [← hret.2, hrest]

/-- What was read and the rest are the whole message. -/
theorem readMessage_sound {format : List Fmt} {msg rest : Bytes} {vals : Vals format}
    (h : readMessage format msg = .ok (vals, rest)) : msg = packed format vals ++ rest := by
  obtain ⟨hlen, rfl, rfl⟩ := readMessage_of_ok h
  have htake : (msg.take (calcsize format)).length = calcsize format := List.length_take_of_le hlen
  rw [packed_unpack format htake, List.take_append_drop]

theorem readField_sound {f : Fmt} {msg rest : Bytes} {x : f.Val} (h : readField f msg = .ok (x, rest)) :
    msg = f.packed x ++ rest ∧ f.InRange x := by
  obtain ⟨⟨vals, rest'⟩, hread, hret⟩ := PyExcept.bind_eq_ok h
  obtain ⟨rfl, rfl⟩ := Prod.mk.inj (Except.ok.inj hret)
  have hmsg := readMessage_sound hread
  unfold packed packed at hmsg
  rw [List.append_nil] at hmsg
  exact ⟨hmsg, (inRange_of_readMessage hread).1⟩

theorem readShort_lt {msg rest : Bytes} {x : Nat} (h : readShort msg = .ok (x, rest)) :
    x < 2 ^ 16 := by
  obtain ⟨hlen, hx, -⟩ := readField_of_ok h
  have hlen : 2 ≤ msg.length := hlen
  have hlt := unpackBE_lt (msg.take 2)
  rw [hx]
  rw [List.length_take, Nat.min_eq_left hlen] at hlt
  exact hlt

end Basic

end BitBlinder
