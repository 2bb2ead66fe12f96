import BitBlinder.BitTorrent.PeerWire

/-!
# The wire protocol with one buffer

Each function of the protocol leaves less to be done than there was, and so `turn`, which has
everything that is not read in one text, makes a machine.
-/

namespace BitBlinder.PeerWire

open Struct (Bytes packBE unpackBE)
open Search (find lastItems)

set_option autoImplicit false

namespace BTProtocol
variable {κ σ : Type} {env : Context κ σ} {p q : BTProtocol κ σ} {s : Bytes}

/-! ## What the operations leave alone -/

@[simp] theorem writeRaw_same :
    (p.writeRaw s).buffer = p.buffer ∧ (p.writeRaw s).pieces = p.pieces ∧ (p.writeRaw s).bufferlen = p.bufferlen ∧
      (p.writeRaw s).nextLen = p.nextLen ∧ (p.writeRaw s).nextFunc = p.nextFunc ∧ (p.writeRaw s).closed = p.closed ∧
      (p.writeRaw s).raised = p.raised ∧ (p.writeRaw s).crypted = p.crypted ∧ (p.writeRaw s).cryptmode = p.cryptmode ∧
      (p.writeRaw s).locallyInitiated = p.locallyInitiated ∧ (p.writeRaw s).messages = p.messages ∧
      (p.writeRaw s).encoder = p.encoder := by
  unfold writeRaw
  split <;> simp

@[simp] theorem write_same :
    (p.write env s).buffer = p.buffer ∧ (p.write env s).pieces = p.pieces ∧
      (p.write env s).bufferlen = p.bufferlen ∧ (p.write env s).nextLen = p.nextLen ∧
      (p.write env s).nextFunc = p.nextFunc ∧ (p.write env s).closed = p.closed ∧
      (p.write env s).raised = p.raised ∧ (p.write env s).crypted = p.crypted ∧
      (p.write env s).cryptmode = p.cryptmode ∧ (p.write env s).locallyInitiated = p.locallyInitiated ∧
      (p.write env s).messages = p.messages ∧ (p.write env s).encoder = p.encoder := by
  unfold write
  split <;> simp

@[simp] theorem close_same :
    (p.close env).buffer = p.buffer ∧ (p.close env).pieces = p.pieces ∧ (p.close env).bufferlen = p.bufferlen ∧
      (p.close env).nextLen = p.nextLen ∧ (p.close env).nextFunc = p.nextFunc ∧ (p.close env).closed = true ∧
      (p.close env).raised = p.raised ∧ (p.close env).crypted = p.crypted ∧ (p.close env).cryptmode = p.cryptmode ∧
      (p.close env).locallyInitiated = p.locallyInitiated ∧ (p.close env).messages = p.messages ∧
      (p.close env).written = p.written ∧ (p.close env).encrypter = p.encrypter := by
  unfold close
  split <;> simp_all [sever]

@[simp] theorem react_same {actions : List Action} :
    (p.react env actions).buffer = p.buffer ∧ (p.react env actions).pieces = p.pieces ∧
      (p.react env actions).bufferlen = p.bufferlen ∧ (p.react env actions).nextLen = p.nextLen ∧
      (p.react env actions).nextFunc = p.nextFunc ∧ (p.react env actions).raised = p.raised ∧
      (p.react env actions).crypted = p.crypted ∧ (p.react env actions).messages = p.messages := by
  unfold react
  induction actions generalizing p with
  | nil => simp
  | cons a actions ih =>
    rw [List.foldl_cons]
    cases a with
    | write s => simp [ih, act]
    | close => simp [ih, act]

@[simp] theorem told_same {r : Reaction σ} {e : Encoder σ} :
    (p.told env r e).buffer = p.buffer ∧ (p.told env r e).pieces = p.pieces ∧
      (p.told env r e).bufferlen = p.bufferlen ∧ (p.told env r e).nextLen = p.nextLen ∧
      (p.told env r e).nextFunc = p.nextFunc ∧ (p.told env r e).raised = p.raised ∧
      (p.told env r e).crypted = p.crypted ∧ (p.told env r e).messages = p.messages := by
  simp [told]

/-! ## The turns end -/

/-- What is left to be done when a function has returned. -/
def load (r : BTProtocol κ σ × Reply) : Nat :=
  2 * (r.1.pieces.flatten.length + r.1.buffer.length) +
    match r.2 with
    | .isNone | .raises _ => 0
    | .isTrue => rank r.1.nextFunc r.1.nextLen
    | .next len func => rank func len

variable (env) in
theorem size_answered_le (r : BTProtocol κ σ × Reply) : (answered env r).size ≤ load r := by
  obtain ⟨p, reply⟩ := r
  cases reply with
  | isNone => simp [answered, size, work, load, halted]
  | raises e => simp [answered, size, work, load, halted]
  | isTrue => by_cases h : p.halted <;> simp [answered, size, work, load, h]
  | next len func => by_cases h : p.halted <;> simp_all [answered, size, work, load, halted]

section Load
variable {m : Bytes} {n : Nat}

/-- The data that a call leaves, with that of the call. -/
def held (p : BTProtocol κ σ) (m : Bytes) : Nat := p.pieces.flatten.length + p.buffer.length + m.length

variable (env p m) in
theorem searchForPattern_load (pat : Bytes) (maxSearch : Int) :
    (p.searchForPattern env m pat maxSearch).2.2.pieces = p.pieces ∧
      (p.searchForPattern env m pat maxSearch).2.2.buffer.length ≤ p.buffer.length + m.length := by
  unfold searchForPattern
  have hlast : (lastItems (pat.length - 1) m).length ≤ m.length := Search.lastItems_length_le
  split
  · split
    · simp
    · simp only [writeBuffer, List.length_append, true_and]
      omega
  · simp only [writeBuffer, List.length_append, List.length_drop, true_and]
    omega

theorem readHeader_load : load (p.readHeader env m) < 2 * held p m + 14 := by
  unfold readHeader
  repeat' split
  all_goals simp only [load, held, rank, writeBuffer, List.length_append]
  all_goals omega

theorem readHeaderIncoming_load : load (p.readHeaderIncoming env m) < 2 * held p m + 14 := by
  unfold readHeaderIncoming
  repeat' split
  all_goals simp only [load, held, rank, writeBuffer, List.length_append]
  all_goals omega

theorem readCryptoHeader_load : load (p.readCryptoHeader env m) < 2 * held p m + 13 := by
  unfold readCryptoHeader
  repeat' split
  all_goals simp only [load, held, rank, padded, write_same, Int.reduceLT, ↓reduceIte]
  all_goals omega

theorem readCryptoHeaderIncoming_load : load (p.readCryptoHeaderIncoming env m) < 2 * held p m + 13 := by
  unfold readCryptoHeaderIncoming
  repeat' split
  all_goals simp only [load, held, rank, padded, write_same, Int.reduceLT, ↓reduceIte]
  all_goals omega

theorem readCryptoBlock3a_load {maxSearch : Int} :
    load (p.readCryptoBlock3a env m maxSearch) < 2 * held p m + 12 := by
  unfold readCryptoBlock3a
  split
  · simp only [load, held]
    omega
  · rename_i c _
    obtain ⟨hpieces, hbuffer⟩ := searchForPattern_load env p m c.block3a maxSearch
    dsimp only
    split
    · simp only [load, held, rank, hpieces]
      omega
    · simp only [load, held, rank, hpieces, Int.reduceNeg, Int.reduceLT, ↓reduceIte]
      omega

theorem startCrypto_same : (p.startCrypto env).pieces = p.pieces ∧ (p.startCrypto env).nextLen = p.nextLen ∧
    (p.startCrypto env).nextFunc = p.nextFunc := by
  unfold startCrypto
  split <;> simp

theorem startCrypto_length : (p.startCrypto env).buffer.length = p.buffer.length := by
  unfold startCrypto
  split <;> simp [Crypto.decrypt]

theorem readCryptoBlock3b_load : load (p.readCryptoBlock3b env m) < 2 * held p m + 10 := by
  unfold readCryptoBlock3b
  split
  · simp only [load, held]
    omega
  · split
    · simp only [load, held]
      omega
    · rename_i c k srs _
      unfold externalConnectionMade
      dsimp only
      cases admission env p.registered k srs with
      | notRunning =>
        simp only [load, held]
        omega
      | refused =>
        simp only [load, held, close_same]
        omega
      | nameError =>
        simp only [load, held]
        omega
      | admitted =>
        simp only [externalHandshakeDone]
        split
        · simp only [load, held, rank, startCrypto_same, startCrypto_length]
          omega
        · simp only [load, held, rank]
          omega

theorem readCryptoBlock3c_load : load (p.readCryptoBlock3c m) < 2 * held p m + 9 := by
  unfold readCryptoBlock3c
  dsimp only
  repeat' split
  all_goals simp only [load, held, rank]
  all_goals omega

theorem readCryptoBlock3done_load : load (p.readCryptoBlock3done m) < 2 * held p m + 7 := by
  unfold readCryptoBlock3done
  repeat' split
  all_goals simp only [load, held, rank, endCrypto, writeBuffer, List.length_append]
  all_goals omega

theorem readCryptoPad3_load : load (p.readCryptoPad3 env m) < 2 * held p m + 8 := by
  unfold readCryptoPad3
  dsimp only
  split
  · simp only [load, held, rank, padded, write_same]
    omega
  · refine Nat.lt_of_lt_of_le readCryptoBlock3done_load ?_
    simp only [held, padded, write_same, List.length_nil]
    omega

theorem readCryptoBlock4a_load {maxSearch : Int} :
    load (p.readCryptoBlock4a env m maxSearch) < 2 * held p m + 12 := by
  unfold readCryptoBlock4a
  split
  · simp only [load, held]
    omega
  · rename_i c _
    obtain ⟨hpieces, hbuffer⟩ := searchForPattern_load env { p with encrypter := some (c.VC_pattern env.prim).2 } m
      (c.VC_pattern env.prim).1 maxSearch
    dsimp only at hpieces hbuffer ⊢
    split
    · simp only [load, held, rank, startCrypto_same, startCrypto_length, hpieces]
      omega
    · simp only [load, held, rank, hpieces, Int.reduceNeg, Int.reduceLT, ↓reduceIte]
      omega

variable (env p m) in
theorem readCryptoBlock4done_load : load (p.readCryptoBlock4done env) < 2 * held p m + 7 := by
  unfold readCryptoBlock4done
  repeat' split
  all_goals simp only [load, held, rank, endCrypto, write_same]
  all_goals omega

theorem readCryptoBlock4b_load : load (p.readCryptoBlock4b env m) < 2 * held p m + 9 := by
  unfold readCryptoBlock4b
  split
  · simp only [load, held]
    omega
  · dsimp only
    repeat' split
    · simp only [load, held]
      omega
    · simp only [load, held]
      omega
    · simp only [load, held]
      omega
    · simp only [load, held, rank]
      omega
    · have hdone := readCryptoBlock4done_load env { p with cryptmode := unpackBE (m.take 4) % 4 } m
      simp only [held] at hdone ⊢
      omega

theorem readEncryptedHeader_load : load (p.readEncryptedHeader m) < 2 * held p m + 6 := by
  unfold readEncryptedHeader
  split
  all_goals simp only [load, held, rank]
  all_goals omega

theorem readOptions_load : load (p.readOptions m) < 2 * held p m + 5 := by
  simp only [readOptions, load, held, rank]
  omega

theorem readDownloadId_load : load (p.readDownloadId env m) < 2 * held p m + 4 := by
  unfold readDownloadId
  repeat' split
  all_goals simp only [load, held, rank, write_same]
  all_goals omega

theorem readDownloadId_same : (p.readDownloadId env m).1.pieces = p.pieces ∧
    (p.readDownloadId env m).1.buffer = p.buffer ∧ (p.readDownloadId env m).1.nextLen = p.nextLen ∧
      (p.readDownloadId env m).1.nextFunc = p.nextFunc := by
  unfold readDownloadId
  repeat' split
  all_goals simp

theorem readDownloadIdIncoming_load : load (p.readDownloadIdIncoming env m) < 2 * held p m + 4 := by
  unfold readDownloadIdIncoming
  split
  · simp only [load, held]
    omega
  · rename_i k srs _
    split
    · unfold externalConnectionMade
      cases admission env p.registered k srs with
      | notRunning =>
        simp only [load, held]
        omega
      | refused =>
        simp only [load, held, close_same]
        omega
      | nameError =>
        simp only [load, held]
        omega
      | admitted =>
        simp only [load, held, readDownloadId_same, externalHandshakeDone, rank]
        omega
    · simp only [load, held]
      omega

theorem rank_readLen_four : rank .readLen 4 = 1 := rfl

theorem rank_readMessage (len : Int) : rank .readMessage len = 2 := rfl

theorem readPeerId_load : load (p.readPeerId env m) < 2 * held p m + 3 := by
  unfold readPeerId
  split
  · simp only [load, held]
    omega
  · dsimp only
    repeat' split
    all_goals simp only [load, held, rank_readLen_four, told_same, switchToRead2, List.flatten_cons,
      List.flatten_nil, List.append_nil, List.length_nil]
    all_goals omega

theorem readLen_load (h : p.nextLen ≠ 0 → m ≠ []) :
    load (p.readLen m) < 2 * held p m + rank .readLen p.nextLen := by
  have hrank : rank .readLen p.nextLen = 3 ∨ rank .readLen p.nextLen = 1 ∧ 0 < m.length := by
    by_cases hlen : p.nextLen = 0
    · exact Or.inl (by simp only [rank, hlen, ↓reduceIte])
    · exact Or.inr ⟨by simp only [rank, hlen, ↓reduceIte], List.length_pos_iff.mpr (h hlen)⟩
  unfold readLen
  split
  · simp only [load, held]
    omega
  · dsimp only
    split
    · simp only [load, held]
      omega
    · simp only [load, held, rank_readMessage]
      omega

theorem readMessage_load : load (p.readMessage env m) < 2 * held p m + 2 := by
  unfold readMessage
  split
  · simp only [load, held, rank_readLen_four]
    omega
  · split
    · simp only [load, held]
      omega
    · dsimp only
      split
      · simp only [load, held, told_same]
        omega
      · simp only [load, held, rank_readLen_four, told_same]
        omega

variable (env) in
theorem call_load (hlen : 0 ≤ p.nextLen) (hm : p.nextLen ≠ 0 → m ≠ []) :
    load (p.call env m) < 2 * held p m + rank p.nextFunc p.nextLen := by
  have hneg : ¬ p.nextLen < 0 := by omega
  unfold call
  cases p.nextFunc with
  | readHeader =>
    dsimp only
    split
    · exact readHeader_load
    · exact readHeaderIncoming_load
  | readCryptoHeader =>
    dsimp only
    split
    · exact readCryptoHeader_load
    · exact readCryptoHeaderIncoming_load
  | readCryptoBlock3a maxSearch =>
    simp only [rank, hneg, ↓reduceIte]
    exact readCryptoBlock3a_load
  | readCryptoBlock3b => exact readCryptoBlock3b_load
  | readCryptoBlock3c => exact readCryptoBlock3c_load
  | readCryptoPad3 => exact readCryptoPad3_load
  | readCryptoIa => exact readCryptoBlock3done_load
  | readCryptoBlock4a maxSearch =>
    simp only [rank, hneg, ↓reduceIte]
    exact readCryptoBlock4a_load
  | readCryptoBlock4b => exact readCryptoBlock4b_load
  | readCryptoPad4 => exact Nat.lt_succ_of_lt (readCryptoBlock4done_load env p m)
  | readEncryptedHeader => exact readEncryptedHeader_load
  | readOptions => exact readOptions_load
  | readDownloadId =>
    dsimp only
    split
    · exact readDownloadId_load
    · exact readDownloadIdIncoming_load
  | readPeerId => exact readPeerId_load
  | readLen => exact readLen_load hm
  | readMessage => exact readMessage_load
  | readDead =>
    simp only [load, held, rank]
    omega

end Load

/-! ## One buffer

The same protocol with all that is not read in one text. `bufferlen` only says here that the messages
have begun, and a `next_len` below 0 ends when there is more data. -/

def flat (p : BTProtocol κ σ) : BTProtocol κ σ :=
  { p with buffer := p.pieces.flatten ++ p.buffer, pieces := [], bufferlen := p.bufferlen.map fun _ => 0 }

/-- How much the next function is called with. -/
def demand (p : BTProtocol κ σ) : Nat :=
  if p.nextLen = 0 ∧ p.bufferlen = none then p.buffer.length else p.nextLen.toNat

def rest (p : BTProtocol κ σ) : BTProtocol κ σ := { p with buffer := p.buffer.drop p.demand }

variable (env) in
def turn (p : BTProtocol κ σ) : Option (BTProtocol κ σ) :=
  if p.halted = false ∧ 0 ≤ p.nextLen ∧ p.demand ≤ p.buffer.length then
    some (flat (answered env (p.rest.call env (p.buffer.take p.demand))))
  else none

variable (env) in
/-- More of the stream, as it is decrypted. -/
def more (s : Bytes) (p : BTProtocol κ σ) : BTProtocol κ σ :=
  { p with
    buffer := p.buffer ++ (decoded env p.crypted p.encrypter s).1
    encrypter := (decoded env p.crypted p.encrypter s).2 }

def wake (p : BTProtocol κ σ) : BTProtocol κ σ := { p with nextLen := max p.nextLen 0 }

variable (env) in
def push (s : Bytes) (p : BTProtocol κ σ) : BTProtocol κ σ := if s = [] ∨ p.halted then p else (p.more env s).wake

theorem size_flat : (flat p).size = p.size := by
  have hlength : (flat p).pieces.flatten.length + (flat p).buffer.length =
      p.pieces.flatten.length + p.buffer.length := by
    simp only [flat, List.length_append, List.flatten_nil, List.length_nil, Nat.zero_add]
  unfold size
  rw [hlength]
  rfl

theorem turn_size (h : turn env p = some q) : q.size < p.size := by
  unfold turn at h
  split at h
  · rename_i hgo
    obtain ⟨hhalted, hlen, hdemand⟩ := hgo
    obtain rfl := Option.some.inj h
    have hm : p.nextLen ≠ 0 → p.buffer.take p.demand ≠ [] := by
      intro hne hnil
      have hlength := congrArg List.length hnil
      rw [List.length_take, List.length_nil] at hlength
      simp only [demand, hne, false_and, ↓reduceIte] at hlength hdemand
      omega
    have hload := call_load env (p := p.rest) hlen hm
    have hanswered := size_answered_le env (p.rest.call env (p.buffer.take p.demand))
    have hroom : 2 * held p.rest (p.buffer.take p.demand) + rank p.rest.nextFunc p.rest.nextLen ≤ p.size := by
      simp only [size, work, held, rest, hhalted, Bool.false_eq_true, ↓reduceIte, List.length_drop, List.length_take]
      omega
    rw [size_flat]
    omega
  · cases h

theorem decoded_append {crypted : Bool} {encrypter : Option (Crypto κ)} (a b : Bytes) :
    decoded env crypted encrypter (a ++ b) =
      ((decoded env crypted encrypter a).1 ++ (decoded env crypted (decoded env crypted encrypter a).2 b).1,
        (decoded env crypted (decoded env crypted encrypter a).2 b).2) := by
  cases crypted with
  | false => rfl
  | true =>
    cases encrypter with
    | none => rfl
    | some c => simp only [decoded, Crypto.decrypt, StreamCipher.update_append]

@[simp] theorem decoded_length {crypted : Bool} {encrypter : Option (Crypto κ)} (a : Bytes) :
    (decoded env crypted encrypter a).1.length = a.length := by
  unfold decoded
  split <;> simp [Crypto.decrypt]

theorem more_append (a b : Bytes) (p : BTProtocol κ σ) : p.more env (a ++ b) = (p.more env a).more env b := by
  simp only [more, decoded_append, List.append_assoc]

theorem wake_wake : p.wake.wake = p.wake := by
  simp only [wake, le_refl, max_eq_left, max_assoc]

theorem wake_of_nonneg (h : 0 ≤ p.nextLen) : p.wake = p := by
  simp only [wake, max_eq_left h]

theorem push_append (a b : Bytes) (p : BTProtocol κ σ) : p.push env (a ++ b) = (p.push env a).push env b := by
  unfold push
  by_cases ha : a = []
  · subst ha
    simp
  · by_cases hhalted : p.halted = true
    · simp [hhalted]
    · have hwake : (p.more env a).wake.halted = p.halted := rfl
      by_cases hb : b = []
      · subst hb
        simp [ha, hhalted]
      · simp only [List.append_eq_nil_iff, ha, hb, hhalted, hwake, and_self, Bool.false_eq_true, or_self, ↓reduceIte]
        rw [more_append]
        exact congrArg wake rfl |>.trans wake_wake.symm

end BTProtocol

open BTProtocol

/-- The protocol with one buffer, as a machine. -/
def wire {κ σ : Type} (env : Context κ σ) : Feed (BTProtocol κ σ) UInt8 where
  turn := turn env
  push := push env
  size := size
  turn_size := turn_size
  push_nil _ := if_pos (Or.inl rfl)
  push_append := push_append

end BitBlinder.PeerWire
