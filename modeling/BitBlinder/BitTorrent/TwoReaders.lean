import BitBlinder.BitTorrent.OneBuffer

/-!
# The two readers

`read` has the buffer as a text and `_read2` has it in pieces, and in the middle of the stream
the one gives it to the other. Between two deliveries they have done what the machine with one
buffer does.
-/

namespace BitBlinder.PeerWire

set_option autoImplicit false

open Struct (Bytes unpackBE)

def NextFunc.searches : NextFunc → Bool
  | .readCryptoBlock3a _ | .readCryptoBlock4a _ => true
  | _ => false

def NextFunc.readsMessages : NextFunc → Bool
  | .readLen | .readMessage | .readDead => true
  | _ => false

namespace BTProtocol
variable {κ σ : Type} {env : Context κ σ} {p q : BTProtocol κ σ} {s m : Bytes}

/-- What a function leaves alone that does not go over to the second reader. -/
structure Stays (p : BTProtocol κ σ) (r : BTProtocol κ σ × Reply) : Prop where
  pieces : r.1.pieces = p.pieces
  bufferlen : r.1.bufferlen = p.bufferlen
  raised : r.1.raised = p.raised
  waits : ∀ len func, r.2 = .next len func → len < 0 → func.searches = true
  kept : r.2 = .isTrue → 0 ≤ r.1.nextLen

theorem Stays.of_next {len : Int} {func : NextFunc} (hpieces : q.pieces = p.pieces)
    (hbufferlen : q.bufferlen = p.bufferlen) (hraised : q.raised = p.raised)
    (hlen : 0 ≤ len ∨ func.searches = true) : Stays p (q, .next len func) := by
  refine ⟨hpieces, hbufferlen, hraised, ?_, by simp⟩
  rintro l f hnext hneg
  obtain ⟨rfl, rfl⟩ := Reply.next.inj hnext
  exact hlen.resolve_left (by omega)

theorem Stays.of_none (hpieces : q.pieces = p.pieces) (hbufferlen : q.bufferlen = p.bufferlen)
    (hraised : q.raised = p.raised) : Stays p (q, .isNone) :=
  ⟨hpieces, hbufferlen, hraised, by simp, by simp⟩

theorem Stays.of_raises {e : PyError} (hpieces : q.pieces = p.pieces) (hbufferlen : q.bufferlen = p.bufferlen)
    (hraised : q.raised = p.raised) : Stays p (q, .raises e) :=
  ⟨hpieces, hbufferlen, hraised, by simp, by simp⟩

theorem readHeader_stays : Stays p (p.readHeader env m) := by
  unfold readHeader
  dsimp only
  repeat' split
  all_goals first
    | exact .of_raises rfl rfl rfl
    | exact .of_none rfl rfl rfl
    | exact .of_next rfl rfl rfl (.inl (by decide))

theorem readHeaderIncoming_stays : Stays p (p.readHeaderIncoming env m) := by
  unfold readHeaderIncoming
  dsimp only
  repeat' split
  all_goals first
    | exact .of_none rfl rfl rfl
    | exact .of_next rfl rfl rfl (.inl (by decide))

theorem readCryptoHeader_stays : Stays p (p.readCryptoHeader env m) := by
  unfold readCryptoHeader
  split
  · exact .of_next (by simp [padded]) (by simp [padded]) (by simp [padded]) (.inl (by decide))
  · exact .of_raises rfl rfl rfl

theorem readCryptoHeaderIncoming_stays : Stays p (p.readCryptoHeaderIncoming env m) := by
  unfold readCryptoHeaderIncoming
  split
  · exact .of_raises rfl rfl rfl
  · exact .of_next (by simp [padded]) (by simp [padded]) (by simp [padded]) (.inl (by decide))

theorem searchForPattern_same {pat : Bytes} {maxSearch : Int} :
    (p.searchForPattern env m pat maxSearch).2.2.bufferlen = p.bufferlen ∧
      (p.searchForPattern env m pat maxSearch).2.2.raised = p.raised := by
  unfold searchForPattern
  split
  · split
    · simp
    · exact ⟨rfl, rfl⟩
  · exact ⟨rfl, rfl⟩

theorem readCryptoBlock3a_stays {maxSearch : Int} : Stays p (p.readCryptoBlock3a env m maxSearch) := by
  unfold readCryptoBlock3a
  split
  · exact .of_raises rfl rfl rfl
  · rename_i c _
    have hpieces := (searchForPattern_load env p m c.block3a maxSearch).1
    dsimp only
    split
    · exact .of_next hpieces searchForPattern_same.1 searchForPattern_same.2 (.inl (by decide))
    · exact .of_next hpieces searchForPattern_same.1 searchForPattern_same.2 (.inr rfl)

theorem startCrypto_stays : (p.startCrypto env).bufferlen = p.bufferlen ∧ (p.startCrypto env).raised = p.raised := by
  unfold startCrypto
  split <;> exact ⟨rfl, rfl⟩

theorem readCryptoBlock3b_stays : Stays p (p.readCryptoBlock3b env m) := by
  unfold readCryptoBlock3b
  split
  · exact .of_raises rfl rfl rfl
  · split
    · exact .of_none rfl rfl rfl
    · rename_i c k srs _
      unfold externalConnectionMade
      dsimp only
      cases admission env p.registered k srs with
      | notRunning => exact .of_none rfl rfl rfl
      | refused => exact .of_none (by simp) (by simp) (by simp)
      | nameError => exact .of_raises rfl rfl rfl
      | admitted =>
        simp only [externalHandshakeDone]
        split
        · exact ⟨startCrypto_same.1, startCrypto_stays.1, startCrypto_stays.2, by simp,
            fun _ => by rw [startCrypto_same.2.1]; exact Int.zero_le_ofNat 14⟩
        · exact ⟨rfl, rfl, rfl, by simp, fun _ => Int.zero_le_ofNat 14⟩

theorem readCryptoBlock3c_stays : Stays p (p.readCryptoBlock3c m) := by
  unfold readCryptoBlock3c
  dsimp only
  repeat' split
  all_goals first
    | exact .of_raises rfl rfl rfl
    | exact .of_none rfl rfl rfl
    | exact .of_next rfl rfl rfl (.inl (by omega))

theorem readCryptoBlock3done_stays : Stays p (p.readCryptoBlock3done m) := by
  unfold readCryptoBlock3done
  repeat' split
  all_goals first
    | exact .of_raises rfl rfl rfl
    | exact .of_next rfl rfl rfl (.inl (by decide))

theorem Stays.trans {r : BTProtocol κ σ × Reply} (hpieces : q.pieces = p.pieces) (hbufferlen : q.bufferlen = p.bufferlen)
    (hraised : q.raised = p.raised) (h : Stays q r) : Stays p r :=
  ⟨h.pieces.trans hpieces, h.bufferlen.trans hbufferlen, h.raised.trans hraised, h.waits, h.kept⟩

theorem readCryptoPad3_stays : Stays p (p.readCryptoPad3 env m) := by
  unfold readCryptoPad3
  dsimp only
  split
  · exact .of_next (by simp [padded]) (by simp [padded]) (by simp [padded]) (.inl (by omega))
  · exact .trans (by simp [padded]) (by simp [padded]) (by simp [padded]) readCryptoBlock3done_stays

theorem readCryptoBlock4a_stays {maxSearch : Int} : Stays p (p.readCryptoBlock4a env m maxSearch) := by
  unfold readCryptoBlock4a
  split
  · exact .of_raises rfl rfl rfl
  · rename_i c _
    have hpieces := (searchForPattern_load env { p with encrypter := some (c.VC_pattern env.prim).2 } m
      (c.VC_pattern env.prim).1 maxSearch).1
    dsimp only
    split
    · exact .of_next (startCrypto_same.1.trans hpieces) (startCrypto_stays.1.trans searchForPattern_same.1)
        (startCrypto_stays.2.trans searchForPattern_same.2) (.inl (by decide))
    · exact .of_next hpieces searchForPattern_same.1 searchForPattern_same.2 (.inr rfl)

theorem readCryptoBlock4done_stays : Stays p (p.readCryptoBlock4done env) := by
  unfold readCryptoBlock4done
  repeat' split
  all_goals first
    | exact .of_raises rfl rfl rfl
    | exact .of_none rfl rfl rfl
    | exact .of_next (by simp [endCrypto]) (by simp [endCrypto]) (by simp [endCrypto]) (.inl (by decide))

theorem readCryptoBlock4b_stays : Stays p (p.readCryptoBlock4b env m) := by
  have hdone : Stays p (readCryptoBlock4done env { p with cryptmode := unpackBE (m.take 4) % 4 }) :=
    .trans (q := { p with cryptmode := unpackBE (m.take 4) % 4 }) rfl rfl rfl readCryptoBlock4done_stays
  unfold readCryptoBlock4b
  dsimp only
  repeat' split
  all_goals first
    | exact .of_raises rfl rfl rfl
    | exact .of_none rfl rfl rfl
    | exact .of_next rfl rfl rfl (.inl (by omega))
    | exact hdone

theorem readEncryptedHeader_stays : Stays p (p.readEncryptedHeader m) := by
  unfold readEncryptedHeader
  split
  · exact .of_next rfl rfl rfl (.inl (by decide))
  · exact .of_none rfl rfl rfl

theorem readDownloadId_stays : Stays p (p.readDownloadId env m) := by
  unfold readDownloadId
  repeat' split
  all_goals first
    | exact .of_raises rfl rfl rfl
    | exact .of_none rfl rfl rfl
    | exact .of_next (by simp) (by simp) (by simp) (.inl (by decide))

theorem readDownloadIdIncoming_stays : Stays p (p.readDownloadIdIncoming env m) := by
  unfold readDownloadIdIncoming
  split
  · exact .of_none rfl rfl rfl
  · rename_i k srs _
    split
    · unfold externalConnectionMade
      cases admission env p.registered k srs with
      | notRunning => exact .of_none rfl rfl rfl
      | refused => exact .of_none (by simp) (by simp) (by simp)
      | nameError => exact .of_raises rfl rfl rfl
      | admitted =>
        refine ⟨readDownloadId_stays.pieces, readDownloadId_stays.bufferlen, readDownloadId_stays.raised, by simp,
          fun _ => ?_⟩
        dsimp only
        rw [readDownloadId_same.2.2.1]
        exact Int.zero_le_ofNat 20
    · exact .of_none rfl rfl rfl

theorem readLen_stays : Stays p (p.readLen m) := by
  unfold readLen
  dsimp only
  repeat' split
  all_goals first
    | exact .of_raises rfl rfl rfl
    | exact .of_none rfl rfl rfl
    | exact .of_next rfl rfl rfl (.inl (by omega))

theorem readMessage_stays : Stays p (p.readMessage env m) := by
  unfold readMessage
  dsimp only
  repeat' split
  all_goals first
    | exact .of_raises (by simp) (by simp) (by simp)
    | exact .of_next (by simp) (by simp) (by simp) (.inl (by decide))

variable (env m) in
theorem call_stays (h : p.nextFunc ≠ .readPeerId) : Stays p (p.call env m) := by
  unfold call
  cases hfunc : p.nextFunc with
  | readHeader =>
    dsimp only
    split
    · exact readHeader_stays
    · exact readHeaderIncoming_stays
  | readCryptoHeader =>
    dsimp only
    split
    · exact readCryptoHeader_stays
    · exact readCryptoHeaderIncoming_stays
  | readCryptoBlock3a maxSearch => exact readCryptoBlock3a_stays
  | readCryptoBlock3b => exact readCryptoBlock3b_stays
  | readCryptoBlock3c => exact readCryptoBlock3c_stays
  | readCryptoPad3 => exact readCryptoPad3_stays
  | readCryptoIa => exact readCryptoBlock3done_stays
  | readCryptoBlock4a maxSearch => exact readCryptoBlock4a_stays
  | readCryptoBlock4b => exact readCryptoBlock4b_stays
  | readCryptoPad4 => exact readCryptoBlock4done_stays
  | readEncryptedHeader => exact readEncryptedHeader_stays
  | readOptions => exact .of_next rfl rfl rfl (.inl (by decide))
  | readDownloadId =>
    dsimp only
    split
    · exact readDownloadId_stays
    · exact readDownloadIdIncoming_stays
  | readPeerId => exact absurd hfunc h
  | readLen => exact readLen_stays
  | readMessage => exact readMessage_stays
  | readDead => exact .of_none rfl rfl rfl

/-- Either a function leaves the buffer a text, or it was the last of the handshake and the second reader
takes over. -/
theorem readPeerId_switches :
    Stays p (p.readPeerId env m) ∨
      (((p.readPeerId env m).2 = .next 4 .readLen ∨ ∃ e, (p.readPeerId env m).2 = .raises e) ∧
        (p.readPeerId env m).1.pieces = [p.buffer] ∧ (p.readPeerId env m).1.bufferlen = some p.buffer.length ∧
          (p.readPeerId env m).1.buffer = [] ∧ (p.readPeerId env m).1.raised = p.raised) := by
  unfold readPeerId
  split
  · exact Or.inl (.of_raises rfl rfl rfl)
  · dsimp only
    split
    · exact Or.inl (.of_none rfl rfl rfl)
    · split
      · exact Or.inl (.of_none rfl rfl rfl)
      · split
        · exact Or.inl (.of_none rfl rfl rfl)
        · refine Or.inr ?_
          split
          · exact ⟨Or.inr ⟨_, rfl⟩, by simp [switchToRead2], by simp [switchToRead2], by simp [switchToRead2],
              by simp [switchToRead2]⟩
          · exact ⟨Or.inl rfl, by simp [switchToRead2], by simp [switchToRead2], by simp [switchToRead2],
              by simp [switchToRead2]⟩

/-! ### The second reader -/

def withData (b : Bytes) (x : List Bytes) (l : Option Nat) (p : BTProtocol κ σ) : BTProtocol κ σ :=
  { p with buffer := b, pieces := x, bufferlen := l }

section Data
variable {b : Bytes} {x : List Bytes} {l : Option Nat}

theorem write_withData : (p.withData b x l).write env s = (p.write env s).withData b x l := by
  unfold write writeRaw withData
  dsimp only
  repeat' split
  all_goals rfl

theorem close_withData : (p.withData b x l).close env = (p.close env).withData b x l := by
  unfold close withData
  dsimp only
  split <;> rfl

theorem react_withData {actions : List Action} :
    (p.withData b x l).react env actions = (p.react env actions).withData b x l := by
  unfold react
  induction actions generalizing p with
  | nil => rfl
  | cons a actions ih =>
    rw [List.foldl_cons, List.foldl_cons]
    cases a with
    | write s => rw [act, act, ← ih, write_withData]
    | close => rw [act, act, ← ih, close_withData]

theorem told_withData {r : Reaction σ} {e : Encoder σ} :
    (p.withData b x l).told env r e = (p.told env r e).withData b x l :=
  react_withData (p := { p with encoder := some { e with connecter := r.next } })

theorem readLen_withData : (p.withData b x l).readLen m = ((p.readLen m).1.withData b x l, (p.readLen m).2) := by
  unfold readLen withData
  dsimp only
  repeat' split
  all_goals rfl

theorem readMessage_withData :
    (p.withData b x l).readMessage env m = ((p.readMessage env m).1.withData b x l, (p.readMessage env m).2) := by
  unfold readMessage
  split
  · rfl
  · dsimp only [withData]
    split
    · rfl
    · rename_i e _
      have htold : told env (env.connecter.gotMessage e.connecter m) e
          (withData b x l { p with messages := p.messages ++ [m] }) = _ := told_withData
      dsimp only [withData] at htold
      rw [htold]
      split <;> rfl

end Data

/-- Functions that read messages do not look at the buffer. -/
theorem call_withData {b : Bytes} {x : List Bytes} {l : Option Nat} (h : p.nextFunc.readsMessages = true) :
    (p.withData b x l).call env m = ((p.call env m).1.withData b x l, (p.call env m).2) := by
  have hsame : (p.withData b x l).nextFunc = p.nextFunc := rfl
  unfold call
  rw [hsame]
  cases hfunc : p.nextFunc with
  | readLen => exact readLen_withData
  | readMessage => exact readMessage_withData
  | readDead => rfl
  | _ => simp [hfunc, NextFunc.readsMessages] at h

theorem answered_withData {b : Bytes} {x : List Bytes} {l : Option Nat} (r : BTProtocol κ σ × Reply) :
    answered env (r.1.withData b x l, r.2) = (answered env r).withData b x l := by
  obtain ⟨p, reply⟩ := r
  cases reply with
  | isNone => exact close_withData
  | isTrue => rfl
  | next len func => rfl
  | raises e => rfl

variable (env m) in
/-- What is read after a message is one more, and the buffer is as it was. -/
theorem call_readsMessages (h : p.nextFunc.readsMessages = true) :
    (p.call env m).1.buffer = p.buffer ∧ (p.call env m).2 ≠ .isTrue ∧
      ∀ len func, (p.call env m).2 = .next len func → 0 ≤ len ∧ func.readsMessages = true := by
  unfold call
  cases hfunc : p.nextFunc with
  | readLen =>
    simp only [readLen]
    split
    · simp
    · split
      · simp
      · refine ⟨rfl, by simp, ?_⟩
        rintro len func hnext
        obtain ⟨rfl, rfl⟩ := Reply.next.inj hnext
        exact ⟨by omega, rfl⟩
  | readMessage =>
    have hnext : ∀ len func, Reply.next 4 .readLen = .next len func → 0 ≤ len ∧ func.readsMessages = true := by
      rintro len func hnext
      obtain ⟨rfl, rfl⟩ := Reply.next.inj hnext
      exact ⟨by decide, rfl⟩
    simp only [readMessage]
    split
    · exact ⟨rfl, by simp, hnext⟩
    · split
      · simp
      · split
        · simp
        · exact ⟨by simp, by simp, hnext⟩
  | readDead => simp
  | _ => simp [hfunc, NextFunc.readsMessages] at h

@[simp] theorem answered_same (r : BTProtocol κ σ × Reply) :
    (answered env r).pieces = r.1.pieces ∧ (answered env r).bufferlen = r.1.bufferlen ∧
      (answered env r).buffer = r.1.buffer := by
  obtain ⟨p, reply⟩ := r
  cases reply <;> simp [answered]

theorem flat_withData {x : List Bytes} {l : Nat} (hpieces : p.pieces = x) (hbuffer : p.buffer = [])
    (hbufferlen : p.bufferlen = some l) : flat (p.withData x.flatten [] (some 0)) = flat p := by
  simp only [flat, withData, hpieces, hbuffer, hbufferlen, List.flatten_nil, List.nil_append, List.append_nil,
    Option.map_some]

/-- A connection between two pieces of data while it reads messages. -/
structure Late (p : BTProtocol κ σ) : Prop where
  bufferlen : p.bufferlen = some p.pieces.flatten.length
  buffer : p.buffer = []
  reads : p.nextFunc.readsMessages = true
  short : (p.pieces.flatten.length : Int) < p.nextLen

/-- What holds when the second reader is about to look at the data. -/
structure Reading (t : BTProtocol κ σ × Bytes) : Prop where
  bufferlen : t.1.bufferlen = some t.1.pieces.flatten.length
  buffer : t.1.buffer = []
  reads : t.1.nextFunc.readsMessages = true
  nonneg : 0 ≤ t.1.nextLen
  raised : t.1.raised = none
  fresh : t.2 ≠ [] → t.1.closed = false ∧ (t.1.pieces.flatten.length : Int) < t.1.nextLen
  single : t.2 = [] → t.1.pieces.length ≤ 1

def joined (t : BTProtocol κ σ × Bytes) : BTProtocol κ σ := flat { t.1 with buffer := t.2 }

theorem turn_of_halted (h : p.halted = true) : turn env p = none := by
  unfold turn
  rw [if_neg]
  rintro ⟨hhalted, -⟩
  rw [h] at hhalted
  cases hhalted

theorem settle_flat_of_halted (h : p.halted = true) : (wire env).settle (flat p) = flat p :=
  Feed.settle_of_none (turn_of_halted h)

theorem turn_of_short (h : p.bufferlen.isSome) (hshort : (p.buffer.length : Int) < p.nextLen) : turn env p = none := by
  unfold turn
  rw [if_neg]
  rintro ⟨-, -, hdemand⟩
  have hsome : p.bufferlen ≠ none := Option.isSome_iff_ne_none.mp h
  simp only [demand, hsome, and_false, ↓reduceIte] at hdemand
  omega

variable (env) in
/-- A way on from a state that is one turn of the machine, and a way back with what the machine comes to. -/
def Mirrors (t : BTProtocol κ σ × Bytes) : Loop (BTProtocol κ σ × Bytes) → Prop
  | .again t' => Reading t' ∧ turn env (joined t) = some (joined t')
  | .back t' => (t'.1.halted = true ∨ Late t'.1) ∧ (wire env).settle (joined t) = flat t'.1

variable (env) in
/-- The second reader calls a function with the first bytes of all it has, and keeps the others. -/
theorem read2_called {t : BTProtocol κ σ × Bytes} {x : List Bytes} {m : Bytes} {l : Nat}
    (ht : Reading t) (hclosed : t.1.closed = false)
    (hm : m = (t.1.pieces.flatten ++ t.2).take t.1.nextLen.toNat)
    (hx : x.flatten = (t.1.pieces.flatten ++ t.2).drop t.1.nextLen.toNat) (hsingle : x.length ≤ 1)
    (hl : l = x.flatten.length) (henough : t.1.nextLen.toNat ≤ (t.1.pieces.flatten ++ t.2).length) :
    Mirrors env t (read2Call env m { t.1 with pieces := x, bufferlen := some l }) := by
  unfold read2Call
  dsimp only
  set r := call env m { t.1 with pieces := x, bufferlen := some l } with hr
  have hreads : ({ t.1 with pieces := x, bufferlen := some l } : BTProtocol κ σ).nextFunc.readsMessages = true := ht.reads
  have hpeer : ({ t.1 with pieces := x, bufferlen := some l } : BTProtocol κ σ).nextFunc ≠ .readPeerId := by
    intro heq
    rw [heq] at hreads
    cases hreads
  have hstays := call_stays env m hpeer
  obtain ⟨hbuffer, hnotTrue, hnext⟩ := call_readsMessages env m hreads
  have hhalted : (joined t).halted = false := by
    simp only [joined, flat, halted, hclosed, ht.raised, Option.isSome_none, Bool.or_self]
  have hdemand : (joined t).demand = t.1.nextLen.toNat := by
    simp only [joined, flat, demand, ht.bufferlen, Option.map_some, reduceCtorEq, and_false, ↓reduceIte]
  have hrest : (joined t).rest = withData x.flatten [] (some 0) { t.1 with pieces := x, bufferlen := some l } := by
    rw [hx]
    unfold rest
    rw [hdemand]
    simp only [joined, flat, withData, ht.bufferlen, Option.map_some]
  have hturn : turn env (joined t) = some (flat (answered env r)) := by
    unfold turn
    rw [if_pos ⟨hhalted, ht.nonneg, by rw [hdemand]; exact henough⟩, hrest, hdemand]
    have htake : (joined t).buffer.take t.1.nextLen.toNat = m := hm.symm
    rw [htake, call_withData hreads, answered_withData]
    refine congrArg some (flat_withData (l := l) ?_ ?_ ?_)
    · exact (answered_same r).1.trans hstays.pieces
    · exact (answered_same r).2.2.trans (hbuffer.trans ht.buffer)
    · exact (answered_same r).2.1.trans hstays.bufferlen
  have hback : (answered env r).halted = true → Mirrors env t (.back (answered env r, [])) := fun hhalt =>
    ⟨Or.inl hhalt, (Feed.settle_of_turn hturn).trans (settle_flat_of_halted hhalt)⟩
  cases hreply : r.2 with
  | isNone =>
    refine hback ?_
    simp only [answered, hreply, halted, close_same, Bool.true_or]
  | isTrue => exact absurd hreply hnotTrue
  | raises e =>
    refine hback ?_
    simp only [answered, hreply, halted, Option.isSome_some, Bool.or_true]
  | next len func =>
    obtain ⟨hlen, hfunc⟩ := hnext len func hreply
    have hpieces : (answered env r).pieces = x := (answered_same r).1.trans hstays.pieces
    have hnextLen : (answered env r).nextLen = len := by simp only [answered, hreply]
    have hbuffer' : (answered env r).buffer = [] := (answered_same r).2.2.trans (hbuffer.trans ht.buffer)
    rw [hnextLen, if_neg (by simp only [Reply.returns, Bool.false_or, decide_eq_true_eq]; omega)]
    refine ⟨⟨?_, hbuffer', ?_, ?_, ?_, fun hne => absurd rfl hne, fun _ => ?_⟩, ?_⟩
    · rw [hpieces, ← hl]
      exact (answered_same r).2.1.trans hstays.bufferlen
    · simpa only [answered, hreply] using hfunc
    · rwa [hnextLen]
    · have hraised := hstays.raised.trans ht.raised
      simpa only [answered, hreply] using hraised
    · rw [hpieces]
      exact hsingle
    · rw [hturn, joined]
      exact congrArg some (congrArg flat (by rw [← hbuffer']))

variable (env) in
theorem read2Turn_mirrors {t : BTProtocol κ σ × Bytes} (ht : Reading t) : Mirrors env t (read2Turn env t) := by
  have hbufferlen := ht.bufferlen
  have hnonneg := ht.nonneg
  have hlast : t.2 = [] → ({ t.1 with buffer := t.2 } : BTProtocol κ σ) = t.1 := by
    intro hempty
    rw [hempty, ← ht.buffer]
  have hself : ({ t.1 with bufferlen := some t.1.pieces.flatten.length } : BTProtocol κ σ) = t.1 := by
    rw [← hbufferlen]
  unfold read2Turn
  dsimp only
  rw [hbufferlen, Option.getD_some]
  split
  · rename_i hclosed
    have hempty : t.2 = [] := by
      by_contra hne
      rw [(ht.fresh hne).1] at hclosed
      cases hclosed
    have hhalted : t.1.halted = true := by simp only [halted, hclosed, Bool.true_or]
    refine ⟨Or.inl hhalted, ?_⟩
    rw [joined, hlast hempty]
    exact settle_flat_of_halted hhalted
  · rename_i hclosed
    have hopen : t.1.closed = false := by simpa using hclosed
    split
    · -- A keepalive is read without any data.
      rename_i hzero
      have hempty : t.2 = [] := by
        by_contra hne
        have hshort := (ht.fresh hne).2
        omega
      have hcall := read2_called env (x := t.1.pieces) (m := []) (l := t.1.pieces.flatten.length) ht hopen
        (by rw [hzero]; rfl) (by rw [hzero, hempty, List.append_nil]; rfl) (ht.single hempty) rfl
        (by rw [hzero]; exact Nat.zero_le _)
      rwa [show ({ t.1 with pieces := t.1.pieces, bufferlen := some t.1.pieces.flatten.length } :
        BTProtocol κ σ) = t.1 from hself] at hcall
    · rename_i hzero
      split
      · rename_i hne
        obtain ⟨-, hshort⟩ := ht.fresh hne
        split
        · rename_i hlong
          have hflat : ({ t.1 with
              pieces := t.1.pieces ++ [t.2], bufferlen := some (t.1.pieces.flatten.length + t.2.length) } :
                BTProtocol κ σ).pieces.flatten = t.1.pieces.flatten ++ t.2 := by simp
          refine ⟨Or.inr ⟨?_, ht.buffer, ht.reads, ?_⟩, ?_⟩
          · rw [hflat, List.length_append]
          · rw [hflat, List.length_append]
            show ((t.1.pieces.flatten.length + t.2.length : Nat) : Int) < t.1.nextLen
            omega
          · have hjoined : joined t = flat ({ t.1 with
                pieces := t.1.pieces ++ [t.2], bufferlen := some (t.1.pieces.flatten.length + t.2.length) } :
                  BTProtocol κ σ) := by
              simp only [joined, flat, hbufferlen, ht.buffer, Option.map_some, List.flatten_append, List.flatten_cons,
                List.flatten_nil, List.append_nil]
            rw [← hjoined]
            refine Feed.settle_of_none (turn_of_short ?_ ?_)
            · simp only [joined, flat, hbufferlen, Option.map_some, Option.isSome_some]
            · simp only [joined, flat, List.length_append]
              omega
        · -- The data completes what was kept.
          rename_i hlong
          have hk : t.1.nextLen.toNat = t.1.pieces.flatten.length + (t.1.nextLen - t.1.pieces.flatten.length).toNat := by
            omega
          have hdrop : (t.1.pieces.flatten ++ t.2).drop t.1.nextLen.toNat =
              t.2.drop (t.1.nextLen - t.1.pieces.flatten.length).toNat := by
            rw [hk, List.drop_length_add_append]
          have hx : (if t.1.nextLen - (t.1.pieces.flatten.length : Int) = t.2.length then []
              else [t.2.drop (t.1.nextLen - t.1.pieces.flatten.length).toNat]).flatten =
                t.2.drop (t.1.nextLen - t.1.pieces.flatten.length).toNat := by
            split
            · rename_i hall
              rw [hall, Int.toNat_natCast, List.drop_length]
              rfl
            · simp
          refine read2_called env ht hopen ?_ (hx.trans hdrop.symm) ?_ ?_ ?_
          · rw [hk, List.take_length_add_append]
          · split
            · exact Nat.zero_le _
            · exact Nat.le_refl _
          · rw [hx, List.length_drop]
          · rw [List.length_append]
            omega
      · rename_i hnone
        have hempty : t.2 = [] := by simpa using hnone
        split
        · rename_i hle
          obtain ⟨x, hpieces⟩ : ∃ x, t.1.pieces = [x] := by
            have hsingle := ht.single hempty
            cases hcases : t.1.pieces with
            | nil =>
              rw [hcases, List.flatten_nil, List.length_nil] at hle
              omega
            | cons x xs =>
              rw [hcases, List.length_cons] at hsingle
              obtain rfl : xs = [] := List.length_eq_zero_iff.mp (by omega)
              exact ⟨x, rfl⟩
          have hflat : t.1.pieces.flatten = x := by rw [hpieces, List.flatten_cons, List.flatten_nil, List.append_nil]
          have hhead : t.1.pieces.headD [] = x := by rw [hpieces]; rfl
          rw [hhead, hflat]
          rw [hflat] at hle
          have hx : (if t.1.nextLen - (x.length : Int) = 0 then [] else [x.drop t.1.nextLen.toNat]).flatten =
              x.drop t.1.nextLen.toNat := by
            split
            · rename_i hall
              rw [show t.1.nextLen.toNat = x.length by omega, List.drop_length]
              rfl
            · simp
          refine read2_called env ht hopen ?_ ?_ ?_ ?_ ?_
          · rw [hflat, hempty, List.append_nil]
          · rw [hx, hflat, hempty, List.append_nil]
          · split
            · exact Nat.zero_le _
            · exact Nat.le_refl _
          · rw [hx, List.length_drop]
          · rw [hflat, hempty, List.append_nil]
            omega
        · rename_i hmore
          refine ⟨Or.inr ⟨hbufferlen, ht.buffer, ht.reads, by omega⟩, ?_⟩
          rw [joined, hlast hempty]
          refine Feed.settle_of_none (turn_of_short ?_ ?_)
          · simp only [flat, hbufferlen, Option.map_some, Option.isSome_some]
          · simp only [flat, ht.buffer, List.append_nil]
            omega

variable (env) in
theorem read2_flat (h : Reading (p, s)) :
    ((p.read2 env s).halted = true ∨ Late (p.read2 env s)) ∧
      (wire env).settle (joined (p, s)) = flat (p.read2 env s) := by
  have hsize : (joined (p, s)).size < p.size + 2 * s.length + 1 := by
    have hwork : ({ p with buffer := s } : BTProtocol κ σ).work = p.work := rfl
    have hbuffer : p.buffer = [] := h.buffer
    rw [joined, size_flat]
    simp only [size, hwork, hbuffer, List.length_nil]
    omega
  refine Feed.settle_eq_whileTrue (m := wire env) (read2Turn env) joined (fun t => flat t.1) Reading
    (fun t => t.1.halted = true ∨ Late t.1) ?_ ?_ h hsize
  · intro t t' ht hbody
    have hmirrors := read2Turn_mirrors env ht
    rw [hbody] at hmirrors
    exact hmirrors
  · intro t t' ht hbody
    have hmirrors := read2Turn_mirrors env ht
    rw [hbody] at hmirrors
    exact hmirrors

/-! ### The first reader -/

/-- A connection that has not gone over to the second reader. -/
structure Early (p : BTProtocol κ σ) : Prop where
  pieces : p.pieces = []
  bufferlen : p.bufferlen = none
  raised : p.raised = none
  waits : p.nextLen < 0 → p.nextFunc.searches = true

def Tidy (p : BTProtocol κ σ) : Prop := p.halted = true ∨ Early p ∨ Late p

theorem Early.flat_eq (h : Early p) : flat p = p := by
  simp only [flat, h.pieces, List.flatten_nil, List.nil_append, h.bufferlen, Option.map_none]
  rw [← h.pieces, ← h.bufferlen]

theorem Early.size_wake (h : Early p) : p.wake.size < p.size + 2 := by
  have hwork : p.wake.work ≤ p.work + 1 := by
    by_cases hneg : p.nextLen < 0
    · have hsearches := h.waits hneg
      unfold work
      rw [show p.wake.halted = p.halted from rfl, show p.wake.nextFunc = p.nextFunc from rfl]
      split
      · omega
      · cases hfunc : p.nextFunc with
        | readCryptoBlock3a maxSearch =>
          simp only [rank, hneg, ↓reduceIte]
          split <;> omega
        | readCryptoBlock4a maxSearch =>
          simp only [rank, hneg, ↓reduceIte]
          split <;> omega
        | _ => simp [hfunc, NextFunc.searches] at hsearches
    · rw [wake_of_nonneg (by omega)]
      omega
  have hbuffer : p.wake.pieces.flatten.length + p.wake.buffer.length = p.pieces.flatten.length + p.buffer.length := rfl
  unfold size
  omega

theorem searchForPattern_wake {pat : Bytes} {maxSearch : Int} :
    (p.wake).searchForPattern env m pat maxSearch =
      ((p.searchForPattern env m pat maxSearch).1, (p.searchForPattern env m pat maxSearch).2.1,
        (p.searchForPattern env m pat maxSearch).2.2.wake) := by
  unfold searchForPattern
  split
  · split
    · refine congrArg (fun q => (false, searched m pat maxSearch, q)) ?_
      unfold close
      rw [show p.wake.closed = p.closed from rfl]
      split <;> rfl
    · rfl
  · rfl

/-- A search does not look at what it was to be called with. -/
theorem call_wake (h : p.nextFunc.searches = true) : answered env (p.wake.call env m) = answered env (p.call env m) := by
  have hsame : p.wake.nextFunc = p.nextFunc := rfl
  have hencrypter : p.wake.encrypter = p.encrypter := rfl
  unfold call
  rw [hsame]
  cases hfunc : p.nextFunc with
  | readCryptoBlock3a maxSearch =>
    dsimp only
    unfold readCryptoBlock3a
    rw [hencrypter]
    split
    · rfl
    · dsimp only
      rw [searchForPattern_wake]
      split <;> rfl
  | readCryptoBlock4a maxSearch =>
    dsimp only
    unfold readCryptoBlock4a
    rw [hencrypter]
    split
    · rfl
    · rename_i c _
      have hwake : ({ p.wake with encrypter := some (c.VC_pattern env.prim).2 } : BTProtocol κ σ) =
          wake { p with encrypter := some (c.VC_pattern env.prim).2 } := rfl
      dsimp only
      rw [hwake, searchForPattern_wake]
      split
      · unfold startCrypto
        rename_i hfound
        rw [show ∀ q : BTProtocol κ σ, q.wake.encrypter = q.encrypter from fun _ => rfl]
        split <;> rfl
      · rfl
  | _ => simp [hfunc, NextFunc.searches] at h

variable (env) in
def EarlyMirrors (p : BTProtocol κ σ) : Loop (BTProtocol κ σ) → Prop
  | .again q => (Early q ∧ 0 ≤ q.nextLen) ∧ turn env p.wake = some q.wake
  | .back q => Tidy q ∧ (wire env).settle p.wake = flat q

theorem readCall_mirrors {m : Bytes} (hq : Early q)
    (hturn : turn env p.wake = some (flat (answered env (q.call env m)))) : EarlyMirrors env p (readCall env m q) := by
  unfold readCall
  dsimp only
  set r := q.call env m with hr
  have hhalted : (answered env r).halted = true → EarlyMirrors env p (.back (answered env r)) := fun h =>
    ⟨Or.inl h, (Feed.settle_of_turn hturn).trans (settle_flat_of_halted h)⟩
  have hswitch : Stays q r ∨ (r.2 = .next 4 .readLen ∨ ∃ e, r.2 = .raises e) ∧ r.1.pieces = [q.buffer] ∧
      r.1.bufferlen = some q.buffer.length ∧ r.1.buffer = [] ∧ r.1.raised = q.raised := by
    by_cases hpeer : q.nextFunc = .readPeerId
    · have hcall : r = q.readPeerId env m := by rw [hr, call, hpeer]
      rw [hcall]
      exact readPeerId_switches
    · exact Or.inl (call_stays env m hpeer)
  rcases hswitch with hstays | ⟨hreply | ⟨e, hreply⟩, hpieces, hbufferlen, hbuffer, hraised⟩
  · have hpieces : (answered env r).pieces = [] := (answered_same r).1.trans (hstays.pieces.trans hq.pieces)
    have hbufferlen : (answered env r).bufferlen = none :=
      (answered_same r).2.1.trans (hstays.bufferlen.trans hq.bufferlen)
    have hraised : r.1.raised = none := hstays.raised.trans hq.raised
    have hagain : Early (answered env r) → 0 ≤ (answered env r).nextLen → EarlyMirrors env p (.again (answered env r)) := by
      intro hearly hlen
      refine ⟨⟨hearly, hlen⟩, ?_⟩
      rw [wake_of_nonneg hlen, hturn, hearly.flat_eq]
    cases hreply : r.2 with
    | isNone =>
      refine hhalted ?_
      simp only [answered, hreply, halted, close_same, Bool.true_or]
    | raises e =>
      refine hhalted ?_
      simp only [answered, hreply, halted, Option.isSome_some, Bool.or_true]
    | isTrue =>
      have hanswered : answered env r = r.1 := by simp only [answered, hreply]
      have hlen : 0 ≤ (answered env r).nextLen := by rw [hanswered]; exact hstays.kept hreply
      rw [hbufferlen, if_neg (by simp only [Reply.returns, Bool.false_or, decide_eq_true_eq]; omega), if_neg (by simp)]
      exact hagain ⟨hpieces, hbufferlen, by rw [hanswered]; exact hraised, fun hneg => by omega⟩ hlen
    | next len func =>
      have hnextLen : (answered env r).nextLen = len := by simp only [answered, hreply]
      have hnextFunc : (answered env r).nextFunc = func := by simp only [answered, hreply]
      have hearly : Early (answered env r) :=
        ⟨hpieces, hbufferlen, by simpa only [answered, hreply] using hraised, fun hneg => by
          rw [hnextLen] at hneg
          rw [hnextFunc]
          exact hstays.waits len func hreply hneg⟩
      by_cases hneg : len < 0
      · rw [if_pos (by rw [hnextLen]; simpa [Reply.returns] using hneg)]
        refine ⟨Or.inr (Or.inl hearly), (Feed.settle_of_turn hturn).trans (Feed.settle_of_none ?_)⟩
        rw [hearly.flat_eq]
        refine if_neg ?_
        rintro ⟨-, hlen, -⟩
        omega
      · rw [hbufferlen, if_neg (by rw [hnextLen]; simpa [Reply.returns] using hneg), if_neg (by simp)]
        exact hagain hearly (by omega)
  · -- The second reader takes over with what the buffer was.
    have hanswered : answered env r = { r.1 with nextLen := 4, nextFunc := .readLen } := by
      simp only [answered, hreply]
    have hreading : Reading (answered env r, []) := by
      rw [hanswered]
      refine ⟨?_, hbuffer, rfl, Int.zero_le_ofNat 4, hraised.trans hq.raised, fun hne => absurd rfl hne, fun _ => ?_⟩
      · rw [hbufferlen, hpieces, List.flatten_cons, List.flatten_nil, List.append_nil]
      · rw [hpieces]
        exact Nat.le_refl _
    have hsome : (answered env r).bufferlen.isSome = true := by rw [hreading.bufferlen]; rfl
    have hnextLen : (answered env r).nextLen = 4 := by rw [hanswered]
    rw [hreply, hnextLen, if_neg (by decide), if_pos hsome]
    obtain ⟨htidy, hsettle⟩ := read2_flat env hreading
    refine ⟨htidy.imp_right Or.inr, (Feed.settle_of_turn hturn).trans ?_⟩
    rw [← hsettle, joined]
    exact congrArg _ (congrArg flat (by rw [← hreading.buffer]))
  · rw [if_pos (by rw [hreply]; rfl)]
    refine hhalted ?_
    simp only [answered, hreply, halted, Option.isSome_some, Bool.or_true]

variable (env) in
theorem readTurn_mirrors (hp : Early p) (hclosed : p.closed = true → 0 ≤ p.nextLen) :
    EarlyMirrors env p (readTurn env p) := by
  have hhalted : p.wake.halted = p.closed := by
    rw [show p.wake.halted = p.halted from rfl, halted, hp.raised, Option.isSome_none, Bool.or_false]
  unfold readTurn
  split
  · rename_i hclosed'
    refine ⟨Or.inl (by rw [halted, hclosed', Bool.true_or]), ?_⟩
    rw [hp.flat_eq, wake_of_nonneg (hclosed hclosed')]
    exact Feed.settle_of_none (turn_of_halted (by rw [halted, hclosed', Bool.true_or]))
  · rename_i hopen
    have hopen' : p.wake.halted = false := by rw [hhalted]; simpa using hopen
    split
    · rename_i hle
      have hzero : p.wake.nextLen = 0 := by
        show max p.nextLen 0 = 0
        omega
      have hdemand : p.wake.demand = p.buffer.length := by
        unfold demand
        rw [if_pos ⟨hzero, hp.bufferlen⟩]
        rfl
      have hrest : p.wake.rest = wake { p with buffer := [] } := by
        unfold rest
        rw [hdemand]
        simp only [wake, List.drop_length]
      refine readCall_mirrors ⟨hp.pieces, hp.bufferlen, hp.raised, hp.waits⟩ ?_
      unfold turn
      rw [if_pos ⟨hopen', by rw [hzero], by rw [hdemand]; exact Nat.le_refl _⟩, hrest, hdemand]
      rw [show p.wake.buffer.take p.buffer.length = p.buffer from List.take_length]
      by_cases hneg : p.nextLen < 0
      · rw [call_wake (p := { p with buffer := [] }) (hp.waits hneg)]
      · rw [wake_of_nonneg (p := { p with buffer := [] }) (show 0 ≤ p.nextLen by omega)]
    · rename_i hpos
      have hwake : p.wake = p := wake_of_nonneg (by omega)
      have hdemand : p.demand = p.nextLen.toNat := by
        unfold demand
        rw [if_neg (by rintro ⟨hzero, -⟩; omega)]
      split
      · rename_i henough
        refine readCall_mirrors ⟨hp.pieces, hp.bufferlen, hp.raised, hp.waits⟩ ?_
        rw [hwake] at hopen' ⊢
        unfold turn
        rw [if_pos ⟨hopen', by omega, by rw [hdemand]; omega⟩, rest, hdemand]
      · rename_i hshort
        refine ⟨Or.inr (Or.inl hp), ?_⟩
        rw [hwake, hp.flat_eq]
        refine Feed.settle_of_none (if_neg ?_)
        rintro ⟨-, -, henough⟩
        rw [hdemand] at henough
        omega

variable (env s) in
theorem read_flat (hp : Early p) (hclosed : p.closed = false) :
    Tidy (p.read env s) ∧ (wire env).settle (wake { p with buffer := p.buffer ++ s }) = flat (p.read env s) := by
  have hlonger : Early ({ p with buffer := p.buffer ++ s } : BTProtocol κ σ) :=
    ⟨hp.pieces, hp.bufferlen, hp.raised, hp.waits⟩
  refine Feed.settle_eq_whileTrue (m := wire env) (t := { p with buffer := p.buffer ++ s }) (readTurn env) wake flat
    (fun q => Early q ∧ (q.closed = true → 0 ≤ q.nextLen)) Tidy ?_ ?_ ⟨hlonger, ?_⟩ hlonger.size_wake
  · rintro q q' ⟨hq, hqclosed⟩ hbody
    have hmirrors := readTurn_mirrors env hq hqclosed
    rw [hbody] at hmirrors
    exact ⟨⟨hmirrors.1.1, fun _ => hmirrors.1.2⟩, hmirrors.2⟩
  · rintro q q' ⟨hq, hqclosed⟩ hbody
    have hmirrors := readTurn_mirrors env hq hqclosed
    rw [hbody] at hmirrors
    exact hmirrors
  · intro h
    rw [show ({ p with buffer := p.buffer ++ s } : BTProtocol κ σ).closed = p.closed from rfl, hclosed] at h
    cases h

variable (env) in
/-- **The two readers are one.** Whatever way the connection keeps its data, what is delivered does to it
what it does to the protocol with one buffer. -/
theorem deliver_flat (hp : Tidy p) (hs : s ≠ []) :
    Tidy (p.deliver env s) ∧ flat (p.deliver env s) = (wire env).feed (flat p) s := by
  unfold deliver
  by_cases hhalted : p.halted = true
  · rw [if_pos hhalted]
    refine ⟨hp, ?_⟩
    have hpush : (wire env).push s (flat p) = flat p := if_pos (Or.inr hhalted)
    rw [Feed.feed, hpush]
    exact (settle_flat_of_halted hhalted).symm
  · rw [if_neg hhalted]
    have hclosed : p.closed = false := by
      simp only [halted, Bool.or_eq_true, not_or] at hhalted
      simpa using hhalted.1
    have hpush : (wire env).push s (flat p) = ((flat p).more env s).wake :=
      if_neg (by rintro (hnil | hstop) <;> contradiction)
    rw [Feed.feed, hpush]
    have hreceived : p.dataReceived env s = rawRead env (decoded env p.crypted p.encrypter s).1
        { p with encrypter := (decoded env p.crypted p.encrypter s).2 } := rfl
    rw [hreceived, rawRead]
    rcases hp with hhalted' | hearly | hlate
    · exact absurd hhalted' hhalted
    · have hearly' : Early ({ p with encrypter := (decoded env p.crypted p.encrypter s).2 } : BTProtocol κ σ) :=
        ⟨hearly.pieces, hearly.bufferlen, hearly.raised, hearly.waits⟩
      obtain ⟨htidy, hsettle⟩ := read_flat env (decoded env p.crypted p.encrypter s).1 hearly' hclosed
      rw [if_neg (by rw [hearly'.bufferlen]; simp), ← hsettle, hearly.flat_eq]
      exact ⟨htidy, rfl⟩
    · have hraised : p.raised = none := by
        simp only [halted, Bool.or_eq_true, not_or] at hhalted
        simpa using hhalted.2
      have hlen : 0 ≤ p.nextLen := by
        have hshort := hlate.short
        omega
      have hreading : Reading ({ p with encrypter := (decoded env p.crypted p.encrypter s).2 },
          (decoded env p.crypted p.encrypter s).1) := by
        refine ⟨hlate.bufferlen, hlate.buffer, hlate.reads, hlen, hraised, fun _ => ⟨hclosed, hlate.short⟩, fun hnil => ?_⟩
        have hlength := congrArg List.length hnil
        rw [decoded_length, List.length_nil] at hlength
        exact absurd (List.length_eq_zero_iff.mp hlength) hs
      have hsome : ({ p with encrypter := (decoded env p.crypted p.encrypter s).2 } : BTProtocol κ σ).bufferlen.isSome =
          true := by
        rw [hreading.bufferlen]
        rfl
      have hjoined : joined ({ p with encrypter := (decoded env p.crypted p.encrypter s).2 },
          (decoded env p.crypted p.encrypter s).1) = ((flat p).more env s).wake := by
        rw [wake_of_nonneg (show 0 ≤ ((flat p).more env s).nextLen from hlen)]
        simp only [joined, flat, more, hlate.buffer, List.append_nil]
      obtain ⟨htidy, hsettle⟩ := read2_flat env hreading
      rw [if_pos hsome, ← hsettle, hjoined]
      exact ⟨htidy.imp_right Or.inr, rfl⟩

theorem deliver_foldl (hp : Tidy p) {cuts : List Bytes} (hcuts : [] ∉ cuts) :
    flat (cuts.foldl (deliver env) p) = cuts.foldl (wire env).feed (flat p) := by
  induction cuts generalizing p with
  | nil => rfl
  | cons s cuts ih =>
    rw [List.mem_cons, not_or] at hcuts
    obtain ⟨hs, hcuts⟩ := hcuts
    obtain ⟨htidy, hflat⟩ := deliver_flat env hp (Ne.symm hs)
    rw [List.foldl_cons, List.foldl_cons, ih htidy hcuts, hflat]

end BTProtocol

end BitBlinder.PeerWire
