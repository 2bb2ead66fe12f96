import BitBlinder.BitTorrent.TwoReaders

/-!
# Data that comes later

Most functions of the protocol do the same whatever stands behind the data they were called with.
-/

namespace BitBlinder.PeerWire

open Struct (Bytes packBE unpackBE)
open Search (find lastItems)

set_option autoImplicit false

namespace BTProtocol
variable {κ σ : Type} {env : Context κ σ} {p q : BTProtocol κ σ} {b s m : Bytes}

/-! ## Operations -/

theorem more_of_raw (h : p.crypted = false) : p.more env b = { p with buffer := p.buffer ++ b } := by
  simp only [more, decoded, h]

theorem write_more : (p.more env b).write env s = (p.write env s).more env b := by
  unfold write more
  dsimp only
  cases hcrypted : p.crypted with
  | false =>
    simp only [decoded, writeRaw]
    split <;> simp [hcrypted]
  | true =>
    cases hencrypter : p.encrypter with
    | none =>
      simp only [decoded, writeRaw]
      split <;> simp [hcrypted, hencrypter]
    | some c =>
      simp only [decoded, writeRaw]
      split <;> simp [Crypto.encrypt, Crypto.decrypt]

theorem close_more : (p.more env b).close env = (p.close env).more env b := by
  unfold close
  rw [show (p.more env b).closed = p.closed from rfl]
  split <;> rfl

theorem react_more {actions : List Action} : (p.more env b).react env actions = (p.react env actions).more env b := by
  unfold react
  induction actions generalizing p with
  | nil => rfl
  | cons a actions ih =>
    rw [List.foldl_cons, List.foldl_cons]
    cases a with
    | write s => rw [act, act, ← ih, write_more]
    | close => rw [act, act, ← ih, close_more]

theorem told_more {r : Reaction σ} {e : Encoder σ} : (p.more env b).told env r e = (p.told env r e).more env b :=
  react_more (p := { p with encoder := some { e with connecter := r.next } })

theorem padded_more : (p.more env b).padded = p.padded.more env b := rfl

theorem writeBuffer_more : (p.more env b).writeBuffer s = (p.writeBuffer s).more env b := by
  simp only [writeBuffer, more, List.append_assoc]

/-- The encryption starts with all that has come. -/
theorem startCrypto_more (h : p.crypted = false) : (p.more env b).startCrypto env = (p.startCrypto env).more env b := by
  rw [more_of_raw h]
  unfold startCrypto more
  dsimp only
  cases p.encrypter with
  | none => rfl
  | some c => simp only [decoded, Crypto.decrypt, StreamCipher.update_append]

/-! ## Functions -/

/-- A function that does not look at what comes later. -/
def Steady (env : Context κ σ) (f : BTProtocol κ σ → BTProtocol κ σ × Reply) (p : BTProtocol κ σ) : Prop :=
  ∀ b, f (p.more env b) = ((f p).1.more env b, (f p).2)

theorem readHeader_steady (h : p.crypted = false) : Steady env (readHeader env s) p := by
  intro b
  rw [more_of_raw h]
  unfold readHeader
  dsimp only
  repeat' split
  all_goals simp [more, decoded, writeBuffer, h]

theorem readHeaderIncoming_steady (h : p.crypted = false) : Steady env (readHeaderIncoming env s) p := by
  intro b
  rw [more_of_raw h]
  unfold readHeaderIncoming
  dsimp only
  repeat' split
  all_goals simp [more, decoded, writeBuffer, h]

theorem readCryptoHeader_steady (h : p.crypted = false) : Steady env (readCryptoHeader env s) p := by
  intro b
  have hencrypter : (p.more env b).encrypter = p.encrypter := by rw [more_of_raw h]
  unfold readCryptoHeader
  rw [hencrypter, show (p.more env b).encoder = p.encoder from rfl]
  split
  · dsimp only
    rw [← write_more, more_of_raw (p := { p.padded with encrypter := _ }) h, more_of_raw h]
    rfl
  · rfl

theorem readCryptoHeaderIncoming_steady (h : p.crypted = false) : Steady env (readCryptoHeaderIncoming env s) p := by
  intro b
  have hencrypter : (p.more env b).encrypter = p.encrypter := by rw [more_of_raw h]
  unfold readCryptoHeaderIncoming
  rw [hencrypter]
  split
  · rfl
  · dsimp only
    rw [← write_more, more_of_raw (p := { p.padded with encrypter := _ }) h, more_of_raw h]
    rfl

theorem readCryptoBlock3b_steady (h : p.crypted = false) : Steady env (readCryptoBlock3b env s) p := by
  intro b
  have hencrypter : (p.more env b).encrypter = p.encrypter := by rw [more_of_raw h]
  unfold readCryptoBlock3b
  rw [hencrypter]
  split
  · rfl
  · split
    · rfl
    · rename_i c k srs _
      have hmore : ({ p.more env b with encrypter := some c } : BTProtocol κ σ) =
          more env b { p with encrypter := some c } := by
        rw [more_of_raw h, more_of_raw (p := { p with encrypter := some c }) h]
      unfold externalConnectionMade
      rw [hmore, show (more env b { p with encrypter := some c }).registered = p.registered from rfl]
      dsimp only
      cases admission env p.registered k srs with
      | notRunning => rfl
      | refused => exact congrArg (·, Reply.isNone) close_more
      | nameError => rfl
      | admitted =>
        dsimp only [externalHandshakeDone]
        split
        · rw [← startCrypto_more (p := { p with
            encoder := some srs.handler, registered := k :: p.registered, encrypted := true, encrypter := some c,
            nextLen := 14, nextFunc := .readCryptoBlock3c }) h,
            more_of_raw (p := { p with
            encoder := some srs.handler, registered := k :: p.registered, encrypted := true, encrypter := some c,
            nextLen := 14, nextFunc := .readCryptoBlock3c }) h, more_of_raw (p := { p with encrypter := some c }) h]
        · rw [more_of_raw (p := { p with
            encoder := some srs.handler, registered := k :: p.registered, encrypted := true, encrypter := some c,
            nextLen := 14, nextFunc := .readCryptoBlock3c }) h, more_of_raw (p := { p with encrypter := some c }) h]

theorem readCryptoBlock3c_steady : Steady env (readCryptoBlock3c s) p := by
  intro b
  unfold readCryptoBlock3c
  rw [show (p.more env b).encoder = p.encoder from rfl]
  dsimp only
  repeat' split
  all_goals rfl

theorem readCryptoBlock3done_steady (h : p.cryptmode ≠ 1) : Steady env (readCryptoBlock3done s) p := by
  intro b
  unfold readCryptoBlock3done
  rw [if_neg h, if_neg (show (p.more env b).cryptmode ≠ 1 from h), writeBuffer_more]

theorem readCryptoBlock4done_steady (h : p.cryptmode ≠ 1) : Steady env (readCryptoBlock4done env) p := by
  intro b
  unfold readCryptoBlock4done
  rw [show (p.more env b).encoder = p.encoder from rfl]
  split
  · rfl
  · rw [if_neg h, if_neg (show (p.more env b).cryptmode ≠ 1 from h), write_more]

/-- The last pad before the initial payload, where nothing or something has to follow. -/
theorem readCryptoPad3_steady (h : p.cryptmode = 1 → unpackBE (lastItems 2 s) ≠ 0) :
    Steady env (readCryptoPad3 env s) p := by
  intro b
  unfold readCryptoPad3
  rw [show (p.more env b).cryptmode = p.cryptmode from rfl,
    show (p.more env b).padding env = p.padding env from rfl]
  dsimp only
  rw [padded_more, write_more]
  split
  · rfl
  · rename_i hnone
    exact readCryptoBlock3done_steady (fun hmode => h (by simpa [padded] using hmode) (by simpa using hnone)) b

/-- The answer of the peer to an outgoing connection, as long as no pad is to be left out. -/
theorem readCryptoBlock4b_steady (h : unpackBE ((s.drop 4).take 2) ≠ 0 ∨ unpackBE (s.take 4) % 4 ≠ 1) :
    Steady env (readCryptoBlock4b env s) p := by
  intro b
  unfold readCryptoBlock4b
  rw [show (p.more env b).encoder = p.encoder from rfl]
  dsimp only
  split
  · rfl
  · split
    · rfl
    · split
      · rfl
      · split
        · rfl
        · split
          · rfl
          · rename_i hpad
            exact readCryptoBlock4done_steady (p := { p with cryptmode := unpackBE (s.take 4) % 4 })
              (h.resolve_left (by simpa using hpad)) b

theorem readEncryptedHeader_steady : Steady env (readEncryptedHeader s) p := by
  intro b
  unfold readEncryptedHeader
  split <;> rfl

theorem readOptions_steady : Steady env (readOptions s) p := fun _ => rfl

theorem readDownloadId_steady : Steady env (readDownloadId env s) p := by
  intro b
  unfold readDownloadId
  rw [show (p.more env b).encoder = p.encoder from rfl,
    show (p.more env b).locallyInitiated = p.locallyInitiated from rfl]
  split
  · rfl
  · split
    · rfl
    · split
      · rfl
      · rw [write_more]

theorem readDownloadIdIncoming_steady : Steady env (readDownloadIdIncoming env s) p := by
  intro b
  unfold readDownloadIdIncoming
  split
  · rfl
  · rename_i k srs _
    split
    · unfold externalConnectionMade
      rw [show (p.more env b).registered = p.registered from rfl]
      cases admission env p.registered k srs with
      | notRunning => rfl
      | refused => exact congrArg (·, Reply.isNone) close_more
      | nameError => rfl
      | admitted =>
        dsimp only
        exact congrArg (fun r => (r.1, Reply.isTrue))
          (readDownloadId_steady (p := externalHandshakeDone srs.handler none p.options
            { p with registered := k :: p.registered }) b)
    · rfl

theorem readLen_steady : Steady env (readLen s) p := by
  intro b
  unfold readLen
  rw [show (p.more env b).encoder = p.encoder from rfl]
  dsimp only
  repeat' split
  all_goals rfl

theorem readMessage_steady : Steady env (readMessage env s) p := by
  intro b
  unfold readMessage
  rw [show (p.more env b).encoder = p.encoder from rfl]
  split
  · rfl
  · split
    · rfl
    · rename_i e _
      have htold : told env (env.connecter.gotMessage e.connecter s) e
          (more env b { p with messages := p.messages ++ [s] }) = _ := told_more
      dsimp only
      split
      · exact congrArg (·, Reply.raises PyError.connecter) htold
      · exact congrArg (·, Reply.next 4 NextFunc.readLen) htold

/-! ## Turns -/

theorem answered_more (r : BTProtocol κ σ × Reply) : answered env (r.1.more env b, r.2) = (answered env r).more env b := by
  obtain ⟨p, reply⟩ := r
  cases reply with
  | isNone => exact close_more
  | isTrue => rfl
  | next len func => rfl
  | raises e => rfl

theorem flat_more : flat (p.more env b) = (flat p).more env b := by
  simp only [flat, more, List.append_assoc]

def SteadyCall (env : Context κ σ) (s : Bytes) (p : BTProtocol κ σ) : Prop :=
  ∀ b, flat (answered env ((p.more env b).call env s)) = (flat (answered env (p.call env s))).more env b

theorem Steady.call {f : BTProtocol κ σ → BTProtocol κ σ × Reply} (h : Steady env f p)
    (hcall : ∀ q : BTProtocol κ σ, q.nextFunc = p.nextFunc → q.locallyInitiated = p.locallyInitiated →
      q.call env s = f q) : SteadyCall env s p := by
  intro b
  rw [hcall p rfl rfl, hcall (p.more env b) rfl rfl, h b, answered_more, flat_more]

/-- A connection whose messages have begun, with one buffer. -/
def begun (p : BTProtocol κ σ) : BTProtocol κ σ := { p with pieces := [], bufferlen := some 0 }

theorem flat_told_switch {r : Reaction σ} {e : Encoder σ} : flat (told env r e p.switchToRead2) = begun (told env r e p) := by
  have hswitch : told env r e p.switchToRead2 = (told env r e p).withData [] [p.buffer] (some p.buffer.length) :=
    told_withData (p := p)
  rw [hswitch]
  simp only [flat, withData, begun, List.flatten_cons, List.flatten_nil, List.append_nil, Option.map_some, told_same]

theorem begun_more_told {r : Reaction σ} {e : Encoder σ} :
    flat (told env r e (p.more env b).switchToRead2) = (flat (told env r e p.switchToRead2)).more env b := by
  rw [flat_told_switch, flat_told_switch, told_more]
  rfl

theorem readPeerId_steadyCall (h : p.nextFunc = .readPeerId) : SteadyCall env s p := by
  intro b
  have hcall : ∀ q : BTProtocol κ σ, q.nextFunc = .readPeerId → q.call env s = q.readPeerId env s := by
    intro q hq
    unfold call
    rw [hq]
  rw [hcall p h, hcall (p.more env b) h]
  unfold readPeerId
  rw [show (p.more env b).encoder = p.encoder from rfl]
  split
  · rw [← flat_more, ← answered_more]
  · rename_i e _
    have htold : flat (told env (env.connecter.connectionMade e.connecter) e
        (more env b { p with id := s, complete := e.gotId s }).switchToRead2) = _ := begun_more_told
    rw [show (p.more env b).encrypted = p.encrypted from rfl, show (p.more env b).id = p.id from rfl]
    dsimp only
    split
    · rw [← flat_more, ← answered_more]
    · split
      · rw [← flat_more, ← answered_more]
      · split
        · rw [← flat_more, ← answered_more]
          rfl
        · split
          · exact congrArg (fun q : BTProtocol κ σ =>
              { q with nextLen := 1, nextFunc := .readDead, raised := some .connecter }) htold
          · exact congrArg (fun q : BTProtocol κ σ => { q with nextLen := 4, nextFunc := .readLen }) htold

/-- A turn that does not look at what comes later is the same when that has come. -/
theorem turn_more (hlen : p.nextLen = 0 → p.bufferlen ≠ none)
    (hsteady : SteadyCall env (p.buffer.take p.demand) p.rest) (h : turn env p = some q) :
    turn env (p.more env b) = some (q.more env b) := by
  unfold turn at h
  split at h
  · rename_i hgo
    obtain ⟨hhalted, hnonneg, hdemand⟩ := hgo
    obtain rfl := Option.some.inj h
    have hsame : (p.more env b).demand = p.demand := by
      have hno : ¬ (p.nextLen = 0 ∧ p.bufferlen = none) := fun ⟨hzero, hnone⟩ => hlen hzero hnone
      have hno' : ¬ ((p.more env b).nextLen = 0 ∧ (p.more env b).bufferlen = none) := hno
      rw [demand, demand, if_neg hno, if_neg hno']
      rfl
    have hrest : (p.more env b).rest = p.rest.more env b := by
      unfold rest
      rw [hsame]
      simp only [more, List.drop_append_of_le_length hdemand]
    have htake : (p.more env b).buffer.take p.demand = p.buffer.take p.demand := by
      simp only [more, List.take_append_of_le_length hdemand]
    have henough : p.demand ≤ (p.more env b).buffer.length := by
      simp only [more, List.length_append]
      omega
    unfold turn
    rw [hsame, if_pos ⟨hhalted, hnonneg, henough⟩, hrest, htake, hsteady b]
  · cases h

end BTProtocol
end BitBlinder.PeerWire
