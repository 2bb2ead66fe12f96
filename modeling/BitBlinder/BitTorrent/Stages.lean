import BitBlinder.BitTorrent.PeerStreams

/-!
# The stages of a connection

What holds of a connection before each function that reads, and what a turn makes of it.
-/

namespace BitBlinder.PeerWire

open Struct (Bytes packBE unpackBE)
open Search (find lastItems)

set_option autoImplicit false

/-! ## The same of a connection on its way -/

namespace BTProtocol
variable {κ σ : Type} (env : Context κ σ)

/-- `surplus` of what a connection has not read. -/
def surplusOf (p : BTProtocol κ σ) : Nat :=
  match p.nextFunc with
  | .readHeader =>
    if p.locallyInitiated then 0
    else
      match afterKey env.config.cryptoAllowed p.buffer with
      | some (k, s) =>
        surplusBlock3a env p.registered ((Crypto.new env.prim false env.privkey).receivedKey env.prim k) s
      | none => 0
  | .readCryptoHeader =>
    match p.locallyInitiated, p.encrypter with
    | false, some c =>
      if DH_BYTES ≤ p.buffer.length then
        surplusBlock3a env p.registered (c.receivedKey env.prim (p.buffer.take DH_BYTES)) (p.buffer.drop DH_BYTES)
      else 0
    | _, _ => 0
  | .readCryptoBlock3a _ =>
    match p.encrypter with
    | some c => surplusBlock3a env p.registered c p.buffer
    | none => 0
  | .readCryptoBlock3b =>
    match p.encrypter with
    | some c => surplusBlock3b env p.registered c p.buffer
    | none => 0
  | .readCryptoBlock3c =>
    match p.encoder with
    | some e => surplusBlock3c e.config p.buffer
    | none => 0
  | .readCryptoPad3 => if p.cryptmode = 1 then surplusPad3 p.nextLen.toNat p.buffer else 0
  | .readCryptoIa => if p.cryptmode = 1 then surplusIa p.nextLen.toNat p.buffer else 0
  | _ => 0

/-- `decided` of what a connection has not read. -/
def decidedOf (p : BTProtocol κ σ) : Bool :=
  match p.nextFunc, p.encoder, p.encrypter with
  | .readHeader, some e, some c =>
    p.locallyInitiated && p.encrypted &&
      match afterKey e.config.cryptoAllowed p.buffer with
      | some (k, s) =>
        decidesBlock4a env.prim e.config ((c.receivedKey env.prim k).setSkey env.prim e.downloadId) 520 s
      | none => false
  | .readCryptoHeader, some e, some c =>
    p.locallyInitiated && DH_BYTES ≤ p.buffer.length &&
      decidesBlock4a env.prim e.config
        ((c.receivedKey env.prim (p.buffer.take DH_BYTES)).setSkey env.prim e.downloadId) 520 (p.buffer.drop DH_BYTES)
  | .readCryptoBlock4a maxSearch, some e, some c => decidesBlock4a env.prim e.config c maxSearch p.buffer
  | .readCryptoBlock4b, some e, _ => decidesBlock4b e.config p.buffer
  | .readCryptoPad4, _, _ => p.nextLen.toNat ≤ p.buffer.length
  | _, _, _ => false

/-- The pattern that is searched or will be, with the text and the places that are tried. -/
def sought (p : BTProtocol κ σ) : Option (Bytes × Bytes × Int) :=
  match p.nextFunc, p.locallyInitiated, p.encoder, p.encrypter with
  | .readHeader, false, _, _ =>
    (afterKey env.config.cryptoAllowed p.buffer).map fun x =>
      (((Crypto.new env.prim false env.privkey).receivedKey env.prim x.1).block3a, x.2, 520)
  | .readHeader, true, some e, some c =>
    if p.encrypted then
      (afterKey e.config.cryptoAllowed p.buffer).map fun x =>
        ((((c.receivedKey env.prim x.1).setSkey env.prim e.downloadId).VC_pattern env.prim).1, x.2, 520)
    else none
  | .readCryptoHeader, false, _, some c =>
    if DH_BYTES ≤ p.buffer.length then
      some ((c.receivedKey env.prim (p.buffer.take DH_BYTES)).block3a, p.buffer.drop DH_BYTES, 520)
    else none
  | .readCryptoHeader, true, some e, some c =>
    if DH_BYTES ≤ p.buffer.length then
      some ((((c.receivedKey env.prim (p.buffer.take DH_BYTES)).setSkey env.prim e.downloadId).VC_pattern env.prim).1,
        p.buffer.drop DH_BYTES, 520)
    else none
  | .readCryptoBlock3a maxSearch, _, _, some c => some (c.block3a, p.buffer, maxSearch)
  | .readCryptoBlock4a maxSearch, _, _, some c => some ((c.VC_pattern env.prim).1, p.buffer, maxSearch)
  | _, _, _, _ => none

/-- The pattern comes before the search is given up, if it comes. -/
def InReach (p : BTProtocol κ σ) : Prop :=
  ∀ pat text maxSearch, p.sought env = some (pat, text, maxSearch) → ∀ i, find pat text = some i → (i : Int) ≤ maxSearch

/-- What is to be read next goes with what was read. -/
def Staged (p : BTProtocol κ σ) : Prop :=
  p.pieces = [] ∧ p.raised = none ∧
    match p.nextFunc with
    | .readHeader =>
      p.crypted = false ∧ p.bufferlen = none ∧ p.nextLen = pstr.length ∧
        (p.locallyInitiated = true → ∃ e, p.encoder = some e ∧
          (p.encrypted = true → ∃ c, p.encrypter = some c ∧ c.vcPattern = none))
    | .readCryptoHeader =>
      p.crypted = false ∧ p.bufferlen = none ∧ p.nextLen = DH_BYTES ∧ (p.locallyInitiated = true → ∃ e, p.encoder = some e) ∧
        ∃ c, p.encrypter = some c ∧ c.vcPattern = none
    | .readCryptoBlock3a maxSearch =>
      p.crypted = false ∧ p.bufferlen = none ∧ p.nextLen ≤ 0 ∧ 0 ≤ maxSearch ∧
        ∃ c, p.encrypter = some c ∧ 1 < c.block3a.length
    | .readCryptoBlock3b => p.crypted = false ∧ p.bufferlen = none ∧ p.nextLen = 20
    | .readCryptoBlock3c => p.bufferlen = none ∧ p.nextLen = 14
    | .readCryptoPad3 => p.bufferlen = none ∧ 2 ≤ p.nextLen
    | .readCryptoBlock4a maxSearch =>
      p.crypted = false ∧ p.bufferlen = none ∧ p.nextLen ≤ 1 ∧ 0 ≤ maxSearch ∧
        ∃ e c, p.encoder = some e ∧ p.encrypter = some c ∧ 1 < (c.VC_pattern env.prim).1.length
    | .readCryptoBlock4b => p.bufferlen = none ∧ p.nextLen = 6 ∧ ∃ e, p.encoder = some e
    | .readCryptoIa | .readCryptoPad4 | .readEncryptedHeader | .readOptions | .readDownloadId | .readPeerId =>
      p.bufferlen = none ∧ 0 < p.nextLen
    | .readLen | .readMessage => p.bufferlen = some 0 ∧ 0 ≤ p.nextLen
    | .readDead => False

end BTProtocol

/-! ## The key and the pattern of the peer -/

section Key
variable {cryptoAllowed : Bool} {w : Bytes}

theorem afterKey_of_plain (h : w.take pstr.length = pstr) : afterKey cryptoAllowed w = none := by
  unfold afterKey
  rw [if_neg]
  rintro ⟨-, hne, -⟩
  exact hne h

theorem afterKey_of_refused (h : cryptoAllowed = false) : afterKey cryptoAllowed w = none := by
  unfold afterKey
  rw [if_neg]
  rintro ⟨-, -, hallowed, -⟩
  rw [h] at hallowed
  cases hallowed

theorem afterKey_of_crypto (hlength : pstr.length ≤ w.length) (hne : w.take pstr.length ≠ pstr)
    (hallowed : cryptoAllowed = true) : afterKey cryptoAllowed w =
      if DH_BYTES ≤ w.length then some (w.take DH_BYTES, w.drop DH_BYTES) else none := by
  unfold afterKey
  split
  · rename_i h
    rw [if_pos h.2.2.2]
  · rename_i h
    rw [if_neg fun hdh => h ⟨hlength, hne, hallowed, hdh⟩]

end Key

namespace Crypto
variable {κ : Type} {prim : Primitives κ} {c c' : Crypto κ} {s k : Bytes}

theorem receivedKey_block3a_length : (c.receivedKey prim k).block3a.length = 20 := prim.sha_length _

theorem receivedKey_vcPattern : (c.receivedKey prim k).vcPattern = c.vcPattern := by simp only [receivedKey]

theorem setSkey_vcPattern : (c.setSkey prim s).vcPattern = c.vcPattern := by
  unfold setSkey
  dsimp only [encrypt, decrypt]
  split <;> split <;> rfl

theorem VC_pattern_length (h : c.vcPattern = none) : (c.VC_pattern prim).1.length = 8 := by
  unfold VC_pattern
  rw [h]
  simp only [decrypt, StreamCipher.update_length, List.length_replicate]

theorem VC_pattern_keyed (h : c.vcPattern = none) :
    (((c.receivedKey prim k).setSkey prim s).VC_pattern prim).1.length = 8 := by
  refine VC_pattern_length ?_
  rw [setSkey_vcPattern, receivedKey_vcPattern, h]

theorem VC_pattern_again : (c.VC_pattern prim).2.VC_pattern prim = c.VC_pattern prim := by
  unfold VC_pattern
  cases hpattern : c.vcPattern with
  | none => rfl
  | some pat => simp only [hpattern]

theorem VC_pattern_encrypt :
    (c.encrypt prim s).2.VC_pattern prim = ((c.VC_pattern prim).1, ((c.VC_pattern prim).2.encrypt prim s).2) := by
  obtain ⟨initiator, privkey, S, block3a, block3bkey, block3b, encrypter, decrypter, vcPattern⟩ := c
  cases vcPattern <;> rfl

theorem testSkey_block3b (h : c.testSkey prim s k = some c') : c'.block3b = s := by
  unfold testSkey at h
  split at h
  · rename_i hgen
    obtain rfl := Option.some.inj h
    have hgen' : genBlock3b prim { c with block3b := s } k = s := hgen
    unfold setSkey
    dsimp only [encrypt, decrypt]
    rw [hgen']
    split <;> split <;> rfl
  · cases h

end Crypto

section
variable {κ : Type} {prim : Primitives κ} {config : Config} {c : Crypto κ} {maxSearch : Int} {s t : Bytes}

theorem decidesBlock4a_encrypt :
    decidesBlock4a prim config (c.encrypt prim s).2 maxSearch t = decidesBlock4a prim config c maxSearch t := by
  unfold decidesBlock4a
  rw [Crypto.VC_pattern_encrypt]
  rfl

end

/-! ## One turn -/

/-- The functions that come when the encryption has begun or ended, or without it. -/
def NextFunc.past : NextFunc → Bool
  | .readEncryptedHeader | .readOptions | .readDownloadId | .readPeerId | .readLen | .readMessage | .readDead => true
  | _ => false

namespace BTProtocol
variable {κ σ : Type} {env : Context κ σ} {p q : BTProtocol κ σ} {s pat : Bytes} {maxSearch : Int}

theorem turn_eq_some (h : turn env p = some q) :
    p.halted = false ∧ 0 ≤ p.nextLen ∧ p.demand ≤ p.buffer.length ∧
      q = flat (answered env (p.rest.call env (p.buffer.take p.demand))) := by
  unfold turn at h
  split at h
  · rename_i hgo
    exact ⟨hgo.1, hgo.2.1, hgo.2.2, (Option.some.inj h).symm⟩
  · cases h

theorem demand_of_pos (h : 0 < p.nextLen) : p.demand = p.nextLen.toNat := by
  unfold demand
  rw [if_neg (by rintro ⟨hzero, -⟩; omega)]

theorem flat_of_text (hpieces : p.pieces = []) (hbufferlen : p.bufferlen = none) : flat p = p := by
  simp only [flat, hpieces, List.flatten_nil, List.nil_append, hbufferlen, Option.map_none]
  rw [← hpieces, ← hbufferlen]

theorem halted_of_isNone {r : BTProtocol κ σ × Reply} (h : r.2 = .isNone) : (flat (answered env r)).halted = true := by
  show (answered env r).halted = true
  simp only [answered, h, halted, close_same, Bool.true_or]

theorem halted_of_raises {r : BTProtocol κ σ × Reply} {e : PyError} (h : r.2 = .raises e) :
    (flat (answered env r)).halted = true := by
  show (answered env r).halted = true
  simp only [answered, h, halted, Option.isSome_some, Bool.or_true]

variable (env) in
/-- A turn of a connection that is not halted by it. -/
structure Onward (p q : BTProtocol κ σ) : Prop where
  staged : q.Staged env
  surplus : q.surplusOf env = p.surplusOf env
  decided : p.decidedOf env = false → q.decidedOf env = false
  reach : p.InReach env → q.InReach env
  past : p.nextFunc.past = true → q.nextFunc.past = true
  waits : q.nextLen < 0 → p.nextFunc.searches = true ∧ q.surplusOf env = 0
  opened : 0 < p.surplusOf env → q.halted = false

variable (env) in
/-- What may become of a connection in a turn. -/
inductive Moves (p q : BTProtocol κ σ) : Prop
  | halts (halted : q.halted = true) (raised : q.raised ≠ some .assertionError) (surplus : p.surplusOf env = 0)
  | fails (raised : q.raised = some .assertionError) (surplus : 0 < p.surplusOf env)
      (func : p.nextFunc = .readCryptoPad3 ∨ p.nextFunc = .readCryptoIa) (mode : p.cryptmode = 1)
  | onward (h : Onward env p q)

theorem surplusOf_past (h : p.nextFunc.past = true) : p.surplusOf env = 0 := by
  unfold surplusOf
  cases hfunc : p.nextFunc <;> simp_all [NextFunc.past]

theorem decidedOf_past (h : p.nextFunc.past = true) : p.decidedOf env = false := by
  unfold decidedOf
  cases hfunc : p.nextFunc <;> simp_all [NextFunc.past]

theorem inReach_past (h : p.nextFunc.past = true) : p.InReach env := by
  intro pat text maxSearch hsought
  unfold sought at hsought
  cases hfunc : p.nextFunc <;> simp_all [NextFunc.past]

theorem Staged.past_nonneg (h : p.Staged env) (hpast : p.nextFunc.past = true) : 0 ≤ p.nextLen := by
  obtain ⟨-, -, hstage⟩ := h
  cases hfunc : p.nextFunc <;> rw [hfunc] at hstage hpast <;> first | exact absurd hpast Bool.false_ne_true | skip
  all_goals first | exact hstage.2 | exact hstage.2.le | exact hstage.elim

theorem Moves.of_past (hq : q.Staged env) (hzero : p.surplusOf env = 0) (hpast : q.nextFunc.past = true) : Moves env p q :=
  .onward
    { staged := hq
      surplus := by rw [hzero, surplusOf_past hpast]
      decided := fun _ => decidedOf_past hpast
      reach := fun _ => inReach_past hpast
      past := fun _ => hpast
      waits := fun hneg => absurd (hq.past_nonneg hpast) (by omega)
      opened := fun hpos => absurd hzero (by omega) }

theorem Moves.of_isNone {r : BTProtocol κ σ × Reply} (h : r.2 = .isNone) (hraised : r.1.raised = none)
    (hzero : p.surplusOf env = 0) : Moves env p (flat (answered env r)) := by
  refine .halts (halted_of_isNone h) ?_ hzero
  have hsame : (flat (answered env r)).raised = r.1.raised := by simp only [flat, answered, h, close_same]
  rw [hsame, hraised]
  exact (Option.some_ne_none _).symm

theorem Moves.of_raises {r : BTProtocol κ σ × Reply} {e : PyError} (h : r.2 = .raises e) (he : e ≠ .assertionError)
    (hzero : p.surplusOf env = 0) : Moves env p (flat (answered env r)) := by
  refine .halts (halted_of_raises h) ?_ hzero
  have hsame : (flat (answered env r)).raised = some e := by simp only [flat, answered, h]
  rw [hsame]
  exact fun heq => he (Option.some.inj heq)

/-- The answer of a function that goes on to read `len` bytes as a text. -/
theorem staged_next {func : NextFunc} {len : Int} {r : BTProtocol κ σ × Reply} (hr : r.2 = .next len func)
    (hpieces : r.1.pieces = []) (hbufferlen : r.1.bufferlen = none) :
    flat (answered env r) = { r.1 with nextLen := len, nextFunc := func } := by
  have hanswered : answered env r = { r.1 with nextLen := len, nextFunc := func } := by simp only [answered, hr]
  rw [hanswered]
  exact flat_of_text hpieces hbufferlen

theorem staged_isTrue {r : BTProtocol κ σ × Reply} (hr : r.2 = .isTrue) (hpieces : r.1.pieces = [])
    (hbufferlen : r.1.bufferlen = none) : flat (answered env r) = r.1 := by
  have hanswered : answered env r = r.1 := by simp only [answered, hr]
  rw [hanswered]
  exact flat_of_text hpieces hbufferlen

/-- On to a function that reads a text when the crypto has been left behind. -/
theorem Moves.of_next {func : NextFunc} {len : Int} {r : BTProtocol κ σ × Reply} (hr : r.2 = .next len func)
    (hfunc : func = .readEncryptedHeader ∨ func = .readOptions ∨ func = .readDownloadId ∨ func = .readPeerId)
    (hlen : 0 < len) (hpieces : r.1.pieces = []) (hraised : r.1.raised = none) (hbufferlen : r.1.bufferlen = none)
    (hzero : p.surplusOf env = 0) : Moves env p (flat (answered env r)) := by
  rw [staged_next hr hpieces hbufferlen]
  rcases hfunc with rfl | rfl | rfl | rfl <;> exact .of_past ⟨hpieces, hraised, hbufferlen, hlen⟩ hzero rfl

theorem Moves.of_isTrue {r : BTProtocol κ σ × Reply} (hr : r.2 = .isTrue) (hpieces : r.1.pieces = [])
    (hraised : r.1.raised = none) (hbufferlen : r.1.bufferlen = none) (hfunc : r.1.nextFunc = .readPeerId)
    (hlen : 0 < r.1.nextLen) (hzero : p.surplusOf env = 0) : Moves env p (flat (answered env r)) := by
  rw [staged_isTrue hr hpieces hbufferlen]
  refine .of_past ⟨hpieces, hraised, ?_⟩ hzero (by rw [hfunc]; rfl)
  rw [hfunc]
  exact ⟨hbufferlen, hlen⟩

/-- On to another function of the encrypted handshake. -/
theorem Moves.of_staged (hpast : p.nextFunc.past = false) (hgo : q.halted = false) (hlen : 0 ≤ q.nextLen) (hq : q.Staged env)
    (hsurplus : q.surplusOf env = p.surplusOf env) (hdecided : p.decidedOf env = false → q.decidedOf env = false)
    (hreach : p.InReach env → q.InReach env) : Moves env p q :=
  .onward
    { staged := hq
      surplus := hsurplus
      decided := hdecided
      reach := hreach
      past := fun h => absurd (hpast.symm.trans h) Bool.false_ne_true
      waits := fun hneg => absurd hlen (by omega)
      opened := fun _ => hgo }

/-- The header of the other kind of handshake is part of the key. -/
theorem header_again {x : BTProtocol κ σ} (hbuffer : x.buffer = p.rest.buffer) (hpieces : x.pieces = [])
    (hbufferlen : x.bufferlen = none) :
    flat (answered env (writeBuffer (p.buffer.take p.demand) x, .next DH_BYTES .readCryptoHeader)) =
      { x with buffer := p.buffer, nextLen := DH_BYTES, nextFunc := .readCryptoHeader } := by
  have hwhole : p.buffer.take p.demand ++ x.buffer = p.buffer := by rw [hbuffer, rest, List.take_append_drop]
  rw [staged_next rfl hpieces hbufferlen, writeBuffer, hwhole]

theorem demand_of_header (hlen : p.nextLen = pstr.length) : p.demand = pstr.length := by
  have hpos : (0 : Int) < pstr.length := Int.natCast_pos.mpr (Nat.succ_pos _)
  rw [demand_of_pos (hlen ▸ hpos), hlen]
  exact Int.toNat_natCast _

theorem demand_of_key (hlen : p.nextLen = DH_BYTES) : p.demand = DH_BYTES := by
  have hpos : (0 : Int) < DH_BYTES := by decide
  rw [demand_of_pos (hlen ▸ hpos), hlen]
  exact Int.toNat_natCast _

theorem writeRaw_of_open (h : p.halted = false) : p.writeRaw s = { p with written := p.written ++ [s] } := by
  have hclosed : p.closed = false := (Bool.or_eq_false_iff.mp h).1
  unfold writeRaw
  rw [hclosed]
  rfl

theorem write_of_raw (h : p.crypted = false) : p.write env s = p.writeRaw s := by
  unfold write
  rw [h]

theorem searched_short (h : s.length < pat.length) : searched s pat maxSearch = maxSearch := by
  unfold searched
  rw [if_neg (by omega)]

theorem lastItems_short (h : 1 < pat.length) : (lastItems (pat.length - 1) s).length < pat.length := by
  rw [Search.lastItems_length (by omega)]
  omega

variable (env) in
/-- A search that has looked at everything. -/
def missed (pat : Bytes) (maxSearch : Int) (func : Int → NextFunc) (p : BTProtocol κ σ) : BTProtocol κ σ :=
  let q := if searched p.buffer pat maxSearch < 0 then { p.close env with buffer := [] }
    else { p with buffer := lastItems (pat.length - 1) p.buffer }
  { q with nextLen := -1, nextFunc := func (searched p.buffer pat maxSearch) }

theorem searchForPattern_of_none (hnone : find pat s = none) (hbuffer : p.buffer = []) (func : Int → NextFunc) :
    (p.searchForPattern env s pat maxSearch).1 = false ∧
      answered env ((p.searchForPattern env s pat maxSearch).2.2,
        .next (-1) (func (p.searchForPattern env s pat maxSearch).2.1)) =
          missed env pat maxSearch func { p with buffer := s } := by
  unfold searchForPattern missed close
  rw [hnone]
  dsimp only
  split
  · split <;> simp [answered, hbuffer, sever]
  · simp [answered, hbuffer, writeBuffer]

theorem missed_same (func : Int → NextFunc) :
    (missed env pat maxSearch func p).pieces = p.pieces ∧ (missed env pat maxSearch func p).bufferlen = p.bufferlen ∧
      (missed env pat maxSearch func p).raised = p.raised ∧ (missed env pat maxSearch func p).nextLen = -1 := by
  unfold missed
  dsimp only
  split <;> simp

theorem missed_flat (func : Int → NextFunc) (hpieces : p.pieces = []) (hbufferlen : p.bufferlen = none) :
    flat (missed env pat maxSearch func p) = missed env pat maxSearch func p :=
  flat_of_text ((missed_same func).1.trans hpieces) ((missed_same func).2.1.trans hbufferlen)

theorem turn_of_zero (hgo : p.halted = false) (hlen : p.nextLen = 0) (hbufferlen : p.bufferlen = none) :
    turn env p = some (flat (answered env (call env p.buffer { p with buffer := [] }))) := by
  have hdemand : p.demand = p.buffer.length := by
    unfold demand
    rw [if_pos ⟨hlen, hbufferlen⟩]
  unfold turn
  rw [if_pos ⟨hgo, hlen.ge, hdemand.le⟩, rest, hdemand, List.take_length, List.drop_length]

variable (env) in
theorem turn_readCryptoBlock3a {c : Crypto κ} (hgo : p.halted = false) (hlen : p.nextLen = 0) (hpieces : p.pieces = [])
    (hbufferlen : p.bufferlen = none) (hfunc : p.nextFunc = .readCryptoBlock3a maxSearch) (hc : p.encrypter = some c) :
    turn env p = some (match find c.block3a p.buffer with
      | some i => { p with
          buffer := p.buffer.drop (i + c.block3a.length), nextLen := 20, nextFunc := .readCryptoBlock3b }
      | none => missed env c.block3a maxSearch .readCryptoBlock3a p) := by
  rw [turn_of_zero hgo hlen hbufferlen]
  have hcall : call env p.buffer { p with buffer := [] } =
      readCryptoBlock3a env p.buffer maxSearch { p with buffer := [] } := by
    simp only [call, hfunc]
  rw [hcall]
  unfold readCryptoBlock3a
  dsimp only
  rw [hc]
  dsimp only
  cases hfind : find c.block3a p.buffer with
  | some i =>
    simp only [searchForPattern, hfind, writeBuffer, List.append_nil, ↓reduceIte]
    rw [staged_next rfl hpieces hbufferlen]
  | none =>
    obtain ⟨hno, hmissed⟩ := searchForPattern_of_none
      (p := { p with buffer := [], encrypter := some c }) hfind rfl .readCryptoBlock3a
    rw [hno, if_neg Bool.false_ne_true, hmissed, missed_flat _ (by exact hpieces) (by exact hbufferlen), ← hc]

variable (env) in
theorem turn_readCryptoBlock4a {c : Crypto κ} (hgo : p.halted = false) (hlen : p.nextLen = 0) (hpieces : p.pieces = [])
    (hbufferlen : p.bufferlen = none) (hfunc : p.nextFunc = .readCryptoBlock4a maxSearch) (hc : p.encrypter = some c) :
    turn env p = some (match find (c.VC_pattern env.prim).1 p.buffer with
      | some i => { p with
          crypted := true
          buffer := ((c.VC_pattern env.prim).2.decrypt env.prim
            (p.buffer.drop (i + (c.VC_pattern env.prim).1.length))).1
          encrypter := some ((c.VC_pattern env.prim).2.decrypt env.prim
            (p.buffer.drop (i + (c.VC_pattern env.prim).1.length))).2
          nextLen := 6
          nextFunc := .readCryptoBlock4b }
      | none => missed env (c.VC_pattern env.prim).1 maxSearch .readCryptoBlock4a
          { p with encrypter := some (c.VC_pattern env.prim).2 }) := by
  rw [turn_of_zero hgo hlen hbufferlen]
  have hcall : call env p.buffer { p with buffer := [] } =
      readCryptoBlock4a env p.buffer maxSearch { p with buffer := [] } := by
    simp only [call, hfunc]
  rw [hcall]
  unfold readCryptoBlock4a
  dsimp only
  rw [hc]
  dsimp only
  cases hfind : find (c.VC_pattern env.prim).1 p.buffer with
  | some i =>
    simp only [searchForPattern, hfind, writeBuffer, List.append_nil, startCrypto, ↓reduceIte]
    rw [staged_next rfl hpieces hbufferlen]
  | none =>
    obtain ⟨hno, hmissed⟩ := searchForPattern_of_none
      (p := { p with buffer := [], encrypter := some (c.VC_pattern env.prim).2 }) hfind rfl .readCryptoBlock4a
    rw [hno, if_neg Bool.false_ne_true, hmissed]
    exact congrArg some (missed_flat _ hpieces hbufferlen)

variable (env maxSearch) in
/-- One byte is less than the pattern, and is put back. -/
theorem turn_readCryptoBlock4a_one {c : Crypto κ} (hgo : p.halted = false) (hlen : p.nextLen = 1)
    (hbuffer : p.buffer ≠ []) (hpieces : p.pieces = []) (hbufferlen : p.bufferlen = none)
    (hfunc : p.nextFunc = .readCryptoBlock4a maxSearch) (hc : p.encrypter = some c) (hmax : 0 ≤ maxSearch)
    (hpat : 1 < (c.VC_pattern env.prim).1.length) :
    turn env p = some { p with encrypter := some (c.VC_pattern env.prim).2, nextLen := -1 } := by
  have hdemand : p.demand = 1 := by
    rw [demand_of_pos (by omega), hlen]
    rfl
  have hlength : 0 < p.buffer.length := List.length_pos_iff.mpr hbuffer
  have hone : (p.buffer.take 1).length < (c.VC_pattern env.prim).1.length := by
    rw [List.length_take]
    omega
  have hlast : lastItems ((c.VC_pattern env.prim).1.length - 1) (p.buffer.take 1) = p.buffer.take 1 := by
    unfold lastItems
    rw [if_neg (by omega), Nat.sub_eq_zero_of_le (by omega), List.drop_zero]
  have hcall : call env (p.buffer.take p.demand) p.rest = readCryptoBlock4a env (p.buffer.take 1) maxSearch p.rest := by
    simp only [call, rest, hfunc, hdemand]
  unfold turn
  rw [if_pos ⟨hgo, by omega, by omega⟩, hcall]
  unfold readCryptoBlock4a
  rw [show p.rest.encrypter = p.encrypter from rfl, hc]
  dsimp only
  simp only [searchForPattern, Search.find_short hone, searched_short hone, hlast, if_neg (Int.not_lt.mpr hmax),
    Bool.false_eq_true, ↓reduceIte]
  rw [staged_next rfl hpieces hbufferlen]
  simp only [writeBuffer, rest, hdemand, List.take_append_drop, ← hfunc]

theorem missed_of_neg (func : Int → NextFunc) (h : searched p.buffer pat maxSearch < 0) :
    missed env pat maxSearch func p = { p.close env with
      buffer := [], nextLen := -1, nextFunc := func (searched p.buffer pat maxSearch) } := by
  unfold missed
  rw [if_pos h]

theorem missed_of_nonneg (func : Int → NextFunc) (h : 0 ≤ searched p.buffer pat maxSearch) :
    missed env pat maxSearch func p = { p with
      buffer := lastItems (pat.length - 1) p.buffer, nextLen := -1,
      nextFunc := func (searched p.buffer pat maxSearch) } := by
  unfold missed
  rw [if_neg (by omega)]

theorem Moves.of_missed (func : Int → NextFunc) (hraised : q.raised = none) (hzero : p.surplusOf env = 0)
    (h : searched q.buffer pat maxSearch < 0) : Moves env p (missed env pat maxSearch func q) := by
  rw [missed_of_neg func h]
  refine .halts ?_ ?_ hzero
  · simp only [halted, close_same, Bool.true_or]
  · simp only [close_same, hraised]
    exact (Option.some_ne_none _).symm

theorem meantTorrent_block3b {c c' : Crypto κ} {t : Bytes × SingleRawServer σ} (h : meantTorrent env c s = some (c', t)) :
    c'.block3b = s := by
  obtain ⟨u, -, hu⟩ := List.exists_of_findSome?_eq_some h
  obtain ⟨c, hskey, hsome⟩ := Option.map_eq_some_iff.mp hu
  obtain ⟨rfl, -⟩ := Prod.mk.inj hsome
  exact Crypto.testSkey_block3b hskey

section Moves
variable (hp : p.Staged env) (h : turn env p = some q)
include hp h

theorem moves_readEncryptedHeader (hfunc : p.nextFunc = .readEncryptedHeader) : Moves env p q := by
  obtain ⟨hpieces, hraised, hstage⟩ := hp
  rw [hfunc] at hstage
  obtain ⟨-, -, -, rfl⟩ := turn_eq_some h
  have hzero : p.surplusOf env = 0 := surplusOf_past (by rw [hfunc]; rfl)
  have hcall : p.rest.call env (p.buffer.take p.demand) = readEncryptedHeader (p.buffer.take p.demand) p.rest := by
    simp only [call, rest, hfunc]
  rw [hcall]
  unfold readEncryptedHeader
  split
  · exact .of_next rfl (by simp) (by omega) hpieces hraised hstage.1 hzero
  · exact .of_isNone rfl hraised hzero

theorem moves_readOptions (hfunc : p.nextFunc = .readOptions) : Moves env p q := by
  obtain ⟨hpieces, hraised, hstage⟩ := hp
  rw [hfunc] at hstage
  obtain ⟨-, -, -, rfl⟩ := turn_eq_some h
  have hzero : p.surplusOf env = 0 := surplusOf_past (by rw [hfunc]; rfl)
  have hcall : p.rest.call env (p.buffer.take p.demand) = readOptions (p.buffer.take p.demand) p.rest := by
    simp only [call, rest, hfunc]
  rw [hcall]
  exact .of_next rfl (by simp) (by omega) hpieces hraised hstage.1 hzero

theorem moves_readDownloadId (hfunc : p.nextFunc = .readDownloadId) : Moves env p q := by
  obtain ⟨hpieces, hraised, hstage⟩ := hp
  rw [hfunc] at hstage
  obtain ⟨-, -, -, rfl⟩ := turn_eq_some h
  have hzero : p.surplusOf env = 0 := surplusOf_past (by rw [hfunc]; rfl)
  have hcall : p.rest.call env (p.buffer.take p.demand) =
      if p.rest.locallyInitiated then p.rest.readDownloadId env (p.buffer.take p.demand)
      else p.rest.readDownloadIdIncoming env (p.buffer.take p.demand) := by
    unfold call
    rw [show p.rest.nextFunc = p.nextFunc from rfl, hfunc]
  rw [hcall]
  split
  · unfold readDownloadId
    split
    · exact .of_raises rfl (by decide) hzero
    · split
      · exact .of_isNone rfl hraised hzero
      · exact .of_next rfl (by simp) (by omega) hpieces hraised hstage.1 hzero
  · unfold readDownloadIdIncoming
    split
    · exact .of_isNone rfl hraised hzero
    · rename_i k srs _
      split
      · unfold externalConnectionMade
        rw [show p.rest.registered = p.registered from rfl]
        cases admission env p.registered k srs with
        | notRunning => exact .of_isNone rfl hraised hzero
        | refused => exact .of_isNone rfl (close_same.2.2.2.2.2.2.1.trans hraised) hzero
        | nameError => exact .of_raises rfl (by decide) hzero
        | admitted =>
          dsimp only
          set admitted := externalHandshakeDone srs.handler none p.options { p.rest with registered := k :: p.registered }
          have hstays : Stays admitted (admitted.readDownloadId env (p.buffer.take p.demand)) := readDownloadId_stays
          have hlen : 0 < (admitted.readDownloadId env (p.buffer.take p.demand)).1.nextLen := by
            rw [readDownloadId_same.2.2.1]
            show (0 : Int) < 20
            decide
          exact .of_isTrue rfl (hstays.pieces.trans hpieces) (hstays.raised.trans hraised) (hstays.bufferlen.trans hstage.1)
            readDownloadId_same.2.2.2 hlen hzero
      · exact .of_isNone rfl hraised hzero

theorem moves_readPeerId (hfunc : p.nextFunc = .readPeerId) : Moves env p q := by
  obtain ⟨hpieces, hraised, hstage⟩ := hp
  rw [hfunc] at hstage
  obtain ⟨-, -, -, rfl⟩ := turn_eq_some h
  have hzero : p.surplusOf env = 0 := surplusOf_past (by rw [hfunc]; rfl)
  have hcall : p.rest.call env (p.buffer.take p.demand) = readPeerId env (p.buffer.take p.demand) p.rest := by
    simp only [call, rest, hfunc]
  rw [hcall]
  unfold readPeerId
  split
  · exact .of_raises rfl (by decide) hzero
  · dsimp only
    split
    · exact .of_isNone rfl hraised hzero
    · split
      · exact .of_isNone rfl hraised hzero
      · split
        · exact .of_isNone rfl hraised hzero
        · split
          · exact .of_raises rfl (by decide) hzero
          · refine .of_past ⟨rfl, ?_, ?_, Int.zero_le_ofNat 4⟩ hzero rfl
            · exact told_same.2.2.2.2.2.1.trans hraised
            · simp only [flat, answered, told_same, switchToRead2, Option.map_some]

theorem moves_readLen (hfunc : p.nextFunc = .readLen) : Moves env p q := by
  obtain ⟨hpieces, hraised, hstage⟩ := hp
  rw [hfunc] at hstage
  obtain ⟨-, -, -, rfl⟩ := turn_eq_some h
  have hzero : p.surplusOf env = 0 := surplusOf_past (by rw [hfunc]; rfl)
  have hcall : p.rest.call env (p.buffer.take p.demand) = readLen (p.buffer.take p.demand) p.rest := by
    simp only [call, rest, hfunc]
  rw [hcall]
  unfold readLen
  split
  · exact .of_raises rfl (by decide) hzero
  · dsimp only
    split
    · exact .of_isNone rfl hraised hzero
    · refine .of_past ⟨rfl, hraised, ?_⟩ hzero rfl
      exact ⟨by simp only [flat, answered, rest, hstage.1, Option.map_some], by simp only [flat, answered]; omega⟩

theorem moves_readMessage (hfunc : p.nextFunc = .readMessage) : Moves env p q := by
  obtain ⟨hpieces, hraised, hstage⟩ := hp
  rw [hfunc] at hstage
  obtain ⟨-, -, -, rfl⟩ := turn_eq_some h
  have hzero : p.surplusOf env = 0 := surplusOf_past (by rw [hfunc]; rfl)
  have hcall : p.rest.call env (p.buffer.take p.demand) = readMessage env (p.buffer.take p.demand) p.rest := by
    simp only [call, rest, hfunc]
  rw [hcall]
  unfold readMessage
  split
  · refine .of_past ⟨rfl, hraised, ?_, Int.zero_le_ofNat 4⟩ hzero rfl
    simp only [flat, answered, rest, hstage.1, Option.map_some]
  · split
    · exact .of_raises rfl (by decide) hzero
    · dsimp only
      split
      · exact .of_raises rfl (by decide) hzero
      · refine .of_past ⟨rfl, told_same.2.2.2.2.2.1.trans hraised, ?_, Int.zero_le_ofNat 4⟩ hzero rfl
        simp only [flat, answered, told_same, rest, hstage.1, Option.map_some]

theorem moves_readHeader_outgoing (hfunc : p.nextFunc = .readHeader) (hloc : p.locallyInitiated = true) : Moves env p q := by
  obtain ⟨hpieces, hraised, hstage⟩ := hp
  rw [hfunc] at hstage
  obtain ⟨hcrypted, hbufferlen, hlen, hout⟩ := hstage
  obtain ⟨e, hencoder, hcrypto⟩ := hout hloc
  obtain ⟨hgo, -, hdemand, rfl⟩ := turn_eq_some h
  have hzero : p.surplusOf env = 0 := by simp only [surplusOf, hfunc, hloc, ↓reduceIte]
  have hcall : p.rest.call env (p.buffer.take p.demand) = readHeader env (p.buffer.take p.demand) p.rest := by
    simp only [call, rest, hfunc, hloc, ↓reduceIte]
  rw [hcall]
  unfold readHeader
  rw [show p.rest.encoder = p.encoder from rfl, hencoder]
  dsimp only
  split
  · split
    · exact .of_isNone rfl hraised hzero
    · exact .of_next rfl (by simp) (by omega) hpieces hraised hbufferlen hzero
  · rename_i hplain
    split
    · exact .of_isNone rfl hraised hzero
    · rename_i hencrypted
      have hencrypted : p.encrypted = true := by simpa [rest, hloc] using hencrypted
      split
      · exact .of_isNone rfl hraised hzero
      · rename_i hallowed
        rw [Bool.not_eq_true, Bool.not_eq_false'] at hallowed
        obtain ⟨c, hc, hpattern⟩ := hcrypto hencrypted
        rw [show p.rest.encrypted = p.encrypted from rfl, if_pos hencrypted, header_again rfl hpieces hbufferlen]
        rw [demand_of_header hlen] at hplain hdemand
        have hkey := afterKey_of_crypto hdemand hplain hallowed
        refine .of_staged (by rw [hfunc]; rfl) hgo (Int.natCast_nonneg _)
          ⟨hpieces, hraised, hcrypted, hbufferlen, rfl, fun _ => ⟨e, hencoder⟩, c, hc, hpattern⟩ ?_ (fun hno => ?_) fun hreach => ?_
        · rw [hzero]
          simp only [surplusOf, rest, hloc]
        · simp only [decidedOf, hfunc, hencoder, hc, hloc, hencrypted, hkey, rest] at hno ⊢
          split at hno <;> simp_all
        · unfold InReach at hreach ⊢
          simp only [sought, hfunc, hencoder, hc, hloc, hencrypted, hkey, rest, ↓reduceIte] at hreach ⊢
          split at hreach <;> simp_all

theorem moves_readHeader_incoming (hfunc : p.nextFunc = .readHeader) (hloc : p.locallyInitiated = false) : Moves env p q := by
  obtain ⟨hpieces, hraised, hstage⟩ := hp
  rw [hfunc] at hstage
  obtain ⟨hcrypted, hbufferlen, hlen, -⟩ := hstage
  obtain ⟨hgo, -, hdemand, rfl⟩ := turn_eq_some h
  have hcall : p.rest.call env (p.buffer.take p.demand) = readHeaderIncoming env (p.buffer.take p.demand) p.rest := by
    simp only [call, rest, hfunc, hloc, Bool.false_eq_true, ↓reduceIte]
  rw [hcall]
  rw [demand_of_header hlen] at hdemand
  unfold readHeaderIncoming
  split
  · rename_i hplain
    have hzero : p.surplusOf env = 0 := by
      rw [demand_of_header hlen] at hplain
      simp only [surplusOf, hfunc, hloc, afterKey_of_plain hplain, Bool.false_eq_true, ↓reduceIte]
    split
    · exact .of_isNone rfl hraised hzero
    · exact .of_next rfl (by simp) (by omega) hpieces hraised hbufferlen hzero
  · rename_i hplain
    rw [demand_of_header hlen] at hplain
    split
    · rename_i hrefused
      rw [Bool.not_eq_eq_eq_not, Bool.not_true] at hrefused
      have hzero : p.surplusOf env = 0 := by
        simp only [surplusOf, hfunc, hloc, afterKey_of_refused hrefused, Bool.false_eq_true, ↓reduceIte]
      exact .of_isNone rfl hraised hzero
    · rename_i hallowed
      rw [Bool.not_eq_true, Bool.not_eq_false'] at hallowed
      have hkey := afterKey_of_crypto hdemand hplain hallowed
      dsimp only
      rw [header_again (x := { p.rest with encrypted := true, encrypter := some (.new env.prim false env.privkey) })
        rfl hpieces hbufferlen]
      refine .of_staged (by rw [hfunc]; rfl) hgo (Int.natCast_nonneg _)
        ⟨hpieces, hraised, hcrypted, hbufferlen, rfl, fun hout => ?_, _, rfl, rfl⟩ ?_ (fun _ => ?_) fun hreach => ?_
      · exact absurd (hloc.symm.trans hout) Bool.false_ne_true
      · simp only [surplusOf, hfunc, hloc, hkey, rest, Bool.false_eq_true, ↓reduceIte]
        split <;> simp_all
      · simp only [decidedOf, hloc, rest]
        split <;> simp_all
      · unfold InReach at hreach ⊢
        simp only [sought, hfunc, hloc, hkey, rest] at hreach ⊢
        split at hreach <;> simp_all

variable (env) in
omit hp h in
/-- The answer to the key, and the search for what the peer answers. -/
theorem turn_readCryptoHeader {e : Encoder σ} {c : Crypto κ} (hgo : p.halted = false) (hpieces : p.pieces = [])
    (hbufferlen : p.bufferlen = none) (hcrypted : p.crypted = false) (hlen : p.nextLen = DH_BYTES)
    (hfunc : p.nextFunc = .readCryptoHeader) (hloc : p.locallyInitiated = true) (hencoder : p.encoder = some e)
    (hc : p.encrypter = some c) (henough : DH_BYTES ≤ p.buffer.length) :
    ∃ answer sent, turn env p = some { p with
      encrypter := some
        (((c.receivedKey env.prim (p.buffer.take DH_BYTES)).setSkey env.prim e.downloadId).encrypt env.prim sent).2
      buffer := p.buffer.drop DH_BYTES
      nextLen := 1
      nextFunc := .readCryptoBlock4a 520
      pads := p.pads + 1
      written := p.written ++ [answer] } := by
  have hdh := demand_of_key hlen
  have hcall : p.rest.call env (p.buffer.take p.demand) = readCryptoHeader env (p.buffer.take p.demand) p.rest := by
    simp only [call, rest, hfunc, hloc, ↓reduceIte]
  have hturn : turn env p = some (flat (answered env (p.rest.call env (p.buffer.take p.demand)))) :=
    if_pos ⟨hgo, by omega, hdh.trans_le henough⟩
  rw [hcall, hdh] at hturn
  unfold readCryptoHeader at hturn
  rw [show p.rest.encoder = p.encoder from rfl, hencoder, show p.rest.encrypter = p.encrypter from rfl, hc] at hturn
  dsimp only at hturn
  rw [write_of_raw (p := { p.rest.padded with encrypter := _ }) hcrypted,
    writeRaw_of_open (p := { p.rest.padded with encrypter := _ }) hgo, staged_next rfl hpieces hbufferlen] at hturn
  simp only [rest, padded, hdh] at hturn
  exact ⟨_, _, hturn⟩

theorem moves_readCryptoHeader_outgoing (hfunc : p.nextFunc = .readCryptoHeader) (hloc : p.locallyInitiated = true) :
    Moves env p q := by
  obtain ⟨hpieces, hraised, hstage⟩ := hp
  rw [hfunc] at hstage
  obtain ⟨hcrypted, hbufferlen, hlen, hout, c, hc, hpattern⟩ := hstage
  obtain ⟨e, hencoder⟩ := hout hloc
  obtain ⟨hgo, -, hdemand, -⟩ := turn_eq_some h
  rw [demand_of_key hlen] at hdemand
  obtain ⟨answer, sent, hturn⟩ :=
    turn_readCryptoHeader env hgo hpieces hbufferlen hcrypted hlen hfunc hloc hencoder hc hdemand
  obtain rfl := Option.some.inj (hturn.symm.trans h)
  refine .of_staged (by rw [hfunc]; rfl) hgo Int.one_nonneg ⟨hpieces, hraised, hcrypted, hbufferlen, le_rfl, by decide, e, _,
    hencoder, rfl, ?_⟩ ?_ (fun hno => ?_) fun hreach => ?_
  · rw [Crypto.VC_pattern_encrypt, Crypto.VC_pattern_keyed hpattern]
    decide
  · simp only [surplusOf, hfunc, hloc]
  · simp only [decidedOf, hfunc, hencoder, hc, hloc, decidesBlock4a_encrypt, hdemand] at hno ⊢
    simpa using hno
  · unfold InReach at hreach ⊢
    simp only [sought, hfunc, hencoder, hc, hloc, hdemand, Crypto.VC_pattern_encrypt, ↓reduceIte] at hreach ⊢
    exact hreach

theorem moves_readCryptoHeader_incoming (hfunc : p.nextFunc = .readCryptoHeader) (hloc : p.locallyInitiated = false) :
    Moves env p q := by
  obtain ⟨hpieces, hraised, hstage⟩ := hp
  rw [hfunc] at hstage
  obtain ⟨hcrypted, hbufferlen, hlen, -, c, hc, -⟩ := hstage
  obtain ⟨hgo, -, hdemand, rfl⟩ := turn_eq_some h
  have hdh := demand_of_key hlen
  have hcall : p.rest.call env (p.buffer.take p.demand) =
      readCryptoHeaderIncoming env (p.buffer.take p.demand) p.rest := by
    simp only [call, rest, hfunc, hloc, Bool.false_eq_true, ↓reduceIte]
  rw [hcall, hdh]
  rw [hdh] at hdemand
  unfold readCryptoHeaderIncoming
  rw [show p.rest.encrypter = p.encrypter from rfl, hc]
  dsimp only
  rw [write_of_raw (p := { p.rest.padded with encrypter := _ }) hcrypted,
    writeRaw_of_open (p := { p.rest.padded with encrypter := _ }) hgo, staged_next rfl hpieces hbufferlen]
  have hbuffer : p.buffer.drop p.demand = p.buffer.drop DH_BYTES := by rw [hdh]
  refine .of_staged (by rw [hfunc]; rfl) hgo le_rfl ⟨hpieces, hraised, hcrypted, hbufferlen, le_rfl, by decide, _, rfl, ?_⟩
    ?_ (fun hno => ?_) fun hreach => ?_
  · rw [Crypto.receivedKey_block3a_length]
    decide
  · simp only [surplusOf, hfunc, hloc, hc, rest, padded, hbuffer, hdemand, ↓reduceIte]
  · simp only [decidedOf]
  · unfold InReach at hreach ⊢
    simp only [sought, hfunc, hc, hloc, hdemand, rest, padded, hbuffer, ↓reduceIte] at hreach ⊢
    exact hreach

theorem moves_readCryptoBlock3a (hfunc : p.nextFunc = .readCryptoBlock3a maxSearch) : Moves env p q := by
  obtain ⟨hpieces, hraised, hstage⟩ := hp
  rw [hfunc] at hstage
  obtain ⟨hcrypted, hbufferlen, hlen, hmax, c, hc, hpat⟩ := hstage
  obtain ⟨hgo, hnonneg, -, -⟩ := turn_eq_some h
  rw [turn_readCryptoBlock3a env hgo (le_antisymm hlen hnonneg) hpieces hbufferlen hfunc hc] at h
  obtain rfl := Option.some.inj h
  have hpast : p.nextFunc.past = false := by rw [hfunc]; rfl
  cases hfind : find c.block3a p.buffer with
  | some i =>
    refine .of_staged hpast hgo (Int.zero_le_ofNat 20) ⟨hpieces, hraised, hcrypted, hbufferlen, rfl⟩ ?_ (fun _ => ?_) fun _ => ?_
    · simp only [surplusOf, hfunc, hc, surplusBlock3a, hfind]
    · simp only [decidedOf]
    · simp only [InReach, sought, reduceCtorEq, IsEmpty.forall_iff, implies_true]
  | none =>
    have hzero : p.surplusOf env = 0 := by simp only [surplusOf, hfunc, hc, surplusBlock3a, hfind]
    dsimp only
    by_cases hneg : searched p.buffer c.block3a maxSearch < 0
    · exact .of_missed _ hraised hzero hneg
    · rw [missed_of_nonneg _ (Int.not_lt.mp hneg)]
      have hlast : find c.block3a (lastItems (c.block3a.length - 1) p.buffer) = none :=
        Search.find_short (lastItems_short hpat)
      have hzero' : surplusOf env { p with
          buffer := lastItems (c.block3a.length - 1) p.buffer, nextLen := -1,
          nextFunc := .readCryptoBlock3a (searched p.buffer c.block3a maxSearch) } = 0 := by
        simp only [surplusOf, hc, surplusBlock3a, hlast]
      exact .onward
        { staged := ⟨hpieces, hraised, hcrypted, hbufferlen, (by decide : (-1 : Int) ≤ 0), Int.not_lt.mp hneg, c, hc, hpat⟩
          surplus := hzero'.trans hzero.symm
          decided := fun _ => by simp only [decidedOf]
          reach := fun _ pat text maxSearch hsought i hi => by
            simp only [sought, hc, Option.some.injEq, Prod.mk.injEq] at hsought
            obtain ⟨rfl, rfl, -⟩ := hsought
            rw [hlast] at hi
            cases hi
          past := fun hp => absurd (hpast.symm.trans hp) Bool.false_ne_true
          waits := fun _ => ⟨by rw [hfunc]; rfl, hzero'⟩
          opened := fun _ => hgo }

theorem moves_readCryptoBlock4a (hfunc : p.nextFunc = .readCryptoBlock4a maxSearch) : Moves env p q := by
  obtain ⟨hpieces, hraised, hstage⟩ := hp
  rw [hfunc] at hstage
  obtain ⟨hcrypted, hbufferlen, hlen, hmax, e, c, hencoder, hc, hpat⟩ := hstage
  obtain ⟨hgo, hnonneg, hdemand, -⟩ := turn_eq_some h
  have hpast : p.nextFunc.past = false := by rw [hfunc]; rfl
  have hzero : p.surplusOf env = 0 := by simp only [surplusOf, hfunc]
  have hagain : (c.VC_pattern env.prim).2.VC_pattern env.prim = c.VC_pattern env.prim := Crypto.VC_pattern_again
  by_cases hone : p.nextLen = 1
  · have hbuffer : p.buffer ≠ [] := by
      rintro hnil
      rw [demand_of_pos (by omega), hone, hnil] at hdemand
      cases hdemand
    rw [turn_readCryptoBlock4a_one env maxSearch hgo hone hbuffer hpieces hbufferlen hfunc hc hmax hpat] at h
    obtain rfl := Option.some.inj h
    refine .onward
      { staged := ⟨hpieces, hraised, ?_⟩
        surplus := ?_
        decided := fun hno => ?_
        reach := fun hreach => ?_
        past := fun hp => absurd (hpast.symm.trans hp) Bool.false_ne_true
        waits := fun _ => ⟨by rw [hfunc]; rfl, by simp only [surplusOf, hfunc]⟩
        opened := fun _ => hgo }
    · simp only [hfunc, hencoder, Option.some.injEq, exists_and_left, exists_eq_left', hagain]
      exact ⟨hcrypted, hbufferlen, by decide, hmax, hpat⟩
    · rw [hzero]
      simp only [surplusOf, hfunc]
    · simp only [decidedOf, hfunc, hencoder, hc, decidesBlock4a, hagain] at hno ⊢
      exact hno
    · simp only [InReach, sought, hfunc, hc, hagain] at hreach ⊢
      exact hreach
  · rw [turn_readCryptoBlock4a env hgo (by omega) hpieces hbufferlen hfunc hc] at h
    obtain rfl := Option.some.inj h
    cases hfind : find (c.VC_pattern env.prim).1 p.buffer with
    | some i =>
      refine .of_staged hpast hgo (Int.zero_le_ofNat 6) ⟨hpieces, hraised, hbufferlen, rfl, e, hencoder⟩ ?_ (fun hno => ?_)
        fun _ => ?_
      · rw [hzero]
        simp only [surplusOf]
      · simp only [decidedOf, hfunc, hencoder, hc, decidesBlock4a, hfind] at hno ⊢
        exact hno
      · simp only [InReach, sought, reduceCtorEq, IsEmpty.forall_iff, implies_true]
    | none =>
      dsimp only
      by_cases hneg : searched p.buffer (c.VC_pattern env.prim).1 maxSearch < 0
      · exact .of_missed _ hraised hzero hneg
      · rw [missed_of_nonneg (p := { p with encrypter := some (c.VC_pattern env.prim).2 }) _ (Int.not_lt.mp hneg)]
        have hshort : (lastItems ((c.VC_pattern env.prim).1.length - 1) p.buffer).length <
          (c.VC_pattern env.prim).1.length := lastItems_short hpat
        refine .onward
          { staged := ⟨hpieces, hraised, hcrypted, hbufferlen, (by decide : (-1 : Int) ≤ 1), Int.not_lt.mp hneg, e, _,
              hencoder, rfl, by rwa [hagain]⟩
            surplus := ?_
            decided := fun _ => ?_
            reach := fun _ => ?_
            past := fun hp => absurd (hpast.symm.trans hp) Bool.false_ne_true
            waits := fun _ => ⟨by rw [hfunc]; rfl, by simp only [surplusOf]⟩
            opened := fun _ => hgo }
        · rw [hzero]
          simp only [surplusOf]
        · simp only [decidedOf, hencoder, decidesBlock4a, hagain, Search.find_short hshort, searched_short hshort, hneg,
            decide_false]
        · simp only [InReach, sought, hagain, Option.some.injEq, Prod.mk.injEq, and_imp]
          rintro _ _ _ rfl rfl - i hi
          rw [Search.find_short hshort] at hi
          cases hi

theorem moves_readCryptoBlock3b (hfunc : p.nextFunc = .readCryptoBlock3b) : Moves env p q := by
  obtain ⟨hpieces, hraised, hstage⟩ := hp
  rw [hfunc] at hstage
  obtain ⟨hcrypted, hbufferlen, hlen⟩ := hstage
  obtain ⟨hgo, -, hdemand, rfl⟩ := turn_eq_some h
  have htwenty : p.demand = 20 := by
    rw [demand_of_pos (by omega), hlen]
    rfl
  have hpast : p.nextFunc.past = false := by rw [hfunc]; rfl
  have hcall : p.rest.call env (p.buffer.take p.demand) = readCryptoBlock3b env (p.buffer.take 20) p.rest := by
    simp only [call, rest, hfunc, htwenty]
  rw [htwenty] at hdemand
  rw [hcall]
  unfold readCryptoBlock3b
  rw [show p.rest.encrypter = p.encrypter from rfl]
  cases hc : p.encrypter with
  | none => exact .of_raises rfl (by decide) (by simp only [surplusOf, hfunc, hc])
  | some c =>
    dsimp only
    have hsurplus : p.surplusOf env = surplusBlock3b env p.registered c p.buffer := by simp only [surplusOf, hfunc, hc]
    unfold surplusBlock3b at hsurplus
    rw [if_pos hdemand] at hsurplus
    cases hmeant : meantTorrent env c (p.buffer.take 20) with
    | none =>
      rw [hmeant] at hsurplus
      exact .of_isNone rfl hraised hsurplus
    | some t =>
      obtain ⟨c, k, srs⟩ := t
      rw [hmeant] at hsurplus
      unfold externalConnectionMade
      dsimp only at hsurplus ⊢
      rw [show p.rest.registered = p.registered from rfl]
      cases hadmission : admission env p.registered k srs with
      | notRunning =>
        rw [hadmission, if_neg (by decide)] at hsurplus
        exact .of_isNone rfl hraised hsurplus
      | refused =>
        rw [hadmission, if_neg (by decide)] at hsurplus
        exact .of_isNone rfl (close_same.2.2.2.2.2.2.1.trans hraised) hsurplus
      | nameError =>
        rw [hadmission, if_neg (by decide)] at hsurplus
        exact .of_raises rfl (by decide) hsurplus
      | admitted =>
        rw [hadmission, if_pos rfl] at hsurplus
        dsimp only
        rw [if_pos (meantTorrent_block3b hmeant).symm, staged_isTrue rfl hpieces hbufferlen]
        have hbuffer : p.buffer.drop p.demand = p.buffer.drop 20 := by rw [htwenty]
        refine .of_staged hpast hgo (Int.zero_le_ofNat 14) ⟨hpieces, hraised, hbufferlen, rfl⟩ ?_ (fun _ => ?_) fun _ => ?_
        · rw [hsurplus]
          simp only [surplusOf, externalHandshakeDone, startCrypto, rest, hbuffer]
        · simp only [decidedOf, externalHandshakeDone, startCrypto]
        · simp only [InReach, sought, externalHandshakeDone, startCrypto, reduceCtorEq, IsEmpty.forall_iff, implies_true]

theorem moves_readCryptoBlock3c (hfunc : p.nextFunc = .readCryptoBlock3c) : Moves env p q := by
  obtain ⟨hpieces, hraised, hstage⟩ := hp
  rw [hfunc] at hstage
  obtain ⟨hbufferlen, hlen⟩ := hstage
  obtain ⟨hgo, -, hdemand, rfl⟩ := turn_eq_some h
  have hfourteen : p.demand = 14 := by
    rw [demand_of_pos (by omega), hlen]
    rfl
  have hpast : p.nextFunc.past = false := by rw [hfunc]; rfl
  have hcall : p.rest.call env (p.buffer.take p.demand) = readCryptoBlock3c (p.buffer.take 14) p.rest := by
    simp only [call, rest, hfunc, hfourteen]
  rw [hfourteen] at hdemand
  rw [hcall]
  unfold readCryptoBlock3c
  rw [show p.rest.encoder = p.encoder from rfl]
  cases hencoder : p.encoder with
  | none => exact .of_raises rfl (by decide) (by simp only [surplusOf, hfunc, hencoder])
  | some e =>
    dsimp only
    have hsurplus : p.surplusOf env = surplusBlock3c e.config p.buffer := by simp only [surplusOf, hfunc, hencoder]
    unfold surplusBlock3c headerOnly at hsurplus
    split
    · exact .of_isNone rfl hraised (by simp_all)
    · split
      · exact .of_isNone rfl hraised (by simp_all)
      · split
        · exact .of_isNone rfl hraised (by simp_all)
        · split
          · exact .of_isNone rfl hraised (by simp_all)
          · rename_i hzeros _ honly hpad
            rw [staged_next rfl hpieces hbufferlen]
            have hbuffer : p.buffer.drop p.demand = p.buffer.drop 14 := by rw [hfourteen]
            refine .of_staged hpast hgo (by simp only; omega) ⟨hpieces, hraised, hbufferlen, by simp only; omega⟩ ?_
              (fun _ => ?_) fun _ => ?_
            · rw [hsurplus]
              simp only [surplusOf, rest, hbuffer]
              rw [show ((unpackBE (((p.buffer.take 14).drop 12).take 2) : Int) + 2).toNat =
                unpackBE (((p.buffer.take 14).drop 12).take 2) + 2 by omega]
              by_cases hone : unpackBE (((p.buffer.take 14).drop 8).take 4) % 4 = 1
              · have honly : e.config.cryptoOnly = false := by simpa only [hone, decide_true, Bool.true_and, Bool.not_eq_true] using honly
                simp only [hone, honly, not_not.mp hzeros, not_lt.mp hpad, hdemand, decide_true, Bool.not_false,
                  Bool.and_true, and_self, ↓reduceIte]
              · simp only [hone, decide_false, Bool.and_false, Bool.false_and, Bool.false_eq_true, and_false, ↓reduceIte]
            · simp only [decidedOf]
            · simp only [InReach, sought, reduceCtorEq, IsEmpty.forall_iff, implies_true]

omit hp h in
/-- What the end of block 3 makes of a connection, with the text that is left in `x`. -/
theorem Moves.of_block3done {x : BTProtocol κ σ} (hfunc : p.nextFunc = .readCryptoPad3 ∨ p.nextFunc = .readCryptoIa)
    (hpieces : x.pieces = []) (hraised : x.raised = none) (hbufferlen : x.bufferlen = none)
    (hmode : x.cryptmode = p.cryptmode)
    (hsurplus : p.surplusOf env = if p.cryptmode = 1 then x.buffer.length else 0) :
    Moves env p (flat (answered env (x.readCryptoBlock3done s))) := by
  unfold readCryptoBlock3done
  rw [hmode]
  have hpos : (0 : Int) < 1 + protocolName.length := by omega
  split
  · rename_i hone
    rw [if_pos hone] at hsurplus
    split
    · rename_i hbuffer
      exact .fails rfl (hsurplus ▸ List.length_pos_iff.mpr hbuffer) hfunc hone
    · rename_i hbuffer
      rw [ne_eq, not_not] at hbuffer
      rw [hbuffer] at hsurplus
      exact .of_next rfl (by simp) hpos hpieces hraised hbufferlen hsurplus
  · rename_i hone
    rw [if_neg hone] at hsurplus
    exact .of_next rfl (by simp) hpos hpieces hraised hbufferlen hsurplus

theorem moves_readCryptoPad3 (hfunc : p.nextFunc = .readCryptoPad3) : Moves env p q := by
  obtain ⟨hpieces, hraised, hstage⟩ := hp
  rw [hfunc] at hstage
  obtain ⟨hbufferlen, hlen⟩ := hstage
  obtain ⟨hgo, -, hdemand, rfl⟩ := turn_eq_some h
  have hlength : p.demand = p.nextLen.toNat := demand_of_pos (by omega)
  have hpast : p.nextFunc.past = false := by rw [hfunc]; rfl
  have hcall : p.rest.call env (p.buffer.take p.demand) = readCryptoPad3 env (p.buffer.take p.demand) p.rest := by
    simp only [call, rest, hfunc]
  have hsurplus : p.surplusOf env = if p.cryptmode = 1 then surplusPad3 p.demand p.buffer else 0 := by
    simp only [surplusOf, hfunc, hlength]
  unfold surplusPad3 surplusIa at hsurplus
  rw [if_pos hdemand] at hsurplus
  have hpieces' : p.rest.padded.pieces = [] := hpieces
  have hraised' : p.rest.padded.raised = none := hraised
  have hbufferlen' : p.rest.padded.bufferlen = none := hbufferlen
  rw [hcall]
  unfold readCryptoPad3
  dsimp only
  split
  · rename_i hia
    rw [staged_next rfl (write_same.2.1.trans hpieces') (write_same.2.2.1.trans hbufferlen')]
    have hgo' : p.rest.padded.halted = false := hgo
    refine .of_staged hpast (by simpa only [halted, write_same] using hgo') (Int.natCast_nonneg _)
      ⟨write_same.2.1.trans hpieces', write_same.2.2.2.2.2.2.1.trans hraised', write_same.2.2.1.trans hbufferlen',
        by simp only; omega⟩ ?_ (fun _ => ?_) fun _ => ?_
    · rw [hsurplus]
      simp only [surplusOf, surplusIa, write_same]
      rfl
    · simp only [decidedOf]
    · simp only [InReach, sought, reduceCtorEq, IsEmpty.forall_iff, implies_true]
  · rename_i hia
    rw [ne_eq, not_not] at hia
    rw [hia, Nat.sub_zero] at hsurplus
    exact .of_block3done (.inl hfunc) (write_same.2.1.trans hpieces') (write_same.2.2.2.2.2.2.1.trans hraised')
      (write_same.2.2.1.trans hbufferlen') write_same.2.2.2.2.2.2.2.2.1 (by simp only [write_same]; exact hsurplus)

theorem moves_readCryptoIa (hfunc : p.nextFunc = .readCryptoIa) : Moves env p q := by
  obtain ⟨hpieces, hraised, hstage⟩ := hp
  rw [hfunc] at hstage
  obtain ⟨hbufferlen, hlen⟩ := hstage
  obtain ⟨hgo, -, hdemand, rfl⟩ := turn_eq_some h
  have hlength : p.demand = p.nextLen.toNat := demand_of_pos hlen
  have hcall : p.rest.call env (p.buffer.take p.demand) = readCryptoBlock3done (p.buffer.take p.demand) p.rest := by
    simp only [call, rest, hfunc]
  rw [hcall]
  refine .of_block3done (.inr hfunc) hpieces hraised hbufferlen rfl ?_
  simp only [surplusOf, hfunc, surplusIa, rest, hlength, List.length_drop]

omit hp h in
theorem Moves.of_block4done {x : BTProtocol κ σ} (hpieces : x.pieces = []) (hraised : x.raised = none)
    (hbufferlen : x.bufferlen = none) (hzero : p.surplusOf env = 0) :
    Moves env p (flat (answered env (x.readCryptoBlock4done env))) := by
  have hpos : (0 : Int) < 1 + protocolName.length := by omega
  unfold readCryptoBlock4done
  split
  · exact .of_raises rfl (by decide) hzero
  · split
    · split
      · exact .of_isNone rfl hraised hzero
      · exact .of_next rfl (by simp) hpos (write_same.2.1.trans hpieces) (write_same.2.2.2.2.2.2.1.trans hraised)
          (write_same.2.2.1.trans hbufferlen) hzero
    · exact .of_next rfl (by simp) hpos (write_same.2.1.trans hpieces) (write_same.2.2.2.2.2.2.1.trans hraised)
        (write_same.2.2.1.trans hbufferlen) hzero

theorem moves_readCryptoBlock4b (hfunc : p.nextFunc = .readCryptoBlock4b) : Moves env p q := by
  obtain ⟨hpieces, hraised, hstage⟩ := hp
  rw [hfunc] at hstage
  obtain ⟨hbufferlen, hlen, e, hencoder⟩ := hstage
  obtain ⟨hgo, -, hdemand, rfl⟩ := turn_eq_some h
  have hsix : p.demand = 6 := by
    rw [demand_of_pos (by omega), hlen]
    rfl
  have hpast : p.nextFunc.past = false := by rw [hfunc]; rfl
  have hzero : p.surplusOf env = 0 := by simp only [surplusOf, hfunc]
  have hcall : p.rest.call env (p.buffer.take p.demand) = readCryptoBlock4b env (p.buffer.take 6) p.rest := by
    simp only [call, rest, hfunc, hsix]
  rw [hsix] at hdemand
  rw [hcall]
  unfold readCryptoBlock4b
  rw [show p.rest.encoder = p.encoder from rfl, hencoder]
  dsimp only
  split
  · exact .of_isNone rfl hraised hzero
  · split
    · exact .of_isNone rfl hraised hzero
    · split
      · exact .of_isNone rfl hraised hzero
      · split
        · rename_i hpad
          rw [staged_next rfl hpieces hbufferlen]
          have hbuffer : p.buffer.drop p.demand = p.buffer.drop 6 := by rw [hsix]
          refine .of_staged hpast hgo (Int.natCast_nonneg _) ⟨hpieces, hraised, hbufferlen, by simp only; omega⟩ ?_
            (fun hno => ?_) fun _ => ?_
          · rw [hzero]
            simp only [surplusOf]
          · simp only [decidedOf, hfunc, hencoder, decidesBlock4b, rest, hbuffer] at hno ⊢
            simp_all
          · simp only [InReach, sought, reduceCtorEq, IsEmpty.forall_iff, implies_true]
        · exact .of_block4done hpieces hraised hbufferlen hzero

theorem moves_readCryptoPad4 (hfunc : p.nextFunc = .readCryptoPad4) : Moves env p q := by
  obtain ⟨hpieces, hraised, hstage⟩ := hp
  rw [hfunc] at hstage
  obtain ⟨hbufferlen, -⟩ := hstage
  obtain ⟨-, -, -, rfl⟩ := turn_eq_some h
  have hcall : p.rest.call env (p.buffer.take p.demand) = readCryptoBlock4done env p.rest := by
    simp only [call, rest, hfunc]
  rw [hcall]
  exact .of_block4done hpieces hraised hbufferlen (by simp only [surplusOf, hfunc])

theorem turn_moves : Moves env p q := by
  cases hfunc : p.nextFunc with
  | readHeader =>
    cases hloc : p.locallyInitiated with
    | false => exact moves_readHeader_incoming hp h hfunc hloc
    | true => exact moves_readHeader_outgoing hp h hfunc hloc
  | readCryptoHeader =>
    cases hloc : p.locallyInitiated with
    | false => exact moves_readCryptoHeader_incoming hp h hfunc hloc
    | true => exact moves_readCryptoHeader_outgoing hp h hfunc hloc
  | readCryptoBlock3a maxSearch => exact moves_readCryptoBlock3a hp h hfunc
  | readCryptoBlock3b => exact moves_readCryptoBlock3b hp h hfunc
  | readCryptoBlock3c => exact moves_readCryptoBlock3c hp h hfunc
  | readCryptoPad3 => exact moves_readCryptoPad3 hp h hfunc
  | readCryptoIa => exact moves_readCryptoIa hp h hfunc
  | readCryptoBlock4a maxSearch => exact moves_readCryptoBlock4a hp h hfunc
  | readCryptoBlock4b => exact moves_readCryptoBlock4b hp h hfunc
  | readCryptoPad4 => exact moves_readCryptoPad4 hp h hfunc
  | readEncryptedHeader => exact moves_readEncryptedHeader hp h hfunc
  | readOptions => exact moves_readOptions hp h hfunc
  | readDownloadId => exact moves_readDownloadId hp h hfunc
  | readPeerId => exact moves_readPeerId hp h hfunc
  | readLen => exact moves_readLen hp h hfunc
  | readMessage => exact moves_readMessage hp h hfunc
  | readDead =>
    obtain ⟨-, -, hstage⟩ := hp
    rw [hfunc] at hstage
    exact hstage.elim

end Moves

end BTProtocol

end BitBlinder.PeerWire
