import BitBlinder.BitTorrent.LaterData

/-!
# How the stream of a peer is cut

What the connecter is told, what is written and whether the connection stays open should not
depend on where the stream of the peer is cut. Two places of the encrypted handshake look at
what else has come: the header-only mode of an incoming connection fails on data after the initial
payload, and an outgoing connection that searches for the answer of the peer looks at one byte
first and at no more until the next delivery.
-/

namespace BitBlinder.PeerWire

open Struct (Bytes packBE unpackBE)
open Search (find lastItems)

set_option autoImplicit false

/-! ## What is seen of a connection -/

inductive EndState where
  | isOpen
  | isClosed
  | raised (e : PyError)

structure Outcome where
  messages : List Bytes
  written : List Bytes
  state : EndState

def BTProtocol.endState {κ σ : Type} (p : BTProtocol κ σ) : EndState :=
  match p.raised with
  | some e => .raised e
  | none => if p.closed then .isClosed else .isOpen

def BTProtocol.outcome {κ σ : Type} (p : BTProtocol κ σ) : Outcome := ⟨p.messages, p.written, p.endState⟩

/-- What a connection has come to when the chunks were delivered. -/
def received {κ σ : Type} (env : Context κ σ) (kind : Kind σ) (cuts : List Bytes) : BTProtocol κ σ :=
  cuts.foldl (BTProtocol.deliver env) (kind.connectionMade env)

def IsCut (cuts : List Bytes) (w : Bytes) : Prop := cuts.flatten = w ∧ [] ∉ cuts

/-! ## The streams on which it shows -/

section Streams
variable {κ σ : Type} (env : Context κ σ)

/-- The text after the key of a peer, when the header is not a plain one. -/
def afterKey (cryptoAllowed : Bool) (w : Bytes) : Option (Bytes × Bytes) :=
  if pstr.length ≤ w.length ∧ w.take pstr.length ≠ pstr ∧ cryptoAllowed = true ∧ DH_BYTES ≤ w.length then
    some (w.take DH_BYTES, w.drop DH_BYTES)
  else none

/-- The bytes after an initial payload of `n` bytes. -/
def surplusIa (n : Nat) (s : Bytes) : Nat := s.length - n

def surplusPad3 (n : Nat) (s : Bytes) : Nat :=
  if n ≤ s.length then surplusIa (unpackBE (lastItems 2 (s.take n))) (s.drop n) else 0

/-- A block 3c that is accepted and has only the header encrypted. -/
def headerOnly (config : Config) (s : Bytes) : Bool :=
  s.take 8 = List.replicate 8 0 && unpackBE ((s.drop 8).take 4) % 4 = 1 && !config.cryptoOnly &&
    unpackBE ((s.drop 12).take 2) ≤ 512

def surplusBlock3c (config : Config) (s : Bytes) : Nat :=
  if 14 ≤ s.length ∧ headerOnly config (s.take 14) = true then
    surplusPad3 (unpackBE (((s.take 14).drop 12).take 2) + 2) (s.drop 14)
  else 0

def surplusBlock3b (registered : List Bytes) (c : Crypto κ) (s : Bytes) : Nat :=
  if 20 ≤ s.length then
    match BTProtocol.meantTorrent env c (s.take 20) with
    | some (c, k, srs) =>
      if BTProtocol.admission env registered k srs = .admitted then
        surplusBlock3c srs.handler.config (c.decrypt env.prim (s.drop 20)).1
      else 0
    | none => 0
  else 0

def surplusBlock3a (registered : List Bytes) (c : Crypto κ) (s : Bytes) : Nat :=
  match find c.block3a s with
  | some i => surplusBlock3b env registered c (s.drop (i + c.block3a.length))
  | none => 0

/-- How many bytes come after the initial payload of a stream to an incoming connection in which only the
header is encrypted. -/
def surplus (w : Bytes) : Nat :=
  match afterKey env.config.cryptoAllowed w with
  | some (k, s) => surplusBlock3a env [] ((Crypto.new env.prim false env.privkey).receivedKey env.prim k) s
  | none => 0

def refusedBlock4b (config : Config) (s : Bytes) : Bool :=
  unpackBE (s.take 4) % 4 = 1 && config.cryptoOnly ||
    unpackBE (s.take 4) % 4 ≠ 1 && unpackBE (s.take 4) % 4 ≠ 2 || 512 < unpackBE ((s.drop 4).take 2)

/-- Whether the text decides what becomes of block 4. -/
def decidesBlock4b (config : Config) (s : Bytes) : Bool :=
  6 ≤ s.length && (refusedBlock4b config (s.take 6) || unpackBE (((s.take 6).drop 4).take 2) ≤ s.length - 6)

def decidesBlock4a (prim : Primitives κ) (config : Config) (c : Crypto κ) (maxSearch : Int) (s : Bytes) : Bool :=
  let v := c.VC_pattern prim
  match find v.1 s with
  | some i => decidesBlock4b config (v.2.decrypt prim (s.drop (i + v.1.length))).1
  | none => BTProtocol.searched s v.1 maxSearch < 0

/-- The encrypter of an outgoing connection that has a key. -/
def outgoingCrypto (e : Encoder σ) (k : Bytes) : Crypto κ :=
  ((Crypto.new env.prim true env.privkey).receivedKey env.prim k).setSkey env.prim e.downloadId

/-- Whether the stream to an encrypted outgoing connection has all of the answer of the peer, or none where
it would have to be. -/
def decided (e : Encoder σ) (w : Bytes) : Bool :=
  match afterKey e.config.cryptoAllowed w with
  | some (k, s) => decidesBlock4a env.prim e.config (outgoingCrypto env e k) 520 s
  | none => false

/-- The length of the pad after the key, where it ends. -/
def Kind.padLength : Kind σ → Bytes → Option Nat
  | .incoming, w => (afterKey env.config.cryptoAllowed w).bind fun x =>
      find ((Crypto.new env.prim false env.privkey).receivedKey env.prim x.1).block3a x.2
  | .outgoing e _ true, w => (afterKey e.config.cryptoAllowed w).bind fun x =>
      find ((outgoingCrypto env e x.1).VC_pattern env.prim).1 x.2
  | .outgoing _ _ false, _ => none

/-- A stream that a peer may send: the pad after its key is not longer than the protocol has it. -/
structure PeerStream (kind : Kind σ) where
  bytes : Bytes
  pad_le : ∀ n ∈ kind.padLength env bytes, n ≤ 512

/-- Neither of the two places is come to with the data that matters there. -/
def Kind.Harmless : Kind σ → Bytes → Prop
  | .incoming, w => surplus env w = 0
  | .outgoing e _ true, w => decided env e w = false
  | .outgoing _ _ false, _ => True

end Streams

end BitBlinder.PeerWire
