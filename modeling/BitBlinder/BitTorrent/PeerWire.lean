import BitBlinder.Feeding
import BitBlinder.Search
import BitBlinder.StreamCipher

/-!
# The wire protocol of the peers

`BTProtocol` with its incoming and its outgoing kind, from the first byte of the handshake
to the messages, and `Crypto`, which it is encrypted by. What the connecter does with a message
is a parameter, and so is what the torrents say of a connection. `_max_search` goes with the
function that reads it, attributes that are not set yet are empty, and an `id` that is not known
is too. Bandwidth, logs and the counters of the connections are not here.
-/

namespace BitBlinder.PeerWire

open Struct (Bytes packBE unpackBE)
open Search (find lastItems)

set_option autoImplicit false

inductive PyError where
  | assertionError
  | attributeError
  | nameError
  /-- Whatever the connecter raises. -/
  | connecter
  deriving DecidableEq

def protocolName : Bytes := "BitTorrent protocol".toUTF8.toList

def pstr : Bytes := UInt8.ofNat protocolName.length :: protocolName

def optionPattern : Bytes := List.replicate 8 0

/-! ## Encryption -/

structure Primitives (κ : Type) where
  sha : Bytes → Bytes
  sha_length : ∀ s, (sha s).length = 20
  rc4 : StreamCipher κ

def DH_PRIME : Nat :=
  0xFFFFFFFFFFFFFFFFC90FDAA22168C234C4C6628B80DC1CD129024E088A67CC74020BBEA63B139B22514A08798E3404DDEF9519B3CD3A431B302B0A6DF25F14374FE1356D6D51C245E485B576625E7EC6F44C42E9A63A36210000000000090563

def DH_BYTES : Nat := 96

def bytetonum (x : Bytes) : Nat := unpackBE x

def numtobyte (x : Nat) : Bytes := packBE DH_BYTES x

structure Crypto (κ : Type) where
  initiator : Bool
  privkey : Nat
  S : Bytes
  block3a : Bytes
  block3bkey : Bytes
  block3b : Bytes
  encrypter : κ
  decrypter : κ
  vcPattern : Option Bytes

namespace Crypto
variable {κ : Type} (prim : Primitives κ) (c : Crypto κ)

def new (initiator : Bool) (privkey : Nat) : Crypto κ :=
  ⟨initiator, privkey, [], [], [], [], prim.rc4.init [], prim.rc4.init [], none⟩

def pubkey : Bytes := numtobyte (2 ^ c.privkey % DH_PRIME)

def receivedKey (k : Bytes) : Crypto κ :=
  let S := numtobyte (bytetonum k ^ c.privkey % DH_PRIME)
  { c with
    S := S
    block3a := prim.sha ("req1".toUTF8.toList ++ S)
    block3bkey := prim.sha ("req3".toUTF8.toList ++ S)
    block3b := [] }

def genBlock3b (skey : Bytes) : Bytes :=
  List.zipWith (fun a b => a ^^^ b) (prim.sha ("req2".toUTF8.toList ++ skey)) c.block3bkey

def encrypt (s : Bytes) : Bytes × Crypto κ :=
  ((prim.rc4.update c.encrypter s).1, { c with encrypter := (prim.rc4.update c.encrypter s).2 })

def decrypt (s : Bytes) : Bytes × Crypto κ :=
  ((prim.rc4.update c.decrypter s).1, { c with decrypter := (prim.rc4.update c.decrypter s).2 })

/-- The first 1024 bytes are discarded. -/
def setSkey (skey : Bytes) : Crypto κ :=
  let crypta := prim.rc4.init (prim.sha ("keyA".toUTF8.toList ++ c.S ++ skey))
  let cryptb := prim.rc4.init (prim.sha ("keyB".toUTF8.toList ++ c.S ++ skey))
  let c := if c.block3b = [] then { c with block3b := c.genBlock3b prim skey } else c
  let c := if c.initiator then { c with encrypter := crypta, decrypter := cryptb }
    else { c with encrypter := cryptb, decrypter := crypta }
  ((c.encrypt prim (List.replicate 1024 120)).2.decrypt prim (List.replicate 1024 120)).2

/-- What `test_skey` compares, and what it leaves when they are equal. -/
def testSkey (s skey : Bytes) : Option (Crypto κ) :=
  if c.genBlock3b prim skey = s then some (setSkey prim { c with block3b := s } skey) else none

def VC_pattern : Bytes × Crypto κ :=
  match c.vcPattern with
  | some pat => (pat, c)
  | none =>
    let x := c.decrypt prim (List.replicate 8 0)
    (x.1, { x.2 with vcPattern := some x.1 })

end Crypto

/-! ## The torrents and their connecters -/

inductive Action where
  | write (s : Bytes)
  | close

/-- What the connecter does to the protocol that it is told something by. -/
structure Reaction (σ : Type) where
  next : σ
  actions : List Action
  raises : Bool

structure Connecter (σ : Type) where
  connectionMade : σ → Reaction σ
  gotMessage : σ → Bytes → Reaction σ
  connectionLost : σ → σ

structure Config where
  cryptoAllowed : Bool
  cryptoOnly : Bool
  cryptoStealth : Bool
  useSocks : Bool

/-- `connections` counts those to others. `gotId` is the answer for an id at the address of the peer. -/
structure Encoder (σ : Type) where
  config : Config
  downloadId : Bytes
  myId : Bytes
  maxLen : Nat
  done : Bool
  paused : Bool
  connections : Nat
  maxConnections : Nat
  checkIp : String → Bool
  gotId : Bytes → Bool
  connecter : σ

structure SingleRawServer (σ : Type) where
  protocol : Bytes
  running : Bool
  handler : Encoder σ

/-- `ip` is the address of the peer, `config` that of the multihandler, and `padding` gives the pads
in the order in which they are asked for. -/
structure Context (κ σ : Type) where
  prim : Primitives κ
  connecter : Connecter σ
  config : Config
  singlerawservers : List (Bytes × SingleRawServer σ)
  ip : String
  privkey : Nat
  padding : Nat → Bytes

/-! ## The protocol -/

inductive NextFunc where
  | readHeader
  | readCryptoHeader
  | readCryptoBlock3a (maxSearch : Int)
  | readCryptoBlock3b
  | readCryptoBlock3c
  | readCryptoPad3
  | readCryptoIa
  | readCryptoBlock4a (maxSearch : Int)
  | readCryptoBlock4b
  | readCryptoPad4
  | readEncryptedHeader
  | readOptions
  | readDownloadId
  | readPeerId
  | readLen
  | readMessage
  | readDead
  deriving DecidableEq

/-- What a function that reads returns: `None`, `True`, or the length and the function of the next data. -/
inductive Reply where
  | isNone
  | isTrue
  | next (len : Int) (func : NextFunc)
  | raises (e : PyError)

def Reply.returns : Reply → Bool
  | .isNone | .raises _ => true
  | _ => false

/-- `crypted` says that `read` and `write` are those of the encrypter. The buffer is a text until
`bufferlen` is set, and from then on it is `pieces`. -/
structure BTProtocol (κ σ : Type) where
  locallyInitiated : Bool
  id : Bytes
  encoder : Option (Encoder σ)
  /-- The torrents whose connections this one is among. -/
  registered : List Bytes
  encrypted : Bool
  encrypter : Option (Crypto κ)
  crypted : Bool
  cryptmode : Nat
  options : Bytes
  complete : Bool
  closed : Bool
  raised : Option PyError
  buffer : Bytes
  pieces : List Bytes
  bufferlen : Option Nat
  nextLen : Int
  nextFunc : NextFunc
  pads : Nat
  written : List Bytes
  messages : List Bytes

namespace BTProtocol
variable {κ σ : Type} (env : Context κ σ)

def writeRaw (s : Bytes) (p : BTProtocol κ σ) : BTProtocol κ σ :=
  if p.closed then p else { p with written := p.written ++ [s] }

def write (s : Bytes) (p : BTProtocol κ σ) : BTProtocol κ σ :=
  match p.crypted, p.encrypter with
  | true, some c => writeRaw (c.encrypt env.prim s).1 { p with encrypter := some (c.encrypt env.prim s).2 }
  | _, _ => writeRaw s p

def sever (p : BTProtocol κ σ) : BTProtocol κ σ :=
  { p with
    closed := true
    encoder := p.encoder.map fun e =>
      if p.complete then { e with connecter := env.connecter.connectionLost e.connecter } else e }

def close (p : BTProtocol κ σ) : BTProtocol κ σ := if p.closed then p else p.sever env

def writeBuffer (s : Bytes) (p : BTProtocol κ σ) : BTProtocol κ σ := { p with buffer := s ++ p.buffer }

/-- What `padding` returns, and the protocol that has asked for it. -/
def padding (p : BTProtocol κ σ) : Bytes := env.padding p.pads

def padded (p : BTProtocol κ σ) : BTProtocol κ σ := { p with pads := p.pads + 1 }

def act (p : BTProtocol κ σ) : Action → BTProtocol κ σ
  | .write s => p.write env s
  | .close => p.close env

def react (p : BTProtocol κ σ) (actions : List Action) : BTProtocol κ σ := actions.foldl (act env) p

def createFullHandshake (e : Encoder σ) : Bytes := pstr ++ optionPattern ++ e.downloadId ++ e.myId

def startCrypto (p : BTProtocol κ σ) : BTProtocol κ σ :=
  match p.encrypter with
  | none => { p with crypted := true }
  | some c =>
    { p with
      crypted := true
      buffer := (c.decrypt env.prim p.buffer).1
      encrypter := some (c.decrypt env.prim p.buffer).2 }

def endCrypto (p : BTProtocol κ σ) : BTProtocol κ σ := { p with crypted := false, encrypter := none }

/-- What is left of `_max_search` by a text without the pattern. -/
def searched (s pat : Bytes) (maxSearch : Int) : Int :=
  if pat.length ≤ s.length then maxSearch - (s.length + 1 - pat.length) else maxSearch

/-- Whether the pattern was found, and `_max_search`. -/
def searchForPattern (s pat : Bytes) (maxSearch : Int) (p : BTProtocol κ σ) : Bool × Int × BTProtocol κ σ :=
  match find pat s with
  | none =>
    if searched s pat maxSearch < 0 then (false, searched s pat maxSearch, p.close env)
    else (false, searched s pat maxSearch, p.writeBuffer (lastItems (pat.length - 1) s))
  | some i => (true, maxSearch, p.writeBuffer (s.drop (i + pat.length)))

/-! ### The incoming side of the torrents -/

def externalHandshakeDone (e : Encoder σ) (encrypted : Option (Crypto κ)) (options : Bytes)
    (p : BTProtocol κ σ) : BTProtocol κ σ :=
  match encrypted with
  | some c =>
    { p with
      encoder := some e, encrypter := some c, encrypted := true, nextLen := 14, nextFunc := .readCryptoBlock3c }
  | none =>
    { p with encoder := some e, encrypted := false, options := options, nextLen := 20, nextFunc := .readPeerId }

inductive Admission where
  | notRunning
  | refused
  | nameError
  | admitted
  deriving DecidableEq

/-- The tests of `_external_connection_made` and of `externally_handshaked_connection_made`. The text of
the second refusal of the latter has a name in it that is not defined, and its last test is the wrong way
round. -/
def admission (registered : List Bytes) (k : Bytes) (srs : SingleRawServer σ) : Admission :=
  let e := srs.handler
  if !srs.running then .notRunning
  else if e.done then .refused
  else if e.config.useSocks && env.ip != "127.0.0.1" then .nameError
  else if e.paused then .refused
  else if e.maxConnections ≤ e.connections + (if registered.contains k then 1 else 0) then .refused
  else if e.checkIp env.ip then .refused
  else .admitted

def externalConnectionMade (k : Bytes) (srs : SingleRawServer σ) (options : Bytes) (encrypted : Option (Crypto κ))
    (p : BTProtocol κ σ) : BTProtocol κ σ × Except PyError Bool :=
  match admission env p.registered k srs with
  | .notRunning => (p, .ok false)
  | .refused => (p.close env, .ok false)
  | .nameError => (p, .error .nameError)
  | .admitted =>
    (externalHandshakeDone srs.handler encrypted options { p with registered := k :: p.registered }, .ok true)

/-! ### The functions that read -/

def readHeader (s : Bytes) (p : BTProtocol κ σ) : BTProtocol κ σ × Reply :=
  match p.encoder with
  | none => (p, .raises .attributeError)
  | some e =>
    if s = pstr then
      if p.encrypted || e.config.cryptoStealth then (p, .isNone) else (p, .next 8 .readOptions)
    else if p.locallyInitiated && !p.encrypted then (p, .isNone)
    else if !e.config.cryptoAllowed then (p, .isNone)
    else
      let p := if p.encrypted then p
        else { p with encrypted := true, encrypter := some (.new env.prim p.locallyInitiated env.privkey) }
      (p.writeBuffer s, .next DH_BYTES .readCryptoHeader)

/-- The header of an incoming connection. -/
def readHeaderIncoming (s : Bytes) (p : BTProtocol κ σ) : BTProtocol κ σ × Reply :=
  if s = pstr then
    if env.config.cryptoOnly then (p, .isNone) else (p, .next 8 .readOptions)
  else if !env.config.cryptoAllowed then (p, .isNone)
  else
    let p := { p with encrypted := true, encrypter := some (.new env.prim false env.privkey) }
    (p.writeBuffer s, .next DH_BYTES .readCryptoHeader)

/-- The branch of a connection that was started here. The other kind has its own function. -/
def readCryptoHeader (s : Bytes) (p : BTProtocol κ σ) : BTProtocol κ σ × Reply :=
  match p.encrypter, p.encoder with
  | some c, some e =>
    let c := (c.receivedKey env.prim s).setSkey env.prim e.downloadId
    let cryptmode : Bytes := if e.config.cryptoOnly then [0, 0, 0, 2] else [0, 0, 0, 3]
    let padc := p.padding env
    let x := c.encrypt env.prim (List.replicate 8 0 ++ cryptmode ++ packBE 2 padc.length ++ padc ++ [0, 0])
    (write env (c.block3a ++ c.block3b ++ x.1) { p.padded with encrypter := some x.2 },
      .next 1 (.readCryptoBlock4a 520))
  | _, _ => (p, .raises .attributeError)

def readCryptoHeaderIncoming (s : Bytes) (p : BTProtocol κ σ) : BTProtocol κ σ × Reply :=
  match p.encrypter with
  | none => (p, .raises .attributeError)
  | some c =>
    (write env (c.pubkey ++ p.padding env) { p.padded with encrypter := some (c.receivedKey env.prim s) },
      .next 0 (.readCryptoBlock3a 520))

def readCryptoBlock3a (s : Bytes) (maxSearch : Int) (p : BTProtocol κ σ) : BTProtocol κ σ × Reply :=
  match p.encrypter with
  | none => (p, .raises .attributeError)
  | some c =>
    let r := p.searchForPattern env s c.block3a maxSearch
    if r.1 then (r.2.2, .next 20 .readCryptoBlock3b) else (r.2.2, .next (-1) (.readCryptoBlock3a r.2.1))

/-- The torrent whose key was meant, the first in the order of the dictionary. -/
def meantTorrent (c : Crypto κ) (s : Bytes) : Option (Crypto κ × Bytes × SingleRawServer σ) :=
  env.singlerawservers.findSome? fun t => (c.testSkey env.prim s t.1).map fun c => (c, t)

/-- What the function of the base class returns is left. -/
def readCryptoBlock3b (s : Bytes) (p : BTProtocol κ σ) : BTProtocol κ σ × Reply :=
  match p.encrypter with
  | none => (p, .raises .attributeError)
  | some c =>
    match meantTorrent env c s with
    | none => (p, .isNone)
    | some (c, k, srs) =>
      match externalConnectionMade env k srs [] (some c) { p with encrypter := some c } with
      | (p, .error e) => (p, .raises e)
      | (p, .ok false) => (p, .isNone)
      | (p, .ok true) => (if s = c.block3b then p.startCrypto env else p, .isTrue)

def readCryptoBlock3c (s : Bytes) (p : BTProtocol κ σ) : BTProtocol κ σ × Reply :=
  match p.encoder with
  | none => (p, .raises .attributeError)
  | some e =>
    if s.take 8 ≠ List.replicate 8 0 then (p, .isNone)
    else
      let p := { p with cryptmode := unpackBE ((s.drop 8).take 4) % 4 }
      let padlen := unpackBE ((s.drop 12).take 2)
      if p.cryptmode = 0 then (p, .isNone)
      else if p.cryptmode = 1 && e.config.cryptoOnly then (p, .isNone)
      else if padlen > 512 then (p, .isNone)
      else (p, .next (padlen + 2) .readCryptoPad3)

def readCryptoBlock3done (ia : Bytes) (p : BTProtocol κ σ) : BTProtocol κ σ × Reply :=
  if p.cryptmode = 1 then
    if p.buffer ≠ [] then (p, .raises .assertionError)
    else (p.endCrypto.writeBuffer ia, .next (1 + protocolName.length) .readEncryptedHeader)
  else (p.writeBuffer ia, .next (1 + protocolName.length) .readEncryptedHeader)

def readCryptoPad3 (s : Bytes) (p : BTProtocol κ σ) : BTProtocol κ σ × Reply :=
  let ialen := unpackBE (lastItems 2 s)
  let cryptmode : Bytes := if p.cryptmode = 1 then [0, 0, 0, 1] else [0, 0, 0, 2]
  let padd := p.padding env
  let p := p.padded.write env (List.replicate 8 0 ++ cryptmode ++ packBE 2 padd.length ++ padd)
  if ialen ≠ 0 then (p, .next ialen .readCryptoIa) else p.readCryptoBlock3done []

def readCryptoBlock4a (s : Bytes) (maxSearch : Int) (p : BTProtocol κ σ) : BTProtocol κ σ × Reply :=
  match p.encrypter with
  | none => (p, .raises .attributeError)
  | some c =>
    let v := c.VC_pattern env.prim
    let r := searchForPattern env s v.1 maxSearch { p with encrypter := some v.2 }
    if r.1 then (r.2.2.startCrypto env, .next 6 .readCryptoBlock4b)
    else (r.2.2, .next (-1) (.readCryptoBlock4a r.2.1))

def readCryptoBlock4done (p : BTProtocol κ σ) : BTProtocol κ σ × Reply :=
  match p.encoder with
  | none => (p, .raises .attributeError)
  | some e =>
    if p.cryptmode = 1 then
      if p.buffer = [] then (p, .isNone)
      else (p.endCrypto.write env (createFullHandshake e), .next (1 + protocolName.length) .readEncryptedHeader)
    else (p.write env (createFullHandshake e), .next (1 + protocolName.length) .readEncryptedHeader)

def readCryptoBlock4b (s : Bytes) (p : BTProtocol κ σ) : BTProtocol κ σ × Reply :=
  match p.encoder with
  | none => (p, .raises .attributeError)
  | some e =>
    let p := { p with cryptmode := unpackBE (s.take 4) % 4 }
    let padlen := unpackBE ((s.drop 4).take 2)
    if p.cryptmode = 1 && e.config.cryptoOnly then (p, .isNone)
    else if p.cryptmode ≠ 1 && p.cryptmode ≠ 2 then (p, .isNone)
    else if padlen > 512 then (p, .isNone)
    else if padlen ≠ 0 then (p, .next padlen .readCryptoPad4)
    else p.readCryptoBlock4done env

def readEncryptedHeader (s : Bytes) (p : BTProtocol κ σ) : BTProtocol κ σ × Reply :=
  if s = pstr then (p, .next 8 .readOptions) else (p, .isNone)

def readOptions (s : Bytes) (p : BTProtocol κ σ) : BTProtocol κ σ × Reply :=
  ({ p with options := s }, .next 20 .readDownloadId)

def readDownloadId (s : Bytes) (p : BTProtocol κ σ) : BTProtocol κ σ × Reply :=
  match p.encoder with
  | none => (p, .raises .attributeError)
  | some e =>
    if s ≠ e.downloadId || !e.checkIp env.ip then (p, .isNone)
    else if p.locallyInitiated then (p, .next 20 .readPeerId)
    else (p.write env (createFullHandshake e), .next 20 .readPeerId)

/-- What the function of the base class returns is left here too. -/
def readDownloadIdIncoming (s : Bytes) (p : BTProtocol κ σ) : BTProtocol κ σ × Reply :=
  match env.singlerawservers.find? (·.1 = s) with
  | none => (p, .isNone)
  | some (k, srs) =>
    if srs.protocol = protocolName then
      match externalConnectionMade env k srs p.options none p with
      | (p, .error e) => (p, .raises e)
      | (p, .ok false) => (p, .isNone)
      | (p, .ok true) => ((p.readDownloadId env s).1, .isTrue)
    else (p, .isNone)

def switchToRead2 (p : BTProtocol κ σ) : BTProtocol κ σ :=
  { p with buffer := [], pieces := [p.buffer], bufferlen := some p.buffer.length }

def told (r : Reaction σ) (e : Encoder σ) (p : BTProtocol κ σ) : BTProtocol κ σ :=
  react env { p with encoder := some { e with connecter := r.next } } r.actions

def readPeerId (s : Bytes) (p : BTProtocol κ σ) : BTProtocol κ σ × Reply :=
  match p.encoder with
  | none => (p, .raises .attributeError)
  | some e =>
    if !p.encrypted && e.config.cryptoOnly then (p, .isNone)
    else if p.id ≠ [] && s ≠ p.id then (p, .isNone)
    else
      let p := { p with id := s, complete := e.gotId s }
      if !p.complete then (p, .isNone)
      else
        let r := env.connecter.connectionMade e.connecter
        let p := told env r e p.switchToRead2
        if r.raises then (p, .raises .connecter) else (p, .next 4 .readLen)

def readLen (s : Bytes) (p : BTProtocol κ σ) : BTProtocol κ σ × Reply :=
  match p.encoder with
  | none => (p, .raises .attributeError)
  | some e =>
    let l := unpackBE s
    if l > e.maxLen then (p, .isNone) else (p, .next l .readMessage)

def readMessage (s : Bytes) (p : BTProtocol κ σ) : BTProtocol κ σ × Reply :=
  if s = [] then (p, .next 4 .readLen)
  else
    match p.encoder with
    | none => (p, .raises .attributeError)
    | some e =>
      let r := env.connecter.gotMessage e.connecter s
      let p := told env r e { p with messages := p.messages ++ [s] }
      if r.raises then (p, .raises .connecter) else (p, .next 4 .readLen)

def call (s : Bytes) (p : BTProtocol κ σ) : BTProtocol κ σ × Reply :=
  match p.nextFunc with
  | .readHeader => if p.locallyInitiated then p.readHeader env s else p.readHeaderIncoming env s
  | .readCryptoHeader => if p.locallyInitiated then p.readCryptoHeader env s else p.readCryptoHeaderIncoming env s
  | .readCryptoBlock3a maxSearch => p.readCryptoBlock3a env s maxSearch
  | .readCryptoBlock3b => p.readCryptoBlock3b env s
  | .readCryptoBlock3c => p.readCryptoBlock3c s
  | .readCryptoPad3 => p.readCryptoPad3 env s
  | .readCryptoIa => p.readCryptoBlock3done s
  | .readCryptoBlock4a maxSearch => p.readCryptoBlock4a env s maxSearch
  | .readCryptoBlock4b => p.readCryptoBlock4b env s
  | .readCryptoPad4 => p.readCryptoBlock4done env
  | .readEncryptedHeader => p.readEncryptedHeader s
  | .readOptions => p.readOptions s
  | .readDownloadId => if p.locallyInitiated then p.readDownloadId env s else p.readDownloadIdIncoming env s
  | .readPeerId => p.readPeerId env s
  | .readLen => p.readLen s
  | .readMessage => p.readMessage env s
  | .readDead => (p, .isNone)

/-! ### The two readers -/

/-- What a reader does with what the function returned. -/
def answered (r : BTProtocol κ σ × Reply) : BTProtocol κ σ :=
  match r.2 with
  | .isNone => r.1.close env
  | .isTrue => r.1
  | .next len func => { r.1 with nextLen := len, nextFunc := func }
  | .raises e => { r.1 with nextLen := 1, nextFunc := .readDead, raised := some e }

/-- Functions that leave all data in the buffer come before those that they go on with. -/
def rank (func : NextFunc) (len : Int) : Nat :=
  match func with
  | .readHeader => 14
  | .readCryptoHeader => 13
  | .readCryptoBlock3a _ | .readCryptoBlock4a _ => if len < 0 then 11 else 12
  | .readCryptoBlock3b => 10
  | .readCryptoBlock3c | .readCryptoBlock4b => 9
  | .readCryptoPad3 | .readCryptoPad4 => 8
  | .readCryptoIa => 7
  | .readEncryptedHeader => 6
  | .readOptions => 5
  | .readDownloadId => 4
  | .readPeerId => 3
  | .readLen => if len = 0 then 3 else 1
  | .readMessage => 2
  | .readDead => 1

def halted (p : BTProtocol κ σ) : Bool := p.closed || p.raised.isSome

def work (p : BTProtocol κ σ) : Nat := if p.halted then 0 else rank p.nextFunc p.nextLen

/-- No loop takes more turns. -/
def size (p : BTProtocol κ σ) : Nat := 2 * (p.pieces.flatten.length + p.buffer.length) + p.work

def read2Call (m : Bytes) (p : BTProtocol κ σ) : Loop (BTProtocol κ σ × Bytes) :=
  let r := p.call env m
  let p := answered env r
  if r.2.returns || p.nextLen < 0 then .back (p, []) else .again (p, [])

/-- The body of the loop of `_read2`, with its `s`. -/
def read2Turn (t : BTProtocol κ σ × Bytes) : Loop (BTProtocol κ σ × Bytes) :=
  let p := t.1
  let s := t.2
  let bufferlen := p.bufferlen.getD 0
  let k := p.nextLen - bufferlen
  if p.closed then .back t
  else if p.nextLen = 0 then p.read2Call env []
  else if s ≠ [] then
    if k > s.length then .back ({ p with pieces := p.pieces ++ [s], bufferlen := some (bufferlen + s.length) }, [])
    else
      let rest := if k = s.length then [] else [s.drop k.toNat]
      read2Call env (p.pieces.flatten ++ s.take k.toNat)
        { p with pieces := rest, bufferlen := some (s.length - k.toNat) }
  else if k ≤ 0 then
    let s := p.pieces.headD []
    let rest := if k = 0 then [] else [s.drop p.nextLen.toNat]
    read2Call env (s.take p.nextLen.toNat)
      { p with pieces := rest, bufferlen := some (s.length - p.nextLen.toNat) }
  else .back t

def read2 (s : Bytes) (p : BTProtocol κ σ) : BTProtocol κ σ :=
  (whileTrue (read2Turn env) (p.size + 2 * s.length + 1) (p, s)).1

def readCall (m : Bytes) (p : BTProtocol κ σ) : Loop (BTProtocol κ σ) :=
  let r := p.call env m
  let p := answered env r
  if r.2.returns || p.nextLen < 0 then .back p
  else if p.bufferlen.isSome then .back (p.read2 env [])
  else .again p

/-- The body of the loop of `read`. -/
def readTurn (p : BTProtocol κ σ) : Loop (BTProtocol κ σ) :=
  if p.closed then .back p
  else if p.nextLen ≤ 0 then readCall env p.buffer { p with buffer := [] }
  else if p.nextLen ≤ p.buffer.length then
    readCall env (p.buffer.take p.nextLen.toNat) { p with buffer := p.buffer.drop p.nextLen.toNat }
  else .back p

def read (s : Bytes) (p : BTProtocol κ σ) : BTProtocol κ σ :=
  let p := { p with buffer := p.buffer ++ s }
  whileTrue (readTurn env) (p.size + 2) p

def rawRead (s : Bytes) (p : BTProtocol κ σ) : BTProtocol κ σ :=
  if p.bufferlen.isSome then p.read2 env s else p.read env s

/-- What `read` makes of the data before `_read` has it. -/
def decoded (crypted : Bool) (encrypter : Option (Crypto κ)) (s : Bytes) : Bytes × Option (Crypto κ) :=
  match crypted, encrypter with
  | true, some c => ((c.decrypt env.prim s).1, some (c.decrypt env.prim s).2)
  | _, _ => (s, encrypter)

def dataReceived (s : Bytes) (p : BTProtocol κ σ) : BTProtocol κ σ :=
  let x := decoded env p.crypted p.encrypter s
  rawRead env x.1 { p with encrypter := x.2 }

/-- A transport that was told to close, or whose protocol raised, delivers no more. -/
def deliver (p : BTProtocol κ σ) (s : Bytes) : BTProtocol κ σ := if p.halted then p else p.dataReceived env s

end BTProtocol

/-! ## The two kinds of connections -/

inductive Kind (σ : Type) where
  | incoming
  | outgoing (encoder : Encoder σ) (id : Bytes) (supposedlyEncrypted : Bool)

def Kind.fresh {κ σ : Type} (locallyInitiated : Bool) (id : Bytes) (encoder : Option (Encoder σ)) : BTProtocol κ σ where
  locallyInitiated := locallyInitiated
  id := id
  encoder := encoder
  registered := []
  encrypted := false
  encrypter := none
  crypted := false
  cryptmode := 0
  options := []
  complete := false
  closed := false
  raised := none
  buffer := []
  pieces := []
  bufferlen := none
  nextLen := 1 + protocolName.length
  nextFunc := .readHeader
  pads := 0
  written := []
  messages := []

/-- The protocol after `connectionMade`. -/
def Kind.connectionMade {κ σ : Type} (env : Context κ σ) : Kind σ → BTProtocol κ σ
  | .incoming => fresh false [] none
  | .outgoing e id true =>
    let c : Crypto κ := .new env.prim true env.privkey
    let p : BTProtocol κ σ := fresh true id (some e)
    BTProtocol.write env (c.pubkey ++ p.padding env) { p.padded with encrypted := true, encrypter := some c }
  | .outgoing e id false =>
    BTProtocol.write env (BTProtocol.createFullHandshake e) (fresh true id (some e))

end BitBlinder.PeerWire
