import BitBlinder.Effects
import BitBlinder.Runs
import Mathlib.Data.Finset.Card
import Mathlib.Logic.Function.Basic
import Mathlib.Algebra.Ring.Nat

/-!
# The peers of a torrent

`JashEncoder` starts connections to peers and takes those that come in,
`JashConnecter` has the ones whose handshake is done. A `BTProtocol` is a number
here, and an incoming one may be passed from one torrent to another while it shakes
hands. A transport that was told to close delivers no more data. `attempts`,
`queues`, `admissions`, `made`, `lost` and `raised` are a record of the run that no
function reads.
-/

namespace BitBlinder.BitTorrent

open Effects

set_option autoImplicit false

inductive PyError where
  | keyError
  | dependencyError
  | nameError
  | attributeError
  deriving DecidableEq

structure EncoderConfig where
  myId : List UInt8
  security : Bool
  useSocks : Bool
  cryptoOnly : Bool
  maxConnections : Nat
  maxInitiate : Nat
  maxHalfOpen : Nat
  maxInitiatePerSecond : Nat
  globalConnectionLimit : Nat
  externalBans : List Char → Bool

/-- `ready` is that of BitBlinder, `others` counts the connections of the other torrents. -/
structure EncoderContext where
  ready : Bool
  others : Int
  now : Rat

/-- An `id` that is not known is 0 in the lists of the tracker. -/
structure Peer where
  dns : List Char × Nat
  id : Option (List UInt8)
  encrypted : Option Bool
  deriving DecidableEq

/-- The torrent that a protocol belongs to. -/
inductive Owner where
  | unknown
  | own
  | other
  deriving DecidableEq

/-- What the next data is read as. -/
inductive Stage where
  | connecting
  | readHeader
  | handshake
  | complete
  | dead
  deriving DecidableEq

/-- `reading` is there as long as the transport delivers data. -/
structure BTProtocol where
  incoming : Bool
  ip : List Char
  port : Nat
  id : Option (List UInt8)
  supposedlyEncrypted : Bool
  encrypted : Bool
  encoder : Owner
  stage : Stage
  complete : Bool
  closed : Bool
  reading : Bool
  disconnected : Bool
  readyToFlush : Bool

/-- What an incoming peer was decided on, and how. -/
structure Admission where
  done : Bool
  paused : Bool
  full : Bool
  banned : Bool
  outside : Bool
  admitted : Bool

structure JashConnecter where
  connections : Finset Nat
  made : List Nat
  lost : List Nat

structure JashEncoder where
  protocols : Nat → BTProtocol
  count : Nat
  connections : Finset Nat
  connecter : JashConnecter
  toConnect : List Peer
  prevConnected : List Peer
  neverConnected : List Peer
  banned : List (List Char)
  paused : Bool
  done : Bool
  startConnectionsEvent : Bool
  incompletecounter : Int
  lastPeerCycleTime : Rat
  attempts : Finset Nat
  queues : List (List Peer)
  admissions : List Admission
  raised : List PyError

def peerRetryInterval : Rat := 5 * 60

def localhost : List Char := ['1', '2', '7', '.', '0', '.', '0', '.', '1']

def unknownIp : List Char := ['u', 'n', 'k', 'n', 'o', 'w', 'n']

def EncoderConfig.limit (config : EncoderConfig) : Nat :=
  if config.maxConnections = 0 then 2 ^ 30 else config.maxConnections

namespace BTProtocol

def blank : BTProtocol where
  incoming := false
  ip := []
  port := 0
  id := none
  supposedlyEncrypted := false
  encrypted := false
  encoder := .unknown
  stage := .connecting
  complete := false
  closed := false
  reading := false
  disconnected := false
  readyToFlush := false

/-- `OutgoingBTProtocol`. -/
def outgoing (peer : Peer) (encrypted : Option Bool) : BTProtocol :=
  { blank with
    ip := peer.dns.1, port := peer.dns.2, id := peer.id,
    supposedlyEncrypted := encrypted = some true, encoder := .own }

/-- `IncomingBTProtocol`, connected. -/
def accepted (ip : List Char) (port : Nat) : BTProtocol :=
  { blank with incoming := true, ip := ip, port := port, stage := .readHeader, reading := true }

/-- Whether the id is one that Python takes for true. -/
def knowsId (id : Option (List UInt8)) : Bool := id.any (· ≠ [])

end BTProtocol

abbrev Jash (α : Type) := EStateM PyError JashEncoder α

namespace JashEncoder

def new : JashEncoder where
  protocols := fun _ => .blank
  count := 0
  connections := ∅
  connecter := ⟨∅, [], []⟩
  toConnect := []
  prevConnected := []
  neverConnected := []
  banned := []
  paused := false
  done := false
  startConnectionsEvent := false
  incompletecounter := 0
  lastPeerCycleTime := 0
  attempts := ∅
  queues := []
  admissions := []
  raised := []

def update (k : Nat) (f : BTProtocol → BTProtocol) (s : JashEncoder) : JashEncoder :=
  { s with protocols := Function.update s.protocols k (f (s.protocols k)) }

def raise {α : Type} (e : PyError) : Jash α := do
  modify fun s => { s with raised := s.raised ++ [e] }
  throw e

/-! ## Closing -/

/-- `JashConnecter.connection_lost`. -/
def connectionLost (k : Nat) : Jash Unit := do
  let s ← get
  if k ∈ s.connecter.connections then
    modify fun s => { s with
      connecter := ⟨s.connecter.connections.erase k, s.connecter.made, s.connecter.lost ++ [k]⟩ }
  else raise .keyError

/-- What belongs to another torrent is taken from the lists of that one. -/
def sever (k : Nat) : Jash Unit := do
  modify (update k fun p => { p with closed := true })
  let s ← get
  when ((s.protocols k).encoder = .own) do
    modify fun s => { s with connections := s.connections.erase k }
    when ((s.protocols k).complete) (connectionLost k)

def close (k : Nat) : Jash Unit := do
  let s ← get
  when (¬(s.protocols k).closed) do
    modify (update k fun p => { p with reading := false })
    sever k

def closeEach : List Nat → Jash Unit
  | [] => pure ()
  | k :: ks => do
    close k
    closeEach ks

/-! ## Starting connections -/

/-- Without an address `check_ip` asks the connection, and there is none. -/
def checkIp (config : EncoderConfig) (ip : List Char) (s : JashEncoder) : Bool :=
  !(config.security && s.banned.contains ip) && !config.externalBans ip

def cons (s : JashEncoder) : Int := s.connections.card + s.incompletecounter

/-- `LaunchMany.can_open_more_connections`. -/
def canOpenMoreConnections (config : EncoderConfig) (env : EncoderContext) (s : JashEncoder) : Bool :=
  env.others + s.cons < config.globalConnectionLimit

/-- `crypto_only` refuses a peer that is known not to encrypt. -/
def encryption (config : EncoderConfig) (encrypted : Option Bool) : Option (Option Bool) :=
  if config.cryptoOnly then
    if encrypted = some false then none else some (some true)
  else some encrypted

/-- A connection that is there already. -/
def connectedTo (config : EncoderConfig) (peer : Peer) (s : JashEncoder) : Prop :=
  ∃ v ∈ s.connections,
    BTProtocol.knowsId peer.id ∧ (s.protocols v).id = peer.id ∨
      config.security ∧ (s.protocols v).ip ≠ unknownIp ∧ (s.protocols v).ip = peer.dns.1

instance (config : EncoderConfig) (peer : Peer) (s : JashEncoder) : Decidable (connectedTo config peer s) :=
  inferInstanceAs (Decidable (∃ v ∈ s.connections, _))

/-- The checks of `start_connection` from the address on. -/
def startEncryption (config : EncoderConfig) (env : EncoderContext) (peer : Peer) (s : JashEncoder) :
    Option (Option Bool) :=
  if !s.checkIp config peer.dns.1 then none
  else if !s.canOpenMoreConnections config env then none
  else
    match encryption config peer.encrypted with
    | none => none
    | some encrypted => if s.connectedTo config peer then none else some encrypted

/-- What `start_connection` goes on with, if it does: the encryption to start with. -/
def startCheck (config : EncoderConfig) (env : EncoderContext) (peer : Peer) (s : JashEncoder) :
    Except PyError (Option (Option Bool)) :=
  if s.done then .ok none
  else if s.paused ∨ config.limit ≤ s.cons ∨ peer.id = some config.myId then .ok none
  else if peer.dns.1 = [] then .error .attributeError
  else .ok (s.startEncryption config env peer)

def addAttempt (peer : Peer) (encrypted : Option Bool) (s : JashEncoder) : JashEncoder :=
  { s with
    protocols := Function.update s.protocols s.count (.outgoing peer encrypted),
    count := s.count + 1,
    attempts := insert s.count s.attempts }

/-- The counter is raised before `launch_external_protocol` finds that BitBlinder is not ready. -/
def startConnection (config : EncoderConfig) (env : EncoderContext) (peer : Peer) : Jash Unit := do
  let s ← get
  match s.startCheck config env peer with
  | .error e => raise e
  | .ok none => pure ()
  | .ok (some encrypted) =>
    modify fun s => { s with incompletecounter := s.incompletecounter + 1 }
    if config.useSocks ∧ ¬env.ready then raise .dependencyError
    else modify (addAttempt peer encrypted)

def shouldConnectToNewPeer (config : EncoderConfig) (opened : Nat) (s : JashEncoder) : Bool :=
  s.cons < config.limit && s.cons < config.maxInitiate && s.incompletecounter < config.maxHalfOpen &&
    opened < config.maxInitiatePerSecond

/-- A list of peers is emptied from its head: `setQueue` is the list without it, `tried` what is
done with the peer when its connection has been started. -/
def drain (config : EncoderConfig) (env : EncoderContext) (setQueue : List Peer → JashEncoder → JashEncoder)
    (tried : Peer → JashEncoder → JashEncoder) : List Peer → Nat → Jash Nat
  | [], numOpened => pure numOpened
  | peer :: peers, numOpened => do
    let s ← get
    if s.shouldConnectToNewPeer config numOpened then
      modify (setQueue peers)
      startConnection config env peer
      modify (tried peer)
      drain config env setQueue tried peers (numOpened + 1)
    else pure numOpened

def setNeverConnected (peers : List Peer) (s : JashEncoder) : JashEncoder := { s with neverConnected := peers }

def setToConnect (peers : List Peer) (s : JashEncoder) : JashEncoder := { s with toConnect := peers }

def addPrevConnected (peer : Peer) (s : JashEncoder) : JashEncoder :=
  { s with prevConnected := s.prevConnected ++ [peer] }

/-- The two loops of the timer. -/
def drainQueues (config : EncoderConfig) (env : EncoderContext) : Jash Unit := do
  let s ← get
  let numOpened ← drain config env setNeverConnected addPrevConnected s.neverConnected 0
  let s ← get
  let _ ← drain config env setToConnect (fun _ s => s) s.toConnect numOpened

def cutPrevConnected (s : JashEncoder) : JashEncoder :=
  { s with prevConnected := s.prevConnected.drop (s.prevConnected.length - 300) }

def cyclePeers (now : Rat) (s : JashEncoder) : JashEncoder :=
  if s.toConnect = [] ∧ s.lastPeerCycleTime + peerRetryInterval < now then
    { s with lastPeerCycleTime := now, toConnect := s.prevConnected }
  else s

/-- What a connection raises ends the round, and the log has it. -/
def startConnectionFromQueue (config : EncoderConfig) (env : EncoderContext) : Jash Unit :=
  rescue
    (do
      let s ← get
      when (¬s.paused) (drainQueues config env)
      modify fun s => (s.cutPrevConnected).cyclePeers env.now)
    (pure ())

def addPeer (s : JashEncoder) (peer : Peer) : JashEncoder :=
  if peer ∈ s.toConnect then s
  else if peer ∈ s.prevConnected then { s with toConnect := s.toConnect ++ [peer] }
  else { s with neverConnected := s.neverConnected ++ [peer] }

def addPeers (peers : List Peer) (s : JashEncoder) : JashEncoder := peers.foldl addPeer s

def queue (s : JashEncoder) : List Peer := s.neverConnected ++ s.toConnect

def startConnections (config : EncoderConfig) (env : EncoderContext) (peers : List Peer) : Jash Unit := do
  modify (addPeers peers)
  modify fun s => { s with queues := s.queues ++ [s.queue] }
  modify fun s => { s with
    lastPeerCycleTime := if s.lastPeerCycleTime = 0 then env.now else s.lastPeerCycleTime }
  let s ← get
  when (¬s.startConnectionsEvent) do
    modify fun s => { s with startConnectionsEvent := true }
    startConnectionFromQueue config env

/-! ## Connections that are made -/

def connectSucceeded (k : Nat) : Jash Unit := do
  let s ← get
  if s.done then modify (update k fun p => { p with reading := false })
  else modify fun s => { s with connections := insert k s.connections }

/-- A connection through SOCKS has the address that was asked for, a direct one that of its
transport. -/
def established (config : EncoderConfig) (host : List Char) (p : BTProtocol) : BTProtocol :=
  { p with
    ip := if config.useSocks then p.ip else host
    stage := .readHeader
    encrypted := p.supposedlyEncrypted
    reading := true }

/-- `OutgoingBTProtocol.connectionMade`. -/
def outgoingMade (config : EncoderConfig) (k : Nat) (host : List Char) : Jash Unit := do
  modify fun s => { s with incompletecounter := s.incompletecounter - 1, attempts := s.attempts.erase k }
  modify (update k (established config host))
  connectSucceeded k

def connectFailed (k : Nat) (s : JashEncoder) : JashEncoder :=
  { s with incompletecounter := s.incompletecounter - 1, attempts := s.attempts.erase k }

/-- `IncomingBTFactory.buildProtocol`. -/
def accept (ip : List Char) (port : Nat) (s : JashEncoder) : JashEncoder :=
  { s with protocols := Function.update s.protocols s.count (.accepted ip port), count := s.count + 1 }

/-- The checks of `externally_handshaked_connection_made`, `true` for a peer to be closed. The
message about a peer from outside names a variable that is not there. -/
def shouldClose (config : EncoderConfig) (ip : List Char) (s : JashEncoder) : Except PyError Bool :=
  if s.done then .ok true
  else if config.useSocks ∧ ip ≠ localhost then .error .nameError
  else if s.paused then .ok true
  else if config.limit ≤ s.connections.card then .ok true
  else if s.checkIp config ip then .ok true
  else .ok false

def admission (config : EncoderConfig) (ip : List Char) (admitted : Bool) (s : JashEncoder) : Admission where
  done := s.done
  paused := s.paused
  full := config.limit ≤ s.connections.card
  banned := !s.checkIp config ip
  outside := config.useSocks && ip ≠ localhost
  admitted := admitted

def record (a : Admission) (s : JashEncoder) : JashEncoder := { s with admissions := s.admissions ++ [a] }

/-- `IncomingBTProtocol.externalHandshakeDone`. -/
def externalHandshakeDone (encrypted : Bool) (owner : Owner) (p : BTProtocol) : BTProtocol :=
  { p with encoder := owner, encrypted := encrypted, stage := .handshake }

/-- What is raised here makes the protocol dead to further data. -/
def externallyHandshakedConnectionMade (config : EncoderConfig) (k : Nat) (encrypted : Bool) : Jash Unit := do
  let s ← get
  let ip := (s.protocols k).ip
  match s.shouldClose config ip with
  | .error e =>
    modify (record (s.admission config ip false))
    modify (update k fun p => { p with stage := .dead })
    raise e
  | .ok true =>
    modify (record (s.admission config ip false))
    close k
  | .ok false =>
    modify (record (s.admission config ip true))
    connectSucceeded k
    modify (update k (externalHandshakeDone encrypted .own))

/-! ## The peer id -/

/-- The connections to close for the one with the number `k`, up to one that has its id at another
address. -/
def duplicates (config : EncoderConfig) (k : Nat) (s : JashEncoder) : List Nat → List Nat × Bool
  | [] => ([], true)
  | v :: vs =>
    let p := s.protocols k
    let q := s.protocols v
    if v = k then duplicates config k s vs
    else if p.id = q.id ∧ p.ip ≠ q.ip then ([], false)
    else
      let sameId := if p.id = q.id then [v] else []
      let sameIp := if config.security ∧ p.ip ≠ unknownIp ∧ p.ip = q.ip ∧ p.ip ≠ localhost then [v] else []
      let rest := duplicates config k s vs
      (sameId ++ sameIp ++ rest.1, rest.2)

def gotId (config : EncoderConfig) (k : Nat) (order : List Nat) : Jash Bool := do
  let s ← get
  if (s.protocols k).id = some config.myId then pure false
  else
    let found := duplicates config k s order
    closeEach found.1
    pure found.2

/-- `JashConnecter.connection_made`. -/
def connectionMade (k : Nat) (s : JashEncoder) : JashEncoder :=
  { s with connecter := ⟨insert k s.connecter.connections, s.connecter.made ++ [k], s.connecter.lost⟩ }

/-- `order` is that of the set of connections. -/
def readPeerId (config : EncoderConfig) (k : Nat) (id : List UInt8) (order : List Nat) : Jash Unit := do
  let s ← get
  let p := s.protocols k
  if ¬p.encrypted ∧ config.cryptoOnly then close k
  else if BTProtocol.knowsId p.id ∧ p.id ≠ some id then close k
  else
    modify (update k fun p => { p with id := some id })
    let complete ← gotId config k order
    modify (update k fun p => { p with complete := complete })
    if complete then
      modify (connectionMade k)
      modify (update k fun p => { p with stage := .complete, readyToFlush := true })
    else close k

/-- A protocol of another torrent: that one decides whether it is complete. -/
def readPeerIdElsewhere (id : List UInt8) (complete : Bool) (p : BTProtocol) : BTProtocol :=
  if complete then { p with id := some id, complete := true, stage := .complete, readyToFlush := true }
  else { p with id := some id, closed := true, reading := false }

def write (k : Nat) : Jash Unit := do
  let s ← get
  let p := s.protocols k
  when (¬p.closed ∧ p.readyToFlush ∧ p.encoder = .own ∧ k ∉ s.connecter.connections) (raise .keyError)

/-! ## The end of connections -/

def retries (p : BTProtocol) : Bool := p.stage = .readHeader && !p.supposedlyEncrypted

/-- A protocol whose transport is gone. -/
def cut (k : Nat) (s : JashEncoder) : JashEncoder :=
  s.update k fun p => { p with reading := false, disconnected := true }

def retryPeer (p : BTProtocol) : Peer where
  dns := (p.ip, p.port)
  id := p.id
  encrypted := some true

/-- `BTProtocol.connectionLost`, where `running` says that the application is ready or starting.
A connection that failed without encryption is tried with it. -/
def transportLost (config : EncoderConfig) (env : EncoderContext) (k : Nat) (running : Bool) : Jash Unit := do
  modify (cut k)
  let s ← get
  let p := s.protocols k
  when running do
    if p.encoder = .own then
      when (k ∈ s.connections) (sever k)
      when (retries p) (startConnection config env (retryPeer p))
    else modify (update k fun p => { p with closed := true })

def closeAll (order : List Nat) : Jash Unit := do
  modify fun s => { s with done := true }
  closeEach order
  modify fun s => { s with startConnectionsEvent := false }

inductive Action where
  | startConnections (env : EncoderContext) (peers : List Peer)
  | startConnection (env : EncoderContext) (peer : Peer)
  | startConnectionFromQueue (env : EncoderContext)
  | connected (k : Nat) (host : List Char)
  | failed (k : Nat)
  | accepted (ip : List Char) (port : Nat)
  | header (k : Nat)
  | handshake (k : Nat) (encrypted : Bool)
  | handshakeElsewhere (k : Nat) (encrypted : Bool)
  | peerId (k : Nat) (id : List UInt8) (order : List Nat)
  | peerIdElsewhere (k : Nat) (id : List UInt8) (complete : Bool)
  | write (k : Nat)
  | close (k : Nat)
  | lost (env : EncoderContext) (k : Nat) (running : Bool)
  | closeAll (order : List Nat)
  | pause (flag : Bool)
  | ban (ip : List Char)

/-- The protocol is given data, which it reads at this stage. -/
def Reads (stage : Stage) (p : BTProtocol) : Prop :=
  p.reading = true ∧ p.closed = false ∧ p.stage = stage

instance (stage : Stage) (p : BTProtocol) : Decidable (Reads stage p) :=
  inferInstanceAs (Decidable (_ ∧ _ ∧ _))

/-- An order in which the set of connections may be gone through. -/
def Lists (order : List Nat) (s : JashEncoder) : Prop := order.Nodup ∧ order.toFinset = s.connections

instance (order : List Nat) (s : JashEncoder) : Decidable (Lists order s) :=
  inferInstanceAs (Decidable (_ ∧ _))

def step (config : EncoderConfig) (s : JashEncoder) : Action → Option JashEncoder
  | .startConnections env peers => some (finish (startConnections config env peers) s)
  | .startConnection env peer => some (finish (startConnection config env peer) s)
  | .startConnectionFromQueue env =>
    if s.startConnectionsEvent then some (finish (startConnectionFromQueue config env) s) else none
  | .connected k host => if k ∈ s.attempts then some (finish (outgoingMade config k host) s) else none
  | .failed k => if k ∈ s.attempts then some (s.connectFailed k) else none
  | .accepted ip port => some (s.accept ip port)
  | .header k =>
    if Reads .readHeader (s.protocols k) then some (s.update k fun p => { p with stage := .handshake }) else none
  | .handshake k encrypted =>
    if Reads .handshake (s.protocols k) ∧ (s.protocols k).incoming then
      some (finish (externallyHandshakedConnectionMade config k encrypted) s)
    else none
  | .handshakeElsewhere k encrypted =>
    if Reads .handshake (s.protocols k) ∧ (s.protocols k).incoming then
      some (s.update k (externalHandshakeDone encrypted .other))
    else none
  | .peerId k id order =>
    if Reads .handshake (s.protocols k) ∧ (s.protocols k).encoder = .own ∧ Lists order s then
      some (finish (readPeerId config k id order) s)
    else none
  | .peerIdElsewhere k id complete =>
    if Reads .handshake (s.protocols k) ∧ (s.protocols k).encoder = .other then
      some (s.update k (readPeerIdElsewhere id complete))
    else none
  | .write k => if (s.protocols k).stage ≠ .connecting then some (finish (write k) s) else none
  | .close k => if (s.protocols k).stage ≠ .connecting then some (finish (close k) s) else none
  | .lost env k running =>
    if (s.protocols k).stage ≠ .connecting ∧ ¬(s.protocols k).disconnected then
      some (finish (transportLost config env k running) s)
    else none
  | .closeAll order => if Lists order s then some (finish (closeAll order) s) else none
  | .pause flag => some { s with paused := flag }
  | .ban ip => some { s with banned := ip :: s.banned }

end JashEncoder

end BitBlinder.BitTorrent
