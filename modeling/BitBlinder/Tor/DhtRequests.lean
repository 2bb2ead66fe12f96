import BitBlinder.Basic
import BitBlinder.Runs

/-!
# Requests to the DHT over a circuit

`DHTProxy` asks for the peers of a torrent through a circuit, and `DHTProvider`
at the other end of it asks its DHT node. A request gets a transaction there, but
the response does not say which request it is for. Transactions are numbered from
0, so that the dictionary of their responses is a list here. `sent`, `searches`,
`answers` and `calls` list what was done, and no function reads them.
-/

namespace BitBlinder.Tor.Dht

set_option autoImplicit false

open Struct (Bytes Fmt)

def VERSION : Nat := 0

/-- A host and a port. -/
abbrev Node := Bytes × Nat

def BOOTSTRAP_NODES : List Node := [("router.utorrent.com".toUTF8.toList, 6881)]

/-- `isIPAddress` with `inet_aton`, and `inet_ntoa`. -/
structure Inet where
  aton : Bytes → Option Bytes
  ntoa : Bytes → Bytes
  aton_length : ∀ host addr, aton host = some addr → addr.length = 4

structure Infohash where
  bytes : Bytes
  length_eq : bytes.length = 20

/-! ### Messages -/

section
variable (inet : Inet)

def peerMessage (peer : Node) : PyExcept Bytes :=
  match inet.aton peer.1 with
  | some addr => do
    let peerType ← Basic.writeByte 0
    let vals ← Basic.structPack [.s 4, .H] (addr, peer.2, ())
    return peerType ++ vals
  | none => do
    let peerType ← Basic.writeByte 1
    let host ← Basic.writeLenstr peer.1
    let port ← Basic.writeShort peer.2
    return peerType ++ host ++ port

def peersMessage : List Node → PyExcept Bytes
  | [] => .ok []
  | peer :: peers => do
    let msg ← peerMessage inet peer
    let rest ← peersMessage peers
    return msg ++ rest

/-- The message that `_send_remote_peer_request` generates. -/
def requestMessage (infohash : Infohash) (knownNodes : List Node) : PyExcept Bytes := do
  let version ← Basic.writeByte VERSION
  let peers ← peersMessage inet knownNodes
  return version ++ infohash.bytes ++ peers

def readPeer (data : Bytes) : PyExcept (Node × Bytes) := do
  let (peerType, data) ← Basic.readByte data
  if peerType = 0 then do
    let (vals, data) ← Basic.readMessage [.s 4, .H] data
    return ((inet.ntoa vals.1, vals.2.1), data)
  else if peerType = 1 then do
    let (host, data) ← Basic.readLenstr data
    let (port, data) ← Basic.readShort data
    return ((host, port), data)
  else
    throw (.exception ("Unknown peer address type:  " ++ toString peerType))

/-- The loop that reads the peers. Each takes a byte at least, so the rounds are enough. -/
def readPeers : Nat → Bytes → PyExcept (List Node)
  | _, [] => .ok []
  | 0, _ :: _ => .ok []
  | fuel + 1, b :: data => do
    let (peer, data) ← readPeer inet (b :: data)
    let peers ← readPeers fuel data
    return peer :: peers

/-- What `handle_dht_request` reads. -/
def readRequest (data : Bytes) : PyExcept (Bytes × List Node) := do
  let (version, data) ← Basic.readByte data
  if version ≠ VERSION then throw (.assertionError "") else do
  let (infohash, data) ← Basic.readField (.s 20) data
  let peers ← readPeers inet data.length data
  return (infohash, peers)

/-- The message that `_send_peers` makes. -/
def responseMessage (responseData : Bytes) : PyExcept Bytes := do
  let version ← Basic.writeByte VERSION
  return version ++ responseData

/-- What `handle_dht_response` reads. -/
def readResponse (data : Bytes) : PyExcept Bytes := do
  let (version, data) ← Basic.readByte data
  if version ≠ VERSION then throw (.assertionError "") else
  return data

/-! ### The provider -/

/-- `running` are the transactions for which the search of the node is not over. -/
structure DHTProvider where
  responses : List Bytes
  contacts : List Node
  searches : List Bytes
  running : List Nat
  isClosed : Bool

namespace DHTProvider

def handleDhtRequest (data : Bytes) (provider : DHTProvider) : PyExcept DHTProvider := do
  let (infohash, peers) ← readRequest inet data
  return { provider with
    responses := provider.responses ++ [[]]
    contacts := provider.contacts ++ peers.eraseDups.filter (· ∉ BOOTSTRAP_NODES)
    searches := provider.searches ++ [infohash]
    running := provider.running ++ [provider.responses.length] }

/-- `response`, which the node calls with what it found, and with nothing at the end. -/
def response (transactionId : Nat) (data : List (List Bytes)) (provider : DHTProvider) :
    DHTProvider × Option Bytes :=
  match data with
  | [] =>
    let provider := { provider with running := provider.running.filter (· ≠ transactionId) }
    if provider.isClosed then (provider, none)
    else (provider, provider.responses[transactionId]?.bind fun data => (responseMessage data).toOption)
  | values :: _ => ({ provider with responses := provider.responses.modify transactionId (· ++ values.flatten) }, none)

end DHTProvider

/-! ### Both ends -/

/-- A request with the torrent for which it was made. -/
structure DhtRequest where
  infohash : Infohash
  msg : Bytes
  callback : Nat

/-- A proxy, its circuit with the `RemoteDHTRequest` of it, and the provider at the exit. A response
on its way comes with its transaction. -/
structure DhtLink where
  knownNodes : List Node
  finished : Bool
  ready : Bool
  queuedDHTRequests : List DhtRequest
  callback : Option Nat
  toProvider : List Bytes
  provider : DHTProvider
  toProxy : List (Nat × Bytes)
  sent : List DhtRequest
  answers : List (Nat × Bytes)
  calls : List (Nat × Bytes)

inductive DhtAction where
  | getPeers (infohash : Infohash) (callback : Nat)
  | addContact (peer : Node)
  | parReady
  | deliverRequest
  | found (transactionId : Nat) (data : List (List Bytes))
  | closeProvider
  | deliverResponse
  | stop

namespace DhtLink

/-- `RemoteDHTRequest.send_request`. -/
def sendRequest (request : DhtRequest) (s : DhtLink) : DhtLink :=
  { s with
    callback := some request.callback
    toProvider := s.toProvider ++ [request.msg]
    sent := s.sent ++ [request] }

/-- `Circuit.send_dht_request`. -/
def sendDhtRequest (request : DhtRequest) (s : DhtLink) : DhtLink :=
  if s.ready then s.sendRequest request
  else { s with queuedDHTRequests := s.queuedDHTRequests ++ [request] }

/-- `get_peers` and `get_peers_and_announce`; where a message cannot be made, nothing is sent. -/
def sendRemotePeerRequest (infohash : Infohash) (callback : Nat) (s : DhtLink) : DhtLink :=
  match requestMessage inet infohash s.knownNodes with
  | .error _ => s
  | .ok msg => s.sendDhtRequest { infohash, msg, callback }

/-- The part of `on_par_ready` that has to do with the DHT. -/
def onParReady (s : DhtLink) : DhtLink :=
  { s.queuedDHTRequests.foldl (fun s request => s.sendDhtRequest request) { s with ready := true } with
    queuedDHTRequests := [] }

/-- `handle_dht_response`; the wrapper calls nothing once the proxy is stopped. -/
def handleDhtResponse (transactionId : Nat) (data : Bytes) (s : DhtLink) : DhtLink :=
  match readResponse data with
  | .error _ => s
  | .ok peers =>
    if s.finished then s
    else { s with
      answers := s.answers ++ [(transactionId, peers)]
      calls := s.calls ++ (s.callback.map fun callback => (callback, peers)).toList }

def step (s : DhtLink) : DhtAction → Option DhtLink
  | .getPeers infohash callback => some (s.sendRemotePeerRequest inet infohash callback)
  | .addContact peer => some { s with knownNodes := if peer ∈ s.knownNodes then s.knownNodes else s.knownNodes ++ [peer] }
  | .parReady => if s.ready then none else some s.onParReady
  | .deliverRequest =>
    match s.toProvider with
    | [] => none
    | data :: rest =>
      match s.provider.handleDhtRequest inet data with
      | .error _ => some { s with toProvider := rest }
      | .ok provider => some { s with toProvider := rest, provider }
  | .found transactionId data =>
    if transactionId ∈ s.provider.running then
      match s.provider.response transactionId data with
      | (provider, msg) =>
        some { s with provider, toProxy := s.toProxy ++ (msg.map fun msg => (transactionId, msg)).toList }
    else none
  | .closeProvider => some { s with provider := { s.provider with isClosed := true } }
  | .deliverResponse =>
    match s.toProxy with
    | [] => none
    | (transactionId, data) :: rest => some (handleDhtResponse transactionId data { s with toProxy := rest })
  | .stop => some { s with finished := true }

def initial : DhtLink where
  knownNodes := BOOTSTRAP_NODES
  finished := false
  ready := false
  queuedDHTRequests := []
  callback := none
  toProvider := []
  provider := { responses := [], contacts := [], searches := [], running := [], isClosed := false }
  toProxy := []
  sent := []
  answers := []
  calls := []

/-- The callback of the request of a transaction. -/
def callbackOf (transactionId : Nat) (s : DhtLink) : Option Nat := s.sent[transactionId]?.map DhtRequest.callback

/-- Every response was passed to the callback of its own request. -/
def Matched (s : DhtLink) : Prop :=
  s.calls.map (fun call => (some call.1, call.2)) =
    s.answers.map fun answer => (s.callbackOf answer.1, answer.2)

/-- A response that comes is for the request that was sent last, or for one with the same callback. -/
def AnswersLatest (s : DhtLink) : DhtAction → Prop
  | .deliverResponse => ∀ answer ∈ s.toProxy.head?, s.finished = false →
      s.callbackOf answer.1 = s.sent.getLast?.map DhtRequest.callback
  | _ => True

end DhtLink

/-! ### What is written can be read -/

/-- The peer as the provider hears of it. -/
def heard (peer : Node) : Node :=
  match inet.aton peer.1 with
  | some addr => (inet.ntoa addr, peer.2)
  | none => peer

section
variable {inet}

theorem readLenstr_of_writeLenstr {msg bs : Bytes} (h : Basic.writeLenstr msg = .ok bs) (rest : Bytes) :
    Basic.readLenstr (bs ++ rest) = .ok (msg, rest) := by
  obtain ⟨⟨hrange, -⟩, rfl⟩ := Basic.structPack_eq_ok_iff.mp h
  have hstr : Fmt.Fits (.s msg.length) msg := rfl
  have hlen : Fmt.Fits .I msg.length := hrange
  simp only [Struct.packed, List.append_nil, List.append_assoc]
  unfold Basic.readLenstr Basic.readInt
  rw [Basic.readField_packed hlen, PyExcept.ok_bind]
  exact Basic.readField_packed hstr rest

theorem readShort_of_writeShort {x : Nat} {bs : Bytes} (h : Basic.writeShort x = .ok bs) (rest : Bytes) :
    Basic.readShort (bs ++ rest) = .ok (x, rest) := by
  obtain ⟨⟨hrange, -⟩, rfl⟩ := Basic.structPack_eq_ok_iff.mp h
  have hfits : Fmt.Fits .H x := hrange
  simp only [Struct.packed, List.append_nil]
  exact Basic.readField_packed hfits rest

theorem writeByte_zero : Basic.writeByte 0 = .ok [0] := rfl

theorem writeByte_one : Basic.writeByte 1 = .ok [1] := rfl

theorem readPeer_peerMessage {peer : Node} {msg : Bytes} (h : peerMessage inet peer = .ok msg) (rest : Bytes) :
    readPeer inet (msg ++ rest) = .ok (heard inet peer, rest) := by
  unfold peerMessage at h
  unfold heard
  cases haddr : inet.aton peer.1 with
  | some addr =>
    rw [haddr] at h
    dsimp only at h
    rw [writeByte_zero, PyExcept.ok_bind] at h
    obtain ⟨vals, hvals, hmsg⟩ := PyExcept.bind_eq_ok h
    obtain rfl : [0] ++ vals = msg := Except.ok.inj hmsg
    obtain ⟨⟨-, hport, -⟩, rfl⟩ := Basic.structPack_eq_ok_iff.mp hvals
    have hfits : Struct.Fits [.s 4, .H] (addr, peer.2, ()) := ⟨inet.aton_length _ _ haddr, hport, trivial⟩
    unfold readPeer
    rw [List.append_assoc, List.singleton_append, Basic.readByte_cons, PyExcept.ok_bind]
    dsimp only
    rw [if_pos (by decide), Basic.readMessage_packed hfits]
    rfl
  | none =>
    rw [haddr] at h
    dsimp only at h
    rw [writeByte_one, PyExcept.ok_bind] at h
    obtain ⟨host, hhost, h⟩ := PyExcept.bind_eq_ok h
    obtain ⟨port, hport, hmsg⟩ := PyExcept.bind_eq_ok h
    obtain rfl : [1] ++ host ++ port = msg := Except.ok.inj hmsg
    unfold readPeer
    rw [List.append_assoc, List.append_assoc, List.singleton_append, Basic.readByte_cons, PyExcept.ok_bind]
    dsimp only
    rw [if_neg (by decide), if_pos (by decide), readLenstr_of_writeLenstr hhost, PyExcept.ok_bind]
    dsimp only
    rw [readShort_of_writeShort hport]
    rfl

theorem peerMessage_pos {peer : Node} {msg : Bytes} (h : peerMessage inet peer = .ok msg) : 0 < msg.length := by
  unfold peerMessage at h
  cases haddr : inet.aton peer.1 with
  | some addr =>
    rw [haddr] at h
    dsimp only at h
    rw [writeByte_zero, PyExcept.ok_bind] at h
    obtain ⟨vals, -, hmsg⟩ := PyExcept.bind_eq_ok h
    obtain rfl : [0] ++ vals = msg := Except.ok.inj hmsg
    simp
  | none =>
    rw [haddr] at h
    dsimp only at h
    rw [writeByte_one, PyExcept.ok_bind] at h
    obtain ⟨host, -, h⟩ := PyExcept.bind_eq_ok h
    obtain ⟨port, -, hmsg⟩ := PyExcept.bind_eq_ok h
    obtain rfl : [1] ++ host ++ port = msg := Except.ok.inj hmsg
    simp

theorem readPeers_peersMessage {peers : List Node} {msg : Bytes} (h : peersMessage inet peers = .ok msg)
    {fuel : Nat} (hfuel : msg.length ≤ fuel) :
    readPeers inet fuel msg = .ok (peers.map (heard inet)) := by
  induction peers generalizing msg fuel with
  | nil =>
    obtain rfl : [] = msg := Except.ok.inj h
    cases fuel with
    | zero => rfl
    | succ fuel => rfl
  | cons peer peers ih =>
    obtain ⟨head, hhead, h⟩ := PyExcept.bind_eq_ok h
    obtain ⟨tail, htail, hmsg⟩ := PyExcept.bind_eq_ok h
    obtain rfl : head ++ tail = msg := Except.ok.inj hmsg
    have hread := readPeer_peerMessage hhead tail
    have hpos := peerMessage_pos hhead
    rw [List.length_append] at hfuel
    obtain ⟨fuel, rfl⟩ : ∃ k, fuel = k + 1 := ⟨fuel - 1, by omega⟩
    obtain ⟨b, head, rfl⟩ := List.exists_cons_of_length_pos hpos
    rw [List.cons_append] at hread ⊢
    rw [readPeers, hread, PyExcept.ok_bind]
    dsimp only
    rw [ih htail (by omega)]
    rfl

/-- The provider reads the torrent and the peers that the message was made of. -/
theorem readRequest_requestMessage {infohash : Infohash} {knownNodes : List Node} {msg : Bytes}
    (h : requestMessage inet infohash knownNodes = .ok msg) :
    readRequest inet msg = .ok (infohash.bytes, knownNodes.map (heard inet)) := by
  unfold requestMessage VERSION at h
  rw [writeByte_zero, PyExcept.ok_bind] at h
  obtain ⟨peers, hpeers, hmsg⟩ := PyExcept.bind_eq_ok h
  obtain rfl : [0] ++ infohash.bytes ++ peers = msg := Except.ok.inj hmsg
  unfold readRequest
  rw [List.append_assoc, List.singleton_append, Basic.readByte_cons, PyExcept.ok_bind]
  have hfits : Fmt.Fits (.s 20) infohash.bytes := infohash.length_eq
  have hpacked : Fmt.packed (.s 20) infohash.bytes = infohash.bytes := by
    have hall : infohash.bytes.take 20 = infohash.bytes := List.take_of_length_le infohash.length_eq.le
    simp [Fmt.packed, Fmt.packStr, infohash.length_eq, hall]
  have hread := Basic.readField_packed hfits peers
  rw [hpacked] at hread
  dsimp only
  rw [if_neg (by decide), hread, PyExcept.ok_bind]
  dsimp only
  rw [readPeers_peersMessage hpeers le_rfl]
  rfl

theorem responseMessage_eq (responseData : Bytes) : responseMessage responseData = .ok (0 :: responseData) := rfl

theorem readResponse_response (responseData : Bytes) : readResponse (0 :: responseData) = .ok responseData := by
  unfold readResponse
  rw [Basic.readByte_cons, PyExcept.ok_bind]
  exact if_neg (by decide)

end

/-! ### Runs -/

namespace DhtLink

/-- What was made of a request is its message. -/
def Wellformed (request : DhtRequest) : Prop :=
  ∃ knownNodes, requestMessage inet request.infohash knownNodes = .ok request.msg

/-- The provider has handled the first requests in their order, and the proxy keeps the callback of
the last one. -/
structure Linked (s : DhtLink) : Prop where
  slot : s.callback = s.sent.getLast?.map DhtRequest.callback
  handled : ∃ before after, s.sent = before ++ after ∧
    s.provider.searches = before.map (fun request => request.infohash.bytes) ∧
    s.toProvider = after.map DhtRequest.msg
  responses : s.provider.responses.length = s.provider.searches.length
  running : ∀ transactionId ∈ s.provider.running, transactionId < s.provider.searches.length
  pending : ∀ answer ∈ s.toProxy, answer.1 < s.provider.searches.length ∧ ∃ peers, answer.2 = 0 :: peers
  answered : ∀ answer ∈ s.answers, answer.1 < s.sent.length
  wellformed : ∀ request ∈ s.sent ++ s.queuedDHTRequests, Wellformed inet request

section
variable {inet} {s t : DhtLink}

theorem Linked.searches_le (h : s.Linked inet) : s.provider.searches.length ≤ s.sent.length := by
  obtain ⟨before, after, hsent, hsearches, -⟩ := h.handled
  rw [hsearches, hsent, List.length_map, List.length_append]
  omega

theorem initial_linked : initial.Linked inet where
  slot := rfl
  handled := ⟨[], [], rfl, rfl, rfl⟩
  responses := rfl
  running := fun _ h => absurd h List.not_mem_nil
  pending := fun _ h => absurd h List.not_mem_nil
  answered := fun _ h => absurd h List.not_mem_nil
  wellformed := fun _ h => absurd h List.not_mem_nil

theorem sendRequest_linked {request : DhtRequest} (h : s.Linked inet) (hrequest : Wellformed inet request) :
    (s.sendRequest request).Linked inet where
  slot := by simp [sendRequest]
  handled := by
    obtain ⟨before, after, hsent, hsearches, hchannel⟩ := h.handled
    refine ⟨before, after ++ [request], ?_, hsearches, ?_⟩
    · simp [sendRequest, hsent]
    · simp [sendRequest, hchannel]
  responses := h.responses
  running := h.running
  pending := h.pending
  answered := fun answer hanswer => by
    have hlt := h.answered answer hanswer
    simp only [sendRequest, List.length_append]
    omega
  wellformed := fun other hother => by
    simp only [sendRequest, List.mem_append, List.mem_singleton] at hother
    rcases hother with (hother | rfl) | hother
    · exact h.wellformed other (List.mem_append_left _ hother)
    · exact hrequest
    · exact h.wellformed other (List.mem_append_right _ hother)

theorem sendDhtRequest_linked {request : DhtRequest} (h : s.Linked inet) (hrequest : Wellformed inet request) :
    (s.sendDhtRequest request).Linked inet := by
  unfold sendDhtRequest
  split
  · exact sendRequest_linked h hrequest
  · refine ⟨h.slot, h.handled, h.responses, h.running, h.pending, h.answered, fun other hother => ?_⟩
    rw [← List.append_assoc, List.mem_append, List.mem_singleton] at hother
    rcases hother with hother | rfl
    · exact h.wellformed other hother
    · exact hrequest

theorem sendRequests_linked (requests : List DhtRequest) (h : s.Linked inet)
    (hrequests : ∀ request ∈ requests, Wellformed inet request) :
    (requests.foldl (fun s request => s.sendDhtRequest request) s).Linked inet := by
  induction requests generalizing s with
  | nil => exact h
  | cons request requests ih =>
    have hfirst := hrequests request List.mem_cons_self
    exact ih (sendDhtRequest_linked h hfirst) fun other hother => hrequests other (List.mem_cons_of_mem _ hother)

theorem onParReady_linked (h : s.Linked inet) : s.onParReady.Linked inet := by
  have hready : ({ s with ready := true } : DhtLink).Linked inet :=
    ⟨h.slot, h.handled, h.responses, h.running, h.pending, h.answered, h.wellformed⟩
  have hsent := sendRequests_linked s.queuedDHTRequests hready fun request hrequest =>
    h.wellformed request (List.mem_append_right _ hrequest)
  refine ⟨hsent.slot, hsent.handled, hsent.responses, hsent.running, hsent.pending, hsent.answered,
    fun request hrequest => hsent.wellformed request (List.mem_append_left _ ?_)⟩
  simpa [onParReady] using hrequest

/-- The provider can read a request of the proxy. -/
theorem handleDhtRequest_wellformed {request : DhtRequest} (hrequest : Wellformed inet request)
    (provider : DHTProvider) :
    ∃ contacts, provider.handleDhtRequest inet request.msg = .ok { provider with
      responses := provider.responses ++ [[]]
      contacts := contacts
      searches := provider.searches ++ [request.infohash.bytes]
      running := provider.running ++ [provider.responses.length] } := by
  obtain ⟨knownNodes, hmsg⟩ := hrequest
  refine ⟨provider.contacts ++ (knownNodes.map (heard inet)).eraseDups.filter (· ∉ BOOTSTRAP_NODES), ?_⟩
  unfold DHTProvider.handleDhtRequest
  rw [readRequest_requestMessage hmsg]
  rfl

theorem deliverRequest_linked {data : Bytes} {rest : List Bytes} {provider : DHTProvider} (h : s.Linked inet)
    (hchannel : s.toProvider = data :: rest) (hprovider : s.provider.handleDhtRequest inet data = .ok provider) :
    ({ s with toProvider := rest, provider := provider } : DhtLink).Linked inet := by
  obtain ⟨before, after, hsent, hsearches, hqueue⟩ := h.handled
  -- The message in front belongs to the first request that is not handled yet.
  rw [hchannel] at hqueue
  obtain ⟨request, later, rfl, rfl, rfl⟩ := List.map_eq_cons_iff.mp hqueue.symm
  have hrequest : Wellformed inet request := h.wellformed request (List.mem_append_left _ (by
    rw [hsent]
    exact List.mem_append_right _ List.mem_cons_self))
  obtain ⟨contacts, hhandled⟩ := handleDhtRequest_wellformed hrequest s.provider
  obtain rfl := Except.ok.inj (hprovider.symm.trans hhandled)
  have hlength := h.responses
  refine ⟨h.slot, ⟨before ++ [request], later, ?_, ?_, rfl⟩, ?_, fun transactionId hmem => ?_, fun answer hanswer => ?_,
    h.answered, h.wellformed⟩
  · simp [hsent]
  · simp [hsearches]
  · simp [hlength]
  · simp only [List.mem_append, List.mem_singleton, List.length_append, List.length_singleton] at hmem ⊢
    rcases hmem with hmem | rfl
    · have hlt := h.running transactionId hmem
      omega
    · omega
  · obtain ⟨hlt, hform⟩ := h.pending answer hanswer
    refine ⟨?_, hform⟩
    simp only [List.length_append]
    omega

theorem found_linked {transactionId : Nat} {data : List (List Bytes)} (h : s.Linked inet)
    (hrunning : transactionId ∈ s.provider.running) {provider : DHTProvider} {msg : Option Bytes}
    (hresponse : s.provider.response transactionId data = (provider, msg)) :
    ({ s with
      provider := provider
      toProxy := s.toProxy ++ (msg.map fun msg => (transactionId, msg)).toList } : DhtLink).Linked inet := by
  have hprovider : provider.searches = s.provider.searches ∧
      provider.responses.length = s.provider.responses.length ∧
      (∀ other ∈ provider.running, other ∈ s.provider.running) ∧ ∀ bytes ∈ msg, ∃ peers, bytes = 0 :: peers := by
    cases data with
    | nil =>
      unfold DHTProvider.response at hresponse
      dsimp only at hresponse
      split at hresponse
      · obtain ⟨rfl, rfl⟩ := Prod.mk.inj hresponse
        exact ⟨rfl, rfl, fun other hother => (List.mem_filter.mp hother).1, fun bytes hbytes => by cases hbytes⟩
      · obtain ⟨rfl, rfl⟩ := Prod.mk.inj hresponse
        refine ⟨rfl, rfl, fun other hother => (List.mem_filter.mp hother).1, fun bytes hbytes => ?_⟩
        obtain ⟨peers, -, hpeers⟩ := Option.bind_eq_some_iff.mp hbytes
        rw [responseMessage_eq] at hpeers
        exact ⟨peers, (Option.some.inj hpeers).symm⟩
    | cons values data =>
      obtain ⟨rfl, rfl⟩ := Prod.mk.inj hresponse
      exact ⟨rfl, List.length_modify .., fun other hother => hother, fun bytes hbytes => by cases hbytes⟩
  obtain ⟨hsearches, hlength, hsub, hform⟩ := hprovider
  obtain ⟨before, after, hsent, hmap, hqueue⟩ := h.handled
  refine ⟨h.slot, ⟨before, after, hsent, hsearches.trans hmap, hqueue⟩, ?_, fun other hother => ?_,
    fun answer hanswer => ?_, h.answered, h.wellformed⟩
  · rw [hlength, hsearches]
    exact h.responses
  · rw [hsearches]
    exact h.running other (hsub other hother)
  · rw [hsearches]
    rcases List.mem_append.mp hanswer with hold | hnew
    · exact h.pending answer hold
    · obtain ⟨bytes, hbytes, rfl⟩ := Option.map_eq_some_iff.mp (Option.mem_toList.mp hnew)
      exact ⟨h.running transactionId hrunning, hform bytes hbytes⟩

/-- A response is read by the proxy, and given to the callback that it has. -/
theorem handleDhtResponse_eq {transactionId : Nat} {data peers : Bytes} (hform : data = 0 :: peers) :
    s.handleDhtResponse transactionId data =
      if s.finished then s
      else { s with
        answers := s.answers ++ [(transactionId, peers)]
        calls := s.calls ++ (s.callback.map fun callback => (callback, peers)).toList } := by
  unfold handleDhtResponse
  rw [hform, readResponse_response]

theorem handleDhtResponse_linked {transactionId : Nat} {data : Bytes} {rest : List (Nat × Bytes)} (h : s.Linked inet)
    (hchannel : s.toProxy = (transactionId, data) :: rest) :
    (({ s with toProxy := rest } : DhtLink).handleDhtResponse transactionId data).Linked inet := by
  have hmem : ∀ answer ∈ rest, answer ∈ s.toProxy := fun answer hanswer =>
    hchannel ▸ List.mem_cons_of_mem _ hanswer
  obtain ⟨hlt, peers, hform⟩ := h.pending (transactionId, data) (hchannel ▸ List.mem_cons_self)
  have hpending := fun answer hanswer => h.pending answer (hmem answer hanswer)
  have hsearches := h.searches_le
  rw [handleDhtResponse_eq hform]
  split
  · exact ⟨h.slot, h.handled, h.responses, h.running, hpending, h.answered, h.wellformed⟩
  · refine ⟨h.slot, h.handled, h.responses, h.running, hpending, fun answer hanswer => ?_, h.wellformed⟩
    rcases List.mem_append.mp hanswer with hold | hnew
    · exact h.answered answer hold
    · obtain rfl := List.mem_singleton.mp hnew
      exact lt_of_lt_of_le hlt hsearches

theorem step_deliverResponse (hstep : s.step inet .deliverResponse = some t) :
    ∃ transactionId data rest, s.toProxy = (transactionId, data) :: rest ∧
      t = ({ s with toProxy := rest } : DhtLink).handleDhtResponse transactionId data := by
  unfold step at hstep
  dsimp only at hstep
  split at hstep
  · cases hstep
  · rename_i transactionId data rest hchannel
    exact ⟨transactionId, data, rest, hchannel, (Option.some.inj hstep).symm⟩

theorem step_linked {action : DhtAction} (h : s.Linked inet) (hstep : s.step inet action = some t) : t.Linked inet := by
  cases action with
  | getPeers infohash callback =>
    obtain rfl := Option.some.inj hstep
    unfold sendRemotePeerRequest
    split
    · exact h
    · rename_i msg hmsg
      exact sendDhtRequest_linked h ⟨_, hmsg⟩
  | addContact peer =>
    obtain rfl := Option.some.inj hstep
    exact ⟨h.slot, h.handled, h.responses, h.running, h.pending, h.answered, h.wellformed⟩
  | parReady =>
    obtain ⟨-, hready⟩ := Option.ite_none_left_eq_some.mp hstep
    obtain rfl := Option.some.inj hready
    exact onParReady_linked h
  | deliverRequest =>
    unfold step at hstep
    dsimp only at hstep
    split at hstep
    · cases hstep
    · rename_i data rest hchannel
      split at hstep
      · rename_i error herror
        -- The provider can read all that the proxy sends.
        obtain ⟨before, after, hsent, -, hqueue⟩ := h.handled
        rw [hchannel] at hqueue
        obtain ⟨request, later, rfl, rfl, -⟩ := List.map_eq_cons_iff.mp hqueue.symm
        have hrequest : Wellformed inet request := h.wellformed request (List.mem_append_left _ (by
          rw [hsent]
          exact List.mem_append_right _ List.mem_cons_self))
        obtain ⟨contacts, hhandled⟩ := handleDhtRequest_wellformed hrequest s.provider
        rw [hhandled] at herror
        cases herror
      · rename_i provider hprovider
        obtain rfl := Option.some.inj hstep
        exact deliverRequest_linked h hchannel hprovider
  | found transactionId data =>
    obtain ⟨hrunning, hfound⟩ := Option.ite_none_right_eq_some.mp hstep
    obtain rfl := Option.some.inj hfound
    exact found_linked h hrunning rfl
  | closeProvider =>
    obtain rfl := Option.some.inj hstep
    exact ⟨h.slot, h.handled, h.responses, h.running, h.pending, h.answered, h.wellformed⟩
  | deliverResponse =>
    obtain ⟨transactionId, data, rest, hchannel, rfl⟩ := step_deliverResponse hstep
    exact handleDhtResponse_linked h hchannel
  | stop =>
    obtain rfl := Option.some.inj hstep
    exact ⟨h.slot, h.handled, h.responses, h.running, h.pending, h.answered, h.wellformed⟩

/-! ### Which callback gets a response -/

theorem callbackOf_of_sent {transactionId : Nat} (hsent : s.sent <+: t.sent) (hlt : transactionId < s.sent.length) :
    t.callbackOf transactionId = s.callbackOf transactionId := by
  obtain ⟨later, hlater⟩ := hsent
  unfold callbackOf
  rw [← hlater, List.getElem?_append_left hlt]

/-- Where nothing is answered, later requests do not change whose the responses were. -/
theorem matched_iff_of_sent (h : s.Linked inet) (hsent : s.sent <+: t.sent) (hanswers : t.answers = s.answers)
    (hcalls : t.calls = s.calls) : t.Matched ↔ s.Matched := by
  have howners : (t.answers.map fun answer => (t.callbackOf answer.1, answer.2)) =
      s.answers.map fun answer => (s.callbackOf answer.1, answer.2) := by
    rw [hanswers]
    apply List.map_congr_left
    intro answer hanswer
    rw [callbackOf_of_sent hsent (h.answered answer hanswer)]
  unfold Matched
  rw [howners, hcalls]

theorem sendDhtRequest_keeps (request : DhtRequest) (s : DhtLink) :
    s.sent <+: (s.sendDhtRequest request).sent ∧ (s.sendDhtRequest request).answers = s.answers ∧
      (s.sendDhtRequest request).calls = s.calls := by
  unfold sendDhtRequest
  split
  · exact ⟨List.prefix_append _ _, rfl, rfl⟩
  · exact ⟨List.prefix_rfl, rfl, rfl⟩

theorem sendRequests_keeps (requests : List DhtRequest) (s : DhtLink) :
    s.sent <+: (requests.foldl (fun s request => s.sendDhtRequest request) s).sent ∧
      (requests.foldl (fun s request => s.sendDhtRequest request) s).answers = s.answers ∧
      (requests.foldl (fun s request => s.sendDhtRequest request) s).calls = s.calls := by
  induction requests generalizing s with
  | nil => exact ⟨List.prefix_rfl, rfl, rfl⟩
  | cons request requests ih =>
    obtain ⟨hsent, hanswers, hcalls⟩ := sendDhtRequest_keeps request s
    obtain ⟨hlater, hlaterAnswers, hlaterCalls⟩ := ih (s.sendDhtRequest request)
    exact ⟨hsent.trans hlater, hlaterAnswers.trans hanswers, hlaterCalls.trans hcalls⟩

/-- The slot has the callback of the last request, and the response goes there. -/
theorem handleDhtResponse_matched_iff {transactionId : Nat} {data : Bytes} {rest : List (Nat × Bytes)}
    (h : s.Linked inet) (hchannel : s.toProxy = (transactionId, data) :: rest) :
    (({ s with toProxy := rest } : DhtLink).handleDhtResponse transactionId data).Matched ↔
      s.Matched ∧ (s.finished = false → s.callbackOf transactionId = s.sent.getLast?.map DhtRequest.callback) := by
  obtain ⟨hlt, peers, hform⟩ := h.pending (transactionId, data) (hchannel ▸ List.mem_cons_self)
  rw [handleDhtResponse_eq hform]
  cases hfinished : s.finished with
  | true =>
    rw [if_pos rfl]
    exact (and_iff_left fun habsurd => nomatch habsurd).symm
  | false =>
    have hsent : transactionId < s.sent.length := lt_of_lt_of_le hlt h.searches_le
    have hlast : s.sent ≠ [] := List.ne_nil_of_length_pos (by omega)
    have hslot : s.callback = some (s.sent.getLast hlast).callback := by
      rw [h.slot, List.getLast?_eq_some_getLast hlast]
      rfl
    rw [if_neg (by decide), List.getLast?_eq_some_getLast hlast]
    unfold Matched
    dsimp only
    rw [hslot]
    simp only [Option.map_some, Option.toList_some, List.map_append, List.map_cons, List.map_nil]
    constructor
    · intro hmatched
      obtain ⟨hbefore, hnew⟩ := List.append_inj' hmatched rfl
      obtain ⟨howner, -⟩ := Prod.mk.inj (List.head_eq_of_cons_eq hnew)
      exact ⟨hbefore, fun _ => howner.symm⟩
    · rintro ⟨hbefore, howner⟩
      have hnew := (howner trivial).symm
      exact congrArg₂ (· ++ ·) hbefore (congrArg (fun callback => [(callback, peers)]) hnew)

theorem step_matched_iff {action : DhtAction} (h : s.Linked inet) (hstep : s.step inet action = some t) :
    t.Matched ↔ s.Matched ∧ s.AnswersLatest action := by
  cases action with
  | deliverResponse =>
    obtain ⟨transactionId, data, rest, hchannel, rfl⟩ := step_deliverResponse hstep
    rw [handleDhtResponse_matched_iff h hchannel]
    unfold AnswersLatest
    rw [hchannel]
    simp only [List.head?_cons, Option.mem_some_iff, forall_eq']
  | getPeers infohash callback =>
    obtain rfl := Option.some.inj hstep
    unfold sendRemotePeerRequest
    split
    · exact (and_iff_left trivial).symm
    · rename_i msg hmsg
      obtain ⟨hsent, hanswers, hcalls⟩ := sendDhtRequest_keeps { infohash, msg, callback } s
      exact (matched_iff_of_sent h hsent hanswers hcalls).trans (and_iff_left trivial).symm
  | parReady =>
    obtain ⟨-, hready⟩ := Option.ite_none_left_eq_some.mp hstep
    obtain rfl := Option.some.inj hready
    obtain ⟨hsent, hanswers, hcalls⟩ := sendRequests_keeps s.queuedDHTRequests { s with ready := true }
    exact (matched_iff_of_sent h hsent hanswers hcalls).trans (and_iff_left trivial).symm
  | deliverRequest =>
    unfold step at hstep
    dsimp only at hstep
    refine Iff.trans ?_ (and_iff_left trivial).symm
    split at hstep
    · cases hstep
    · split at hstep
      · obtain rfl := Option.some.inj hstep
        exact Iff.rfl
      · obtain rfl := Option.some.inj hstep
        exact Iff.rfl
  | found transactionId data =>
    obtain ⟨-, hfound⟩ := Option.ite_none_right_eq_some.mp hstep
    obtain rfl := Option.some.inj hfound
    exact (and_iff_left trivial).symm
  | addContact peer =>
    obtain rfl := Option.some.inj hstep
    exact (and_iff_left trivial).symm
  | closeProvider =>
    obtain rfl := Option.some.inj hstep
    exact (and_iff_left trivial).symm
  | stop =>
    obtain rfl := Option.some.inj hstep
    exact (and_iff_left trivial).symm

/-- The provider searches for the torrents in the order of the requests. -/
theorem Linked.search (h : s.Linked inet) {transactionId : Nat} {infohash : Bytes}
    (hsearch : s.provider.searches[transactionId]? = some infohash) :
    ∃ request, s.sent[transactionId]? = some request ∧ request.infohash.bytes = infohash := by
  obtain ⟨before, after, hsent, hsearches, -⟩ := h.handled
  rw [hsearches, List.getElem?_map] at hsearch
  obtain ⟨request, hrequest, hinfohash⟩ := Option.map_eq_some_iff.mp hsearch
  have hlt := (List.getElem?_eq_some_iff.mp hrequest).1
  exact ⟨request, by rw [hsent, List.getElem?_append_left hlt, hrequest], hinfohash⟩

end

/-- The transaction of a request is a search for its torrent. The response to it gets to its callback
in every run exactly when no other request is the last one by then. -/
theorem responses_reach_askers_iff (inet : Inet) {actions : List DhtAction} {s : DhtLink}
    (hrun : Run (step inet) (fun _ _ => True) initial actions s) :
    (∀ (transactionId : Nat) (infohash : Bytes), s.provider.searches[transactionId]? = some infohash →
      ∃ request : DhtRequest, s.sent[transactionId]? = some request ∧ request.infohash.bytes = infohash) ∧
      (s.Matched ↔ EachStep (step inet) AnswersLatest initial actions) := by
  have hlinked : s.Linked inet := hrun.invariant (fun h _ hstep => step_linked h hstep) initial_linked
  have hmatched : s.Matched ↔ initial.Matched ∧ EachStep (step inet) AnswersLatest initial actions :=
    hrun.iff_eachStep (fun h hstep => step_linked h hstep) (fun h hstep => step_matched_iff h hstep) initial_linked
  exact ⟨fun transactionId infohash hsearch => hlinked.search hsearch,
    hmatched.trans (and_iff_right rfl)⟩

instance (s : DhtLink) : Decidable s.Matched := inferInstanceAs (Decidable (_ = _))

instance decidableAnswersLatest (s : DhtLink) : ∀ action, Decidable (s.AnswersLatest action)
  | .deliverResponse => inferInstanceAs (Decidable (∀ answer ∈ s.toProxy.head?, s.finished = false →
      s.callbackOf answer.1 = s.sent.getLast?.map DhtRequest.callback))
  | .getPeers .. | .addContact _ | .parReady | .deliverRequest | .found .. | .closeProvider | .stop => isTrue trivial

/-- No host here is an address in dots. -/
def exampleInet : Inet where
  aton := fun _ => none
  ntoa := fun addr => addr
  aton_length := fun _ _ h => by cases h

def exampleInfohash (b : UInt8) : Infohash where
  bytes := List.replicate 20 b
  length_eq := List.length_replicate

/-- A request that waits for the circuit, and the peer that was found for it. -/
def oneRequest : List DhtAction :=
  [.getPeers (exampleInfohash 7) 0, .parReady, .deliverRequest, .found 0 [[[10, 0, 0, 1, 26, 225]]], .found 0 [],
    .deliverResponse]

theorem example_response_reaches_asker : ∃ s, Run (step exampleInet) (fun _ _ => True) initial oneRequest s ∧
    s.answers = [(0, [10, 0, 0, 1, 26, 225])] ∧ s.Matched := by
  have hend : (exec (step exampleInet) initial oneRequest).any (fun s => decide
      (s.answers = [(0, [10, 0, 0, 1, 26, 225])])) = true := by
    decide +kernel
  have hlatest : EachStep (step exampleInet) AnswersLatest initial oneRequest := by
    decide +kernel
  obtain ⟨s, hrun, hanswers⟩ := exists_run hend (eachStep_true _ _)
  exact ⟨s, hrun, of_decide_eq_true hanswers, (responses_reach_askers_iff exampleInet hrun).2.mpr hlatest⟩

/-- Two torrents ask over one circuit, and the peer of the first is given to the second. -/
theorem response_to_other_torrent : ∃ s, Run (step exampleInet) (fun _ _ => True) initial
      [.getPeers (exampleInfohash 7) 0, .getPeers (exampleInfohash 8) 1, .parReady, .deliverRequest, .deliverRequest,
        .found 0 [[[10, 0, 0, 1, 26, 225]]], .found 0 [], .deliverResponse] s ∧
    s.provider.searches = [(exampleInfohash 7).bytes, (exampleInfohash 8).bytes] ∧
    s.answers = [(0, [10, 0, 0, 1, 26, 225])] ∧ s.calls = [(1, [10, 0, 0, 1, 26, 225])] ∧ ¬s.Matched := by
  have hend : (exec (step exampleInet) initial [.getPeers (exampleInfohash 7) 0, .getPeers (exampleInfohash 8) 1,
      .parReady, .deliverRequest, .deliverRequest, .found 0 [[[10, 0, 0, 1, 26, 225]]], .found 0 [],
      .deliverResponse]).any (fun s => decide
        (s.provider.searches = [(exampleInfohash 7).bytes, (exampleInfohash 8).bytes] ∧
          s.answers = [(0, [10, 0, 0, 1, 26, 225])] ∧ s.calls = [(1, [10, 0, 0, 1, 26, 225])] ∧
          ¬s.Matched)) = true := by
    decide +kernel
  obtain ⟨s, hrun, hs⟩ := exists_run hend (eachStep_true _ _)
  exact ⟨s, hrun, of_decide_eq_true hs⟩

end DhtLink

end

end BitBlinder.Tor.Dht
