import BitBlinder.Tor.DhtRequests

/-!
# What a DHT request says

A request is a version, an infohash and records of two kinds, an address or a name with a
port. `handle_dht_request` reads all that `_send_remote_peer_request` writes, and nothing
but such records; the name of a record may be the text of an address, which the sender
would write as an address. Nothing is changed before a request has been read.
-/

namespace BitBlinder.Tor.Dht

set_option autoImplicit false
set_option maxRecDepth 2048

open Struct (Bytes Fmt)

/-- `str` of a byte. -/
def decimal (b : UInt8) : Bytes := (Nat.toDigits 10 b.toNat).map fun c => UInt8.ofNat c.toNat

/-- The canonical text of an address. -/
def dottedQuad (a b c d : UInt8) : Bytes := decimal a ++ 46 :: (decimal b ++ 46 :: (decimal c ++ 46 :: decimal d))

/-- `isIPAddress` accepts a canonical dotted quad, and `inet_aton` and `inet_ntoa` convert it. -/
def Inet.Canonical (inet : Inet) : Prop :=
  ∀ a b c d, inet.aton (dottedQuad a b c d) = some [a, b, c, d] ∧ inet.ntoa [a, b, c, d] = dottedQuad a b c d

/-- A canonical dotted quad, or a name that `isIPAddress` rejects. -/
def Inet.Host (inet : Inet) (host : Bytes) : Prop := (∃ a b c d, host = dottedQuad a b c d) ∨ inet.aton host = none

/-! ### Records -/

inductive Record where
  | ip (addr : Bytes) (port : Nat) (size : addr.length = 4) (range : port < 256 ^ 2)
  | url (host : Bytes) (port : Nat) (size : host.length < 256 ^ 4) (range : port < 256 ^ 2)

namespace Record

def bytes : Record → Bytes
  | ip addr port _ _ => 0 :: (addr ++ Struct.packBE 2 port)
  | url host port _ _ => 1 :: (Struct.packBE 4 host.length ++ host ++ Struct.packBE 2 port)

def node (inet : Inet) : Record → Node
  | ip addr port _ _ => (inet.ntoa addr, port)
  | url host port _ _ => (host, port)

/-- The name of a record is not an address. -/
def Named (inet : Inet) : Record → Prop
  | ip _ _ _ _ => True
  | url host _ _ _ => inet.aton host = none

end Record

def encodeRequest (infohash : Infohash) (records : List Record) : Bytes :=
  0 :: (infohash.bytes ++ records.flatMap Record.bytes)

/-! ### The provider, one statement after the other -/

/-- Whether the calls to the node of the provider raise. -/
structure NodeCalls where
  addContact : Node → Option PyError
  getPeers : Bytes → Option PyError

namespace DHTProvider
variable (inet : Inet) (calls : NodeCalls)

def addContacts : List Node → DHTProvider → DHTProvider × Option PyError
  | [], provider => (provider, none)
  | peer :: peers, provider =>
    match calls.addContact peer with
    | some e => (provider, some e)
    | none => addContacts peers { provider with contacts := provider.contacts ++ [peer] }

/-- `handle_dht_request` with the state in which an exception leaves the provider. -/
def handleDhtRequestWith (data : Bytes) (provider : DHTProvider) : DHTProvider × Option PyError :=
  match readRequest inet data with
  | .error e => (provider, some e)
  | .ok (infohash, peers) =>
    let transactionId := provider.responses.length
    let provider := { provider with responses := provider.responses ++ [[]] }
    match provider.addContacts calls (peers.eraseDups.filter fun peer => !BOOTSTRAP_NODES.contains peer) with
    | (provider, some e) => (provider, some e)
    | (provider, none) =>
      match calls.getPeers infohash with
      | some e => (provider, some e)
      | none =>
        ({ provider with
          searches := provider.searches ++ [infohash]
          running := provider.running ++ [transactionId] }, none)

end DHTProvider

/-! ### Everything that is read is such records -/

section
variable {inet : Inet}

theorem readLenstr_sound {data host rest : Bytes} (h : Basic.readLenstr data = .ok (host, rest)) :
    data = Struct.packBE 4 host.length ++ host ++ rest ∧ host.length < 256 ^ 4 := by
  obtain ⟨⟨msgLen, msg⟩, hlen, hhost⟩ := PyExcept.bind_eq_ok h
  obtain ⟨hdata, hrange⟩ := Basic.readField_sound hlen
  obtain ⟨hsize, hread, -⟩ := Basic.readField_of_ok hhost
  obtain ⟨hmsg, -⟩ := Basic.readField_sound hhost
  have hlength : host.length = msgLen := by
    rw [hread]
    exact List.length_take_of_le hsize
  have hpacked : Fmt.packed (.s msgLen) host = host := Struct.packStr_of_length hlength
  rw [hpacked] at hmsg
  subst hlength
  exact ⟨by rw [hdata, hmsg, List.append_assoc]; rfl, hrange⟩

theorem readPeer_sound {data rest : Bytes} {peer : Node} (h : readPeer inet data = .ok (peer, rest)) :
    ∃ record : Record, data = record.bytes ++ rest ∧ record.node inet = peer := by
  obtain ⟨⟨peerType, msg⟩, htype, h⟩ := PyExcept.bind_eq_ok h
  have hdata := (Basic.readField_sound htype).1
  dsimp only at h
  split at h
  · rename_i hzero
    subst hzero
    obtain ⟨⟨⟨addr, port, u⟩, msg'⟩, hvals, hret⟩ := PyExcept.bind_eq_ok h
    obtain ⟨rfl, rfl⟩ := Prod.mk.inj (Except.ok.inj hret)
    have hmsg := Basic.readMessage_sound hvals
    obtain ⟨hlen, hunpack, -⟩ := Basic.readMessage_of_ok hvals
    obtain ⟨-, hport, -⟩ := Basic.inRange_of_readMessage hvals
    have haddr : addr.length = 4 := by
      have hfirst : addr = (msg.take 6).take 4 := congrArg Prod.fst hunpack
      have hsix : 6 ≤ msg.length := hlen
      rw [hfirst, List.length_take, List.length_take]
      omega
    have hpacked : Fmt.packed (.s 4) addr = addr := Struct.packStr_of_length haddr
    refine ⟨.ip addr port haddr hport, ?_, rfl⟩
    unfold Struct.packed Struct.packed Struct.packed at hmsg
    rw [hpacked, List.append_nil] at hmsg
    rw [hdata, hmsg]
    rfl
  · split at h
    · rename_i hone
      subst hone
      obtain ⟨⟨host, msg'⟩, hhost, h⟩ := PyExcept.bind_eq_ok h
      obtain ⟨⟨port, msg''⟩, hport, hret⟩ := PyExcept.bind_eq_ok h
      obtain ⟨rfl, rfl⟩ := Prod.mk.inj (Except.ok.inj hret)
      obtain ⟨hmsg, hlength⟩ := readLenstr_sound hhost
      obtain ⟨hmsg', hrange⟩ : msg' = Struct.packBE 2 port ++ msg'' ∧ port < 256 ^ 2 := Basic.readField_sound hport
      refine ⟨.url host port hlength hrange, ?_, rfl⟩
      calc data = 1 :: msg := hdata
        _ = 1 :: (Struct.packBE 4 host.length ++ host ++ (Struct.packBE 2 port ++ msg'')) := by rw [hmsg, hmsg']
        _ = 1 :: (Struct.packBE 4 host.length ++ host ++ Struct.packBE 2 port) ++ msg'' := by
          rw [List.cons_append, List.append_assoc _ _ msg'']
    · cases h

theorem readPeers_sound {fuel : Nat} {data : Bytes} {peers : List Node} (hfuel : data.length ≤ fuel)
    (h : readPeers inet fuel data = .ok peers) :
    ∃ records : List Record, data = records.flatMap Record.bytes ∧ records.map (Record.node inet) = peers := by
  induction fuel generalizing data peers with
  | zero =>
    obtain rfl := List.length_eq_zero_iff.mp (Nat.le_zero.mp hfuel)
    exact ⟨[], rfl, Except.ok.inj h⟩
  | succ fuel ih =>
    cases data with
    | nil => exact ⟨[], rfl, Except.ok.inj h⟩
    | cons b data =>
      obtain ⟨⟨peer, rest⟩, hpeer, h⟩ := PyExcept.bind_eq_ok h
      obtain ⟨others, hothers, hret⟩ := PyExcept.bind_eq_ok h
      obtain rfl := Except.ok.inj hret
      obtain ⟨record, hdata, rfl⟩ := readPeer_sound hpeer
      have hpos : 0 < record.bytes.length := by cases record <;> exact Nat.succ_pos _
      have hlength := congrArg List.length hdata
      rw [List.length_append] at hlength
      obtain ⟨records, rfl, rfl⟩ := ih (by omega) hothers
      exact ⟨record :: records, hdata, rfl⟩

theorem readRequest_sound {data infohash : Bytes} {peers : List Node}
    (h : readRequest inet data = .ok (infohash, peers)) :
    ∃ (infohash' : Infohash) (records : List Record), data = encodeRequest infohash' records ∧
      infohash'.bytes = infohash ∧ records.map (Record.node inet) = peers := by
  obtain ⟨⟨version, msg⟩, hversion, h⟩ := PyExcept.bind_eq_ok h
  have hdata := (Basic.readField_sound hversion).1
  dsimp only at h
  split at h
  · cases h
  · rename_i hzero
    have hzero : version = 0 := not_not.mp hzero
    subst hzero
    obtain ⟨⟨bytes, msg'⟩, hinfohash, h⟩ := PyExcept.bind_eq_ok h
    obtain ⟨others, hothers, hret⟩ := PyExcept.bind_eq_ok h
    obtain ⟨rfl, rfl⟩ := Prod.mk.inj (Except.ok.inj hret)
    obtain ⟨hsize, hread, -⟩ := Basic.readField_of_ok hinfohash
    have hmsg := (Basic.readField_sound hinfohash).1
    have hlength : bytes.length = 20 := by
      rw [hread]
      exact List.length_take_of_le hsize
    have hpacked : Fmt.packed (.s 20) bytes = bytes := Struct.packStr_of_length hlength
    obtain ⟨records, rfl, hpeers⟩ := readPeers_sound (Nat.le_refl _) hothers
    refine ⟨⟨bytes, hlength⟩, records, ?_, rfl, hpeers⟩
    rw [hdata, hmsg, hpacked]
    rfl

end

/-! ### Everything that is sent is such records -/

section
variable {inet : Inet}

theorem heard_of_host (hinet : inet.Canonical) {peer : Node} (h : inet.Host peer.1) : heard inet peer = peer := by
  unfold heard
  rcases h with ⟨a, b, c, d, hquad⟩ | hname
  · obtain ⟨haton, hntoa⟩ := hinet a b c d
    rw [hquad, haton]
    dsimp only
    rw [hntoa, ← hquad]
  · rw [hname]

theorem exists_quad {addr : Bytes} (h : addr.length = 4) : ∃ a b c d, addr = [a, b, c, d] := by
  match addr, h with
  | [a, b, c, d], _ => exact ⟨a, b, c, d, rfl⟩

theorem peerMessage_node (hinet : inet.Canonical) {record : Record} (h : record.Named inet) :
    peerMessage inet (record.node inet) = .ok record.bytes := by
  cases record with
  | ip addr port size range =>
    obtain ⟨a, b, c, d, rfl⟩ := exists_quad size
    obtain ⟨haton, hntoa⟩ := hinet a b c d
    have hvals : Basic.structPack [.s 4, .H] ([a, b, c, d], port, ()) = .ok ([a, b, c, d] ++ Struct.packBE 2 port) :=
      Basic.structPack_eq_ok_iff.mpr ⟨⟨trivial, range, trivial⟩, by
        unfold Struct.packed Struct.packed Struct.packed
        rw [List.append_nil]
        rfl⟩
    unfold peerMessage Record.node
    dsimp only
    rw [hntoa, haton]
    dsimp only
    rw [writeByte_zero, PyExcept.ok_bind, hvals]
    rfl
  | url host port size range =>
    have hhost : Basic.writeLenstr host = .ok (Struct.packBE 4 host.length ++ host) :=
      Basic.structPack_eq_ok_iff.mpr ⟨⟨size, trivial, trivial⟩, by
        unfold Struct.packed Struct.packed Struct.packed
        rw [List.append_nil]
        exact congrArg (Struct.packBE 4 host.length ++ ·) (Struct.packStr_of_length rfl)⟩
    have hport : Basic.writeShort port = .ok (Struct.packBE 2 port) :=
      Basic.structPack_eq_ok_iff.mpr ⟨⟨range, trivial⟩, by
        unfold Struct.packed Struct.packed
        exact List.append_nil _⟩
    have hname : inet.aton host = none := h
    unfold peerMessage Record.node
    dsimp only
    rw [hname]
    dsimp only
    rw [writeByte_one, PyExcept.ok_bind, hhost, PyExcept.ok_bind, hport]
    rfl

theorem peersMessage_nodes (hinet : inet.Canonical) {records : List Record} (h : ∀ record ∈ records, record.Named inet) :
    peersMessage inet (records.map (Record.node inet)) = .ok (records.flatMap Record.bytes) := by
  induction records with
  | nil => rfl
  | cons record records ih =>
    rw [List.map_cons, peersMessage, peerMessage_node hinet (h record List.mem_cons_self), PyExcept.ok_bind,
      ih fun other hother => h other (List.mem_cons_of_mem _ hother)]
    rfl

/-- Where no name is an address, the records are what the sender writes for the peers. -/
theorem requestMessage_nodes (hinet : inet.Canonical) (infohash : Infohash) {records : List Record}
    (h : ∀ record ∈ records, record.Named inet) :
    requestMessage inet infohash (records.map (Record.node inet)) = .ok (encodeRequest infohash records) := by
  unfold requestMessage VERSION
  rw [writeByte_zero, PyExcept.ok_bind, peersMessage_nodes hinet h]
  rfl

/-- Each peer has its record. -/
theorem exists_records (hinet : inet.Canonical) {knownNodes : List Node}
    (h : ∀ peer ∈ knownNodes, inet.Host peer.1 ∧ peer.2 < 65536 ∧ peer.1.length < 2 ^ 32) :
    ∃ records : List Record, (∀ record ∈ records, record.Named inet) ∧ records.map (Record.node inet) = knownNodes := by
  induction knownNodes with
  | nil => exact ⟨[], fun _ hmem => absurd hmem List.not_mem_nil, rfl⟩
  | cons peer knownNodes ih =>
    obtain ⟨records, hnamed, hmap⟩ := ih fun other hother => h other (List.mem_cons_of_mem _ hother)
    obtain ⟨hhost, hport, hlength⟩ := h peer List.mem_cons_self
    obtain ⟨record, hrecord, hnode⟩ : ∃ record : Record, record.Named inet ∧ record.node inet = peer := by
      rcases hhost with ⟨a, b, c, d, hquad⟩ | hname
      · exact ⟨.ip [a, b, c, d] peer.2 rfl hport, trivial, Prod.ext ((hinet a b c d).2.trans hquad.symm) rfl⟩
      · exact ⟨.url peer.1 peer.2 hlength hport, hname, rfl⟩
    refine ⟨record :: records, fun other hother => ?_, by rw [List.map_cons, hnode, hmap]⟩
    rcases List.mem_cons.mp hother with rfl | hother
    · exact hrecord
    · exact hnamed other hother

end

namespace DHTProvider
variable {inet : Inet}

theorem addContacts_quiet {calls : NodeCalls} (h : ∀ peer, calls.addContact peer = none) (peers : List Node)
    (provider : DHTProvider) :
    provider.addContacts calls peers = ({ provider with contacts := provider.contacts ++ peers }, none) := by
  induction peers generalizing provider with
  | nil => rw [addContacts, List.append_nil]
  | cons peer peers ih =>
    rw [addContacts, h]
    dsimp only
    rw [ih, List.append_assoc]
    rfl

/-- Where the calls to the node do not raise, the statements are `handleDhtRequest`. -/
theorem handleDhtRequestWith_quiet {calls : NodeCalls} (hcontact : ∀ peer, calls.addContact peer = none)
    (hsearch : ∀ infohash, calls.getPeers infohash = none) (data : Bytes) (provider : DHTProvider) :
    provider.handleDhtRequestWith inet calls data =
      match provider.handleDhtRequest inet data with
      | .ok provider' => (provider', none)
      | .error e => (provider, some e) := by
  unfold handleDhtRequestWith handleDhtRequest
  cases readRequest inet data with
  | error e => rfl
  | ok request =>
    have hfilter : ∀ peer ∈ request.2.eraseDups, (!BOOTSTRAP_NODES.contains peer) = decide (peer ∉ BOOTSTRAP_NODES) :=
      fun peer _ => by rw [List.contains_eq_mem, decide_not]
    dsimp only
    rw [List.filter_congr hfilter, addContacts_quiet hcontact]
    dsimp only
    rw [hsearch]
    rfl

end DHTProvider

/-- A message that the sender makes is read as what it was made of, and one is made unless a name is too long
for its length field. For all other bytes the request raises with nothing changed, unless they are an infohash
and records; a record of which the name is not an address is what the sender writes. -/
theorem dht_request_roundTrip (inet : Inet) (hinet : inet.Canonical) :
    (∀ infohash knownNodes, (∀ peer ∈ knownNodes, inet.Host peer.1 ∧ peer.2 < 65536) →
      (∀ msg, requestMessage inet infohash knownNodes = .ok msg →
        ∃ peers, readRequest inet msg = .ok (infohash.bytes, peers) ∧ ∀ peer, peer ∈ peers ↔ peer ∈ knownNodes) ∧
      ((∀ peer ∈ knownNodes, peer.1.length < 2 ^ 32) → ∃ msg, requestMessage inet infohash knownNodes = .ok msg)) ∧
    ∀ (calls : NodeCalls) (data : Bytes) (provider : DHTProvider),
      (∃ e, provider.handleDhtRequestWith inet calls data = (provider, some e)) ∨
      ∃ infohash records, data = encodeRequest infohash records ∧
        ((∀ record ∈ records, record.Named inet) →
          requestMessage inet infohash (records.map (Record.node inet)) = .ok data) := by
  refine ⟨fun infohash knownNodes h => ⟨fun msg hmsg => ?_, fun hlength => ?_⟩, fun calls data provider => ?_⟩
  · have hheard : knownNodes.map (heard inet) = knownNodes :=
      (List.map_congr_left fun peer hpeer => heard_of_host hinet (h peer hpeer).1).trans (List.map_id _)
    refine ⟨knownNodes, ?_, fun _ => Iff.rfl⟩
    rw [readRequest_requestMessage hmsg, hheard]
  · obtain ⟨records, hnamed, rfl⟩ := exists_records hinet fun peer hpeer =>
      ⟨(h peer hpeer).1, (h peer hpeer).2, hlength peer hpeer⟩
    exact ⟨_, requestMessage_nodes hinet infohash hnamed⟩
  · cases hread : readRequest inet data with
    | error e =>
      refine Or.inl ⟨e, ?_⟩
      unfold DHTProvider.handleDhtRequestWith
      rw [hread]
    | ok request =>
      obtain ⟨infohash, records, rfl, -, -⟩ := readRequest_sound hread
      exact Or.inr ⟨infohash, records, rfl, fun hnamed => requestMessage_nodes hinet infohash hnamed⟩

/-! ### An address in the place of a name -/

/-- A number below 256 as `str` writes it. -/
def octet (text : Bytes) : Option UInt8 :=
  let n := text.foldl (fun acc c => acc * 10 + (c.toNat - 48)) 0
  if n < 256 ∧ decimal (UInt8.ofNat n) = text then some (UInt8.ofNat n) else none

/-- Conversions of canonical dotted quads only. -/
def exampleInet : Inet where
  aton host :=
    match (host.splitOn 46).map octet with
    | [some a, some b, some c, some d] => some [a, b, c, d]
    | _ => none
  ntoa addr :=
    match addr with
    | [a, b, c, d] => dottedQuad a b c d
    | _ => []
  aton_length := by
    intro host addr h
    split at h
    · obtain rfl := Option.some.inj h
      rfl
    · cases h

/-- A number of an address is read back, and its text has no dot. -/
theorem decimal_spec (b : UInt8) : octet (decimal b) = some b ∧ 46 ∉ decimal b := by
  have hall : ∀ n < 256, octet (decimal (UInt8.ofNat n)) = some (UInt8.ofNat n) ∧ 46 ∉ decimal (UInt8.ofNat n) := by
    decide
  have hb := hall b.toNat b.toNat_lt
  rwa [UInt8.ofNat_toNat] at hb

theorem exampleInet_canonical : exampleInet.Canonical := by
  intro a b c d
  refine ⟨?_, rfl⟩
  have hsplit : (dottedQuad a b c d).splitOn 46 = [decimal a, decimal b, decimal c, decimal d] := by
    unfold dottedQuad
    rw [List.splitOn_append_cons_self_of_not_mem (decimal_spec a).2,
      List.splitOn_append_cons_self_of_not_mem (decimal_spec b).2,
      List.splitOn_append_cons_self_of_not_mem (decimal_spec c).2, List.splitOn_eq_singleton (decimal_spec d).2]
  unfold exampleInet
  dsimp only
  rw [hsplit]
  simp only [List.map_cons, List.map_nil, (decimal_spec _).1]

theorem length_peerMessage_of_aton {inet : Inet} {peer : Node} {addr msg : Bytes} (haddr : inet.aton peer.1 = some addr)
    (h : peerMessage inet peer = .ok msg) : msg.length = 7 := by
  unfold peerMessage at h
  rw [haddr] at h
  dsimp only at h
  rw [writeByte_zero, PyExcept.ok_bind] at h
  obtain ⟨vals, hvals, hmsg⟩ := PyExcept.bind_eq_ok h
  obtain rfl : [0] ++ vals = msg := Except.ok.inj hmsg
  obtain ⟨-, rfl⟩ := Basic.structPack_eq_ok_iff.mp hvals
  rw [List.length_append, Struct.packed_length]
  rfl

theorem length_requestMessage_of_aton {inet : Inet} {infohash : Infohash} {peer : Node} {addr msg : Bytes}
    (haddr : inet.aton peer.1 = some addr) (h : requestMessage inet infohash [peer] = .ok msg) : msg.length = 28 := by
  unfold requestMessage VERSION at h
  rw [writeByte_zero, PyExcept.ok_bind] at h
  obtain ⟨peers, hpeers, hmsg⟩ := PyExcept.bind_eq_ok h
  obtain rfl : [0] ++ infohash.bytes ++ peers = msg := Except.ok.inj hmsg
  obtain ⟨first, hfirst, hrest⟩ := PyExcept.bind_eq_ok hpeers
  obtain rfl : first ++ [] = peers := Except.ok.inj hrest
  rw [List.length_append, List.length_append, infohash.length_eq, List.append_nil,
    length_peerMessage_of_aton haddr hfirst]
  rfl

def exampleInfohash : Infohash := ⟨List.replicate 20 7, rfl⟩

/-- An address and a name. -/
def exampleNodes : List Node := [(dottedQuad 192 0 2 1, 6881), ("bitblinder.com".toUTF8.toList, 6882)]

theorem dht_request_roundTrip_example :
    (∀ msg, requestMessage exampleInet exampleInfohash exampleNodes = .ok msg →
      ∃ peers, readRequest exampleInet msg = .ok (exampleInfohash.bytes, peers) ∧
        ∀ peer, peer ∈ peers ↔ peer ∈ exampleNodes) ∧
      ∃ msg, requestMessage exampleInet exampleInfohash exampleNodes = .ok msg :=
  have hnodes : ∀ peer ∈ exampleNodes, exampleInet.Host peer.1 ∧ peer.2 < 65536 := by
    intro peer hpeer
    rcases List.mem_cons.mp hpeer with rfl | hpeer
    · exact ⟨Or.inl ⟨192, 0, 2, 1, rfl⟩, by decide⟩
    · rw [List.mem_singleton.mp hpeer]
      exact ⟨Or.inr (by decide +kernel), by decide⟩
  have hrequest := (dht_request_roundTrip exampleInet exampleInet_canonical).1 exampleInfohash exampleNodes hnodes
  ⟨hrequest.1, hrequest.2 (by decide +kernel)⟩

/-- A record of which the name is the text of an address. -/
def exampleData : Bytes := encodeRequest exampleInfohash [.url (dottedQuad 192 0 2 1) 6881 (by decide) (by decide)]

def quietCalls : NodeCalls where
  addContact := fun _ => none
  getPeers := fun _ => none

theorem address_as_name :
    ¬∀ (calls : NodeCalls) (data : Bytes) (provider : DHTProvider),
      (∃ e, provider.handleDhtRequestWith exampleInet calls data = (provider, some e)) ∨
        ∃ infohash knownNodes, (∀ peer ∈ knownNodes, exampleInet.Host peer.1) ∧
          requestMessage exampleInet infohash knownNodes = .ok data := by
  intro h
  rcases h quietCalls exampleData DhtLink.initial.provider with ⟨e, he⟩ | ⟨infohash, knownNodes, -, hmsg⟩
  · have haccepted : (DhtLink.initial.provider.handleDhtRequestWith exampleInet quietCalls exampleData).2 = none := by
      decide +kernel
    rw [he] at haccepted
    cases haccepted
  · have hread : readRequest exampleInet exampleData = .ok (exampleInfohash.bytes, [(dottedQuad 192 0 2 1, 6881)]) := by
      decide
    have hheard := Except.ok.inj ((readRequest_requestMessage hmsg).symm.trans hread)
    obtain ⟨peer, rfl, hpeer⟩ := List.map_eq_singleton_iff.mp (Prod.mk.inj hheard).2
    unfold heard at hpeer
    cases haddr : exampleInet.aton peer.1 with
    | none =>
      -- The name of the record is an address.
      rw [haddr] at hpeer
      dsimp only at hpeer
      rw [hpeer] at haddr
      exact absurd haddr (by decide)
    | some addr =>
      -- An address is written as an address, which makes the message shorter.
      have hlength := length_requestMessage_of_aton haddr hmsg
      exact absurd hlength (by decide)

end BitBlinder.Tor.Dht
