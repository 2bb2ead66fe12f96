import BitBlinder.Basic

/-!
# The client of a SOCKS server

`ClientProtocol` of `core/network/socks`. Each handler takes the chunk that it is given for
a whole message, and so a stream is read as it is meant only when the chunks end where
the messages do. A transport that is to be closed reads no more, and neither does one
whose protocol has raised. What the other protocol does with its data is not a part of
this, and the texts of the failures are without the name of the object.
-/

namespace BitBlinder.Socks5

open Struct (Bytes)

set_option autoImplicit false

inductive State where
  | mustNotReceiveData
  | gotHelloReply
  | gotAuthReply
  | gotConnectReply
  | done

/-- The status of the factory. -/
inductive Status where
  | unconnected
  | connected
  | established

/-- What `clientConnectionFailed` is told. -/
inductive Failure where
  | unexpectedDataError (text : String)
  | unhandledData (text : String)
  | unknownMethod (text : String)
  | connectError (text : String)

/-- The arguments of the constructor, which raises for a long login or password. -/
structure Settings where
  method : String
  host : Bytes
  port : Nat
  login : Option Bytes
  password : Option Bytes
  login_short : ∀ text ∈ login, text.length ≤ 255
  password_short : ∀ text ∈ password, text.length ≤ 255

/-- `lost` is a transport that `loseConnection` was called on. -/
structure ClientProtocol where
  state : State
  status : Status
  written : Bytes
  connectionsMade : Nat
  delivered : List Bytes
  failures : List Failure
  lost : Bool
  raised : Option PyError

def SOCKS_errors : List String :=
  ["success?", "general SOCKS server failure", "connection not allowed by ruleset", "Network unreachable",
    "Host unreachable", "Connection refused", "TTL expired", "Command not supported", "Address type not supported"]

def connectErrorText (errcode : UInt8) : String :=
  match SOCKS_errors[errcode.toNat]? with
  | some text => text
  | none => "Unknown SOCKS error after CONNECT request issued"

namespace Settings
variable (p : Settings)

def methods : Bytes := if p.login.isSome then [0, 2] else [0]

def greeting : Bytes := [5, UInt8.ofNat p.methods.length] ++ p.methods

/-- A login and a password are put together if both are there. -/
def authRequest : Option Bytes :=
  match p.login, p.password with
  | some login, some password =>
    some (5 :: UInt8.ofNat login.length :: login ++ UInt8.ofNat password.length :: password)
  | _, _ => none

def connectRequest : Option Bytes :=
  match Struct.pack [.B, .B, .B, .B, .B] (5, 1, 0, 3, p.host.length, ()), Struct.pack [.H] (p.port, ()) with
  | some command, some portstr => some (command ++ p.host ++ portstr)
  | _, _ => none

end Settings

namespace ClientProtocol

def new : ClientProtocol where
  state := .mustNotReceiveData
  status := .unconnected
  written := []
  connectionsMade := 0
  delivered := []
  failures := []
  lost := false
  raised := none

def write (data : Bytes) (c : ClientProtocol) : ClientProtocol := { c with written := c.written ++ data }

def loseConnection (c : ClientProtocol) : ClientProtocol := { c with lost := true }

def fail (failure : Failure) (c : ClientProtocol) : ClientProtocol :=
  { c with lost := true, failures := c.failures ++ [failure] }

section
variable (p : Settings)

def connectionMade (c : ClientProtocol) : ClientProtocol :=
  { c.write p.greeting with state := .gotHelloReply }

/-- `socks_method_CONNECT`. -/
def socksMethodConnect (c : ClientProtocol) : ClientProtocol :=
  match p.connectRequest with
  | some command => { c.write command with state := .gotConnectReply }
  | none => { c with raised := some .structError }

def sendCurrentMethod (c : ClientProtocol) : ClientProtocol :=
  if p.method = "CONNECT" then c.socksMethodConnect p
  else c.fail (.unknownMethod ("Method " ++ p.method ++ " is unknown"))

def sendAuth (c : ClientProtocol) : ClientProtocol :=
  match p.authRequest with
  | some command => { c.write command with state := .gotAuthReply }
  | none => { c with raised := some .typeError }

/-- The end of `socks_gotHelloReply`, which an exception does not reach. -/
def alive (c : ClientProtocol) : ClientProtocol :=
  if c.raised.isSome then c else { c with status := .connected }

def socksGotHelloReply (data : Bytes) (c : ClientProtocol) : ClientProtocol :=
  if data = [5, 255] then c.loseConnection
  else if data = [5, 0] then (c.sendCurrentMethod p).alive
  else if data = [5, 2] then (c.sendAuth p).alive
  else (c.fail (.unhandledData "Server returned unknown reply in gotHelloReply")).alive

def socksGotAuthReply (data : Bytes) (c : ClientProtocol) : ClientProtocol :=
  if data = [5, 0] then c.sendCurrentMethod p else c

def socksGotConnectReply (data : Bytes) (c : ClientProtocol) : ClientProtocol :=
  if data.take 2 = [5, 0] then
    { c with state := .done, status := .established, connectionsMade := c.connectionsMade + 1 }
  else
    match data[1]? with
    | some errcode => c.fail (.connectError (connectErrorText errcode))
    | none => { c with raised := some .indexError }

def socksDone (data : Bytes) (c : ClientProtocol) : ClientProtocol := { c with delivered := c.delivered ++ [data] }

def dataReceived (data : Bytes) (c : ClientProtocol) : ClientProtocol :=
  match c.state with
  | .mustNotReceiveData => c.fail (.unexpectedDataError "Server must not send data before client")
  | .gotHelloReply => c.socksGotHelloReply p data
  | .gotAuthReply => c.socksGotAuthReply p data
  | .gotConnectReply => c.socksGotConnectReply data
  | .done => c.socksDone data

/-- A chunk comes in, if the transport is read at all. -/
def receive (c : ClientProtocol) (data : Bytes) : ClientProtocol :=
  if c.lost ∨ c.raised.isSome then c else c.dataReceived p data

/-- The connection from its beginning. -/
def run (chunks : List Bytes) : ClientProtocol := chunks.foldl (receive p) (new.connectionMade p)

end

end ClientProtocol

/-! ### What a server sends -/

inductive Address where
  | ipv4 (address : Bytes) (size : address.length = 4)
  | domainName (name : Bytes) (size : name.length < 256)
  | ipv6 (address : Bytes) (size : address.length = 16)

namespace Address

def bytes : Address → Bytes
  | ipv4 address _ => 1 :: address
  | domainName name _ => 3 :: UInt8.ofNat name.length :: name
  | ipv6 address _ => 4 :: address

end Address

structure ConnectReply where
  rep : UInt8
  address : Address
  portHigh : UInt8
  portLow : UInt8

namespace ConnectReply

def bytes (reply : ConnectReply) : Bytes := 5 :: reply.rep :: 0 :: reply.address.bytes ++ [reply.portHigh, reply.portLow]

end ConnectReply

/-- `auth` is the version of the reply to a login that is good. A refusal is the end of the stream. -/
structure ServerStream where
  auth : Option UInt8
  reply : ConnectReply
  payload : Bytes
  refusal : reply.rep ≠ 0 → payload = []

namespace ServerStream

def methodReply (s : ServerStream) : Bytes := if s.auth.isSome then [5, 2] else [5, 0]

def authReply (s : ServerStream) : Bytes :=
  match s.auth with
  | some version => [version, 0]
  | none => []

def bytes (s : ServerStream) : Bytes := s.methodReply ++ s.authReply ++ s.reply.bytes ++ s.payload

/-- What the client writes to a server that sends the stream. -/
def requests (p : Settings) (s : ServerStream) : Bytes :=
  p.greeting ++ (if s.auth.isSome then p.authRequest.getD [] else []) ++ p.connectRequest.getD []

end ServerStream

/-- The chunks in which a stream comes. -/
structure Cutting (stream : Bytes) where
  chunks : List Bytes
  whole : chunks.flatten = stream
  nonempty : ∀ data ∈ chunks, data ≠ []

/-- The outcome of a stream, in whichever chunks it comes. -/
structure Understands (p : Settings) (s : ServerStream) (c : ClientProtocol) : Prop where
  state : c.state = if s.reply.rep = 0 then .done else .gotConnectReply
  status : c.status = if s.reply.rep = 0 then .established else .connected
  written : c.written = s.requests p
  connectionsMade : c.connectionsMade = if s.reply.rep = 0 then 1 else 0
  payload : c.delivered.flatten = s.payload
  failures : c.failures = if s.reply.rep = 0 then [] else [.connectError (connectErrorText s.reply.rep)]
  lost : c.lost = decide (s.reply.rep ≠ 0)
  raised : c.raised = none

/-! ### When the chunks are understood -/

/-- The client can put its requests together. -/
structure Ready (p : Settings) (s : ServerStream) : Prop where
  method : p.method = "CONNECT"
  host : p.host.length < 256
  port : p.port < 65536
  credentials : s.auth.isSome → p.login.isSome ∧ p.password.isSome

/-- The chunk that is taken for the connect reply has its beginning, and the payload begins with the next
chunk. A refusal may be read from any chunk that has its code. -/
def ReplyFirst (s : ServerStream) : List Bytes → Prop
  | [] => False
  | data :: rest =>
    if s.reply.rep = 0 then data.take 2 = [5, 0] ∧ rest.flatten = s.payload
    else data.take 2 ≠ [5, 0] ∧ ∃ errcode ∈ data[1]?, connectErrorText errcode = connectErrorText s.reply.rep

/-- The method reply is a chunk, and after it comes the connect reply, or with a login whatever there is
up to the first chunk that is taken for the reply to it. -/
def AtBorders (s : ServerStream) : List Bytes → Prop
  | [] => False
  | data :: rest =>
    data = s.methodReply ∧
      if s.auth.isSome then
        ∃ ignored after, rest = ignored ++ [5, 0] :: after ∧ [5, 0] ∉ ignored ∧ ReplyFirst s after
      else ReplyFirst s rest

theorem atBorders_of_auth {s : ServerStream} (hauth : s.auth.isSome) (rest : List Bytes) :
    AtBorders s ([5, 2] :: rest) ↔
      ∃ ignored after, rest = ignored ++ [5, 0] :: after ∧ [5, 0] ∉ ignored ∧ ReplyFirst s after := by
  unfold AtBorders ServerStream.methodReply
  dsimp only
  rw [if_pos hauth, if_pos hauth]
  exact ⟨fun h => h.2, fun h => ⟨rfl, h⟩⟩

theorem atBorders_of_noAuth {s : ServerStream} (hauth : s.auth = none) (rest : List Bytes) :
    AtBorders s ([5, 0] :: rest) ↔ ReplyFirst s rest := by
  have hauth' : ¬s.auth.isSome := by simp [hauth]
  unfold AtBorders ServerStream.methodReply
  dsimp only
  rw [if_neg hauth', if_neg hauth']
  exact ⟨fun h => h.2, fun h => ⟨rfl, h⟩⟩

/-- With a login, the reply to it is a chunk of the version of SOCKS, and nothing is lost. -/
theorem atBorders_login_iff {s : ServerStream} (hauth : s.auth.isSome) (after : List Bytes) :
    AtBorders s ([5, 2] :: [5, 0] :: after) ↔ ReplyFirst s after := by
  rw [atBorders_of_auth hauth]
  constructor
  · rintro ⟨ignored, after', heq, hignored, h⟩
    cases ignored with
    | nil => exact (List.cons.inj heq).2 ▸ h
    | cons data ignored => exact absurd ((List.cons.inj heq).1 ▸ List.mem_cons_self) hignored
  · intro h
    exact ⟨[], after, rfl, List.not_mem_nil, h⟩

theorem length_methodReply (s : ServerStream) : s.methodReply.length = 2 := by
  unfold ServerStream.methodReply
  split <;> rfl

theorem eq_methodReply_of_atBorders {s : ServerStream} {data : Bytes} {rest : List Bytes}
    (h : AtBorders s (data :: rest)) : data = s.methodReply := h.1

theorem take_two_reply (reply : ConnectReply) (tail : Bytes) : (reply.bytes ++ tail).take 2 = [5, reply.rep] := rfl

theorem replyFirst_granted_iff {s : ServerStream} (hrep : s.reply.rep = 0) {chunks : List Bytes}
    (hwhole : chunks.flatten = s.reply.bytes ++ s.payload) :
    ReplyFirst s chunks ↔ ∃ rest, chunks = s.reply.bytes :: rest := by
  cases chunks with
  | nil =>
    refine ⟨False.elim, ?_⟩
    rintro ⟨rest, hrest⟩
    cases hrest
  | cons data rest =>
    rw [List.flatten_cons] at hwhole
    unfold ReplyFirst
    dsimp only
    rw [if_pos hrep]
    constructor
    · rintro ⟨-, hpayload⟩
      rw [hpayload] at hwhole
      exact ⟨rest, by rw [List.append_cancel_right hwhole]⟩
    · rintro ⟨rest', heq⟩
      obtain ⟨rfl, rfl⟩ := List.cons.inj heq
      refine ⟨?_, List.append_cancel_left hwhole⟩
      rw [← hrep]
      rfl

theorem replyFirst_refused_iff {s : ServerStream} (hrep : s.reply.rep ≠ 0) {chunks : List Bytes}
    (hwhole : chunks.flatten = s.reply.bytes ++ s.payload) :
    ReplyFirst s chunks ↔ ∃ data rest, chunks = data :: rest ∧ 2 ≤ data.length := by
  cases chunks with
  | nil =>
    refine ⟨False.elim, ?_⟩
    rintro ⟨data, rest, hrest, -⟩
    cases hrest
  | cons data rest =>
    rw [List.flatten_cons] at hwhole
    unfold ReplyFirst
    dsimp only
    rw [if_neg hrep]
    constructor
    · rintro ⟨-, errcode, hcode, -⟩
      exact ⟨data, rest, rfl, (List.getElem?_eq_some_iff.mp hcode).1⟩
    · rintro ⟨data', rest', heq, hlength⟩
      obtain ⟨rfl, rfl⟩ := List.cons.inj heq
      have htake : data.take 2 = [5, s.reply.rep] := by
        rw [← take_two_reply s.reply s.payload, ← hwhole, List.take_append_of_le_length hlength]
      have hcode : data[1]? = some s.reply.rep := by
        rw [← List.getElem?_take_of_lt (by decide : 1 < 2), htake]
        rfl
      refine ⟨?_, s.reply.rep, hcode, rfl⟩
      rw [htake]
      intro heq
      exact hrep (List.cons.inj (List.cons.inj heq).2).1

/-- Without a login, the first two chunks of a granted connection are the two replies, and of a refusal two
bytes are enough. -/
theorem atBorders_noAuth_iff {s : ServerStream} (hauth : s.auth = none) (cut : Cutting s.bytes) :
    AtBorders s cut.chunks ↔ ∃ data rest, cut.chunks = [5, 0] :: data :: rest ∧
      if s.reply.rep = 0 then data = s.reply.bytes else 2 ≤ data.length := by
  obtain ⟨chunks, hwhole, hnonempty⟩ := cut
  have hbytes : s.bytes = [5, 0] ++ (s.reply.bytes ++ s.payload) := by
    unfold ServerStream.bytes ServerStream.methodReply ServerStream.authReply
    rw [hauth]
    rfl
  have hcons : ∀ rest, [5, 0] :: rest = chunks → (AtBorders s chunks ↔ ∃ data after, rest = data :: after ∧
      if s.reply.rep = 0 then data = s.reply.bytes else 2 ≤ data.length) := by
    rintro rest rfl
    rw [hbytes, List.flatten_cons] at hwhole
    have htail := List.append_cancel_left hwhole
    rw [atBorders_of_noAuth hauth]
    by_cases hrep : s.reply.rep = 0
    · simp only [replyFirst_granted_iff hrep htail, hrep, ↓reduceIte]
      exact ⟨fun ⟨after, h⟩ => ⟨_, after, h, rfl⟩, fun ⟨_, after, h, heq⟩ => ⟨after, heq ▸ h⟩⟩
    · simp only [replyFirst_refused_iff hrep htail, hrep, ↓reduceIte]
  constructor
  · intro h
    cases chunks with
    | nil => exact h.elim
    | cons data rest =>
      have hdata : data = [5, 0] := by
        rw [eq_methodReply_of_atBorders h]
        unfold ServerStream.methodReply
        rw [hauth]
        rfl
      subst hdata
      obtain ⟨data, after, rfl, hdata⟩ := (hcons rest rfl).mp h
      exact ⟨data, after, rfl, hdata⟩
  · rintro ⟨data, after, heq, h⟩
    exact (hcons _ heq.symm).mpr ⟨data, after, rfl, h⟩

namespace ClientProtocol
variable {p : Settings} {c : ClientProtocol}

theorem receive_reading (hlost : c.lost = false) (hraised : c.raised = none) (data : Bytes) :
    receive p c data = c.dataReceived p data := by
  refine if_neg ?_
  rw [hlost, hraised]
  simp

theorem foldl_of_stopped (h : c.lost = true ∨ c.raised.isSome) (chunks : List Bytes) :
    chunks.foldl (receive p) c = c := by
  induction chunks with
  | nil => rfl
  | cons data chunks ih => rw [List.foldl_cons, show receive p c data = c from if_pos h, ih]

/-- Payload goes through in its chunks. -/
theorem foldl_done (hstate : c.state = .done) (hlost : c.lost = false) (hraised : c.raised = none)
    (chunks : List Bytes) : chunks.foldl (receive p) c = { c with delivered := c.delivered ++ chunks } := by
  induction chunks generalizing c with
  | nil => rw [List.foldl_nil, List.append_nil]
  | cons data chunks ih =>
    have hstep : receive p c data = c.socksDone data := by
      rw [receive_reading hlost hraised]
      unfold dataReceived
      rw [hstate]
    have hrest := ih (c := c.socksDone data) hstate hlost hraised
    rw [List.foldl_cons, hstep, hrest]
    unfold socksDone
    rw [List.append_assoc, List.singleton_append]

/-- Nothing but a reply that is a chunk of its own is seen while it is waited for. -/
theorem foldl_gotAuthReply (hstate : c.state = .gotAuthReply) (hlost : c.lost = false) (hraised : c.raised = none)
    {chunks : List Bytes} (h : [5, 0] ∉ chunks) : chunks.foldl (receive p) c = c := by
  induction chunks with
  | nil => rfl
  | cons data chunks ih =>
    have hstep : receive p c data = c := by
      rw [receive_reading hlost hraised]
      unfold dataReceived
      rw [hstate]
      refine if_neg ?_
      rintro rfl
      exact h List.mem_cons_self
    rw [List.foldl_cons, hstep]
    exact ih fun hmem => h (List.mem_cons_of_mem data hmem)

/-! ### The reply -/

/-- The client that has asked for a connection and waits for the reply. -/
def asked (written : Bytes) : ClientProtocol where
  state := .gotConnectReply
  status := .connected
  written := written
  connectionsMade := 0
  delivered := []
  failures := []
  lost := false
  raised := none

def established (written : Bytes) (delivered : List Bytes) : ClientProtocol :=
  { asked written with state := .done, status := .established, connectionsMade := 1, delivered }

def refused (written : Bytes) (errcode : UInt8) : ClientProtocol :=
  (asked written).fail (.connectError (connectErrorText errcode))

section
variable {s : ServerStream} {written : Bytes}

theorem understands_established_iff (hwritten : written = s.requests p) (delivered : List Bytes) :
    Understands p s (established written delivered) ↔ s.reply.rep = 0 ∧ delivered.flatten = s.payload := by
  constructor
  · intro h
    refine ⟨?_, h.payload⟩
    by_contra hrep
    have hstate := h.state
    rw [if_neg hrep] at hstate
    cases hstate
  · rintro ⟨hrep, hpayload⟩
    constructor
    · exact (if_pos hrep).symm
    · exact (if_pos hrep).symm
    · exact hwritten
    · exact (if_pos hrep).symm
    · exact hpayload
    · exact (if_pos hrep).symm
    · exact (decide_eq_false (not_not_intro hrep)).symm
    · rfl

theorem understands_refused_iff (hwritten : written = s.requests p) (errcode : UInt8) :
    Understands p s (refused written errcode) ↔
      s.reply.rep ≠ 0 ∧ connectErrorText errcode = connectErrorText s.reply.rep := by
  constructor
  · intro h
    have hrep : s.reply.rep ≠ 0 := by
      intro hrep
      have hstate := h.state
      rw [if_pos hrep] at hstate
      cases hstate
    have hfailures := h.failures
    rw [if_neg hrep] at hfailures
    exact ⟨hrep, Failure.connectError.inj (List.cons.inj hfailures).1⟩
  · rintro ⟨hrep, htext⟩
    constructor
    · exact (if_neg hrep).symm
    · exact (if_neg hrep).symm
    · exact hwritten
    · exact (if_neg hrep).symm
    · exact (s.refusal hrep).symm
    · rw [if_neg hrep, ← htext]
      rfl
    · exact (decide_eq_true hrep).symm
    · rfl

theorem not_understands_asked (written : Bytes) : ¬Understands p s (asked written) := by
  intro h
  by_cases hrep : s.reply.rep = 0
  · have hstate := h.state
    rw [if_pos hrep] at hstate
    cases hstate
  · have hlost := h.lost
    rw [decide_eq_true hrep] at hlost
    cases hlost

theorem receive_asked_of_head {data : Bytes} (h : data.take 2 = [5, 0]) :
    receive p (asked written) data = established written [] :=
  (receive_reading rfl rfl data).trans (if_pos h)

theorem receive_asked_of_code {data : Bytes} {errcode : UInt8} (h : data.take 2 ≠ [5, 0])
    (hcode : data[1]? = some errcode) : receive p (asked written) data = refused written errcode := by
  refine (receive_reading rfl rfl data).trans ((if_neg h).trans ?_)
  rw [hcode]
  rfl

theorem receive_asked_of_short {data : Bytes} (h : data.take 2 ≠ [5, 0]) (hcode : data[1]? = none) :
    receive p (asked written) data = { asked written with raised := some .indexError } := by
  refine (receive_reading rfl rfl data).trans ((if_neg h).trans ?_)
  rw [hcode]

theorem understands_asked_iff (hwritten : written = s.requests p) (chunks : List Bytes) :
    Understands p s (chunks.foldl (receive p) (asked written)) ↔ ReplyFirst s chunks := by
  cases chunks with
  | nil => exact ⟨not_understands_asked written, False.elim⟩
  | cons data rest =>
    rw [List.foldl_cons]
    by_cases hhead : data.take 2 = [5, 0]
    · rw [receive_asked_of_head hhead, foldl_done rfl rfl rfl]
      refine (understands_established_iff hwritten rest).trans ?_
      by_cases hrep : s.reply.rep = 0
      · simp [ReplyFirst, hrep, hhead]
      · simp [ReplyFirst, hrep, hhead]
    · cases hcode : data[1]? with
      | none =>
        rw [receive_asked_of_short hhead hcode, foldl_of_stopped (Or.inr rfl)]
        refine ⟨fun h => ?_, fun h => ?_⟩
        · cases h.raised
        · simp [ReplyFirst, hhead, hcode] at h
      | some errcode =>
        rw [receive_asked_of_code hhead hcode, foldl_of_stopped (Or.inl rfl)]
        refine (understands_refused_iff hwritten errcode).trans ?_
        by_cases hrep : s.reply.rep = 0
        · simp [ReplyFirst, hrep, hhead]
        · simp [ReplyFirst, hrep, hhead, hcode]

end

/-! ### The requests -/

theorem connectRequest_isSome_iff (p : Settings) :
    p.connectRequest.isSome ↔ p.host.length < 256 ∧ p.port < 65536 := by
  have hcommand := Struct.pack_isSome_iff [.B, .B, .B, .B, .B] (5, 1, 0, 3, p.host.length, ())
  have hportstr := Struct.pack_isSome_iff [.H] (p.port, ())
  have hboth : p.connectRequest.isSome ↔ (Struct.pack [.B, .B, .B, .B, .B] (5, 1, 0, 3, p.host.length, ())).isSome ∧
      (Struct.pack [.H] (p.port, ())).isSome := by
    unfold Settings.connectRequest
    cases Struct.pack [.B, .B, .B, .B, .B] (5, 1, 0, 3, p.host.length, ()) <;>
      cases Struct.pack [.H] (p.port, ()) <;> simp
  rw [hboth, hcommand, hportstr]
  simp [Struct.InRange, Struct.Fmt.InRange]

theorem authRequest_isSome_iff (p : Settings) : p.authRequest.isSome ↔ p.login.isSome ∧ p.password.isSome := by
  unfold Settings.authRequest
  cases p.login <;> cases p.password <;> simp

/-- The method is known and the request can be put together. -/
def CanAsk (p : Settings) : Prop := p.method = "CONNECT" ∧ p.connectRequest.isSome

theorem sendCurrentMethod_of_canAsk (h : CanAsk p) (c : ClientProtocol) :
    c.sendCurrentMethod p = { c with written := c.written ++ p.connectRequest.getD [], state := .gotConnectReply } := by
  obtain ⟨hmethod, hrequest⟩ := h
  obtain ⟨command, hcommand⟩ := Option.isSome_iff_exists.mp hrequest
  unfold sendCurrentMethod socksMethodConnect
  rw [if_pos hmethod, hcommand]
  rfl

/-- A request that cannot be put together is the end of it. -/
theorem sendCurrentMethod_of_not_canAsk (h : ¬CanAsk p) (c : ClientProtocol) :
    (c.sendCurrentMethod p).state = c.state ∧
      ((c.sendCurrentMethod p).lost = true ∨ (c.sendCurrentMethod p).raised.isSome) := by
  unfold sendCurrentMethod socksMethodConnect
  by_cases hmethod : p.method = "CONNECT"
  · have hcommand : p.connectRequest = none := by
      cases hrequest : p.connectRequest with
      | none => rfl
      | some command => exact absurd ⟨hmethod, by rw [hrequest]; rfl⟩ h
    rw [if_pos hmethod, hcommand]
    exact ⟨rfl, Or.inr rfl⟩
  · rw [if_neg hmethod]
    exact ⟨rfl, Or.inl rfl⟩

theorem alive_stopped (h : c.lost = true ∨ c.raised.isSome) :
    c.alive.state = c.state ∧ (c.alive.lost = true ∨ c.alive.raised.isSome) := by
  unfold alive
  split
  · exact ⟨rfl, h⟩
  · exact ⟨rfl, h⟩

/-- Only a client that waits for the reply or has it can have understood the stream. -/
theorem not_understands_of_stopped {s : ServerStream} (hstate : c.state = .gotHelloReply ∨ c.state = .gotAuthReply)
    (hstopped : c.lost = true ∨ c.raised.isSome) (chunks : List Bytes) :
    ¬Understands p s (chunks.foldl (receive p) c) := by
  rw [foldl_of_stopped hstopped]
  intro h
  have hend := h.state
  split at hend
  · rcases hstate with hstate | hstate <;> cases hstate.symm.trans hend
  · rcases hstate with hstate | hstate <;> cases hstate.symm.trans hend

/-! ### The whole stream -/

/-- The client that has sent its login and waits for the reply. -/
def introduced (written : Bytes) : ClientProtocol := { asked written with state := .gotAuthReply }

section
variable {s : ServerStream}

theorem ready_iff : Ready p s ↔ CanAsk p ∧ (s.auth.isSome → p.authRequest.isSome) := by
  unfold CanAsk
  rw [connectRequest_isSome_iff, authRequest_isSome_iff]
  exact ⟨fun h => ⟨⟨h.method, h.host, h.port⟩, h.credentials⟩, fun ⟨⟨hmethod, hhost, hport⟩, hcredentials⟩ =>
    ⟨hmethod, hhost, hport, hcredentials⟩⟩

theorem receive_hello_noAuth : receive p (new.connectionMade p) [5, 0] = ((new.connectionMade p).sendCurrentMethod p).alive :=
  rfl

theorem receive_hello_auth : receive p (new.connectionMade p) [5, 2] = ((new.connectionMade p).sendAuth p).alive := rfl

theorem receive_hello_other {data : Bytes} (h : data.length ≠ 2) :
    receive p (new.connectionMade p) data =
      ((new.connectionMade p).fail (.unhandledData "Server returned unknown reply in gotHelloReply")).alive := by
  have hne : ∀ c : UInt8, data ≠ [5, c] := by
    rintro c rfl
    exact h rfl
  exact (receive_reading rfl rfl data).trans ((if_neg (hne 255)).trans ((if_neg (hne 0)).trans (if_neg (hne 2))))

/-- A first chunk of two bytes is the method reply. -/
theorem eq_methodReply {data : Bytes} {rest : List Bytes} (hwhole : (data :: rest).flatten = s.bytes)
    (hlength : data.length = 2) : data = s.methodReply := by
  rw [List.flatten_cons] at hwhole
  unfold ServerStream.bytes at hwhole
  rw [List.append_assoc, List.append_assoc] at hwhole
  exact (List.append_inj hwhole (hlength.trans (length_methodReply s).symm)).1

theorem understands_noAuth_iff (hauth : s.auth = none) (rest : List Bytes) :
    Understands p s (rest.foldl (receive p) (receive p (new.connectionMade p) [5, 0])) ↔
      CanAsk p ∧ ReplyFirst s rest := by
  rw [receive_hello_noAuth]
  by_cases hask : CanAsk p
  · have hasked : ((new.connectionMade p).sendCurrentMethod p).alive = asked (p.greeting ++ p.connectRequest.getD []) := by
      rw [sendCurrentMethod_of_canAsk hask]
      rfl
    have hrequests : p.greeting ++ p.connectRequest.getD [] = s.requests p := by
      unfold ServerStream.requests
      rw [hauth]
      simp
    rw [hasked, understands_asked_iff hrequests]
    exact ⟨fun h => ⟨hask, h⟩, fun h => h.2⟩
  · refine ⟨fun h => ?_, fun h => absurd h.1 hask⟩
    obtain ⟨hstate, hstopped⟩ := sendCurrentMethod_of_not_canAsk hask (new.connectionMade p)
    obtain ⟨hstate', hstopped'⟩ := alive_stopped hstopped
    exact absurd h (not_understands_of_stopped (Or.inl (hstate'.trans hstate)) hstopped' rest)

theorem understands_introduced_iff (hrequests : s.requests p = p.greeting ++ p.authRequest.getD [] ++ p.connectRequest.getD [])
    (rest : List Bytes) :
    Understands p s (rest.foldl (receive p) (introduced (p.greeting ++ p.authRequest.getD []))) ↔
      CanAsk p ∧ ∃ ignored after, rest = ignored ++ [5, 0] :: after ∧ [5, 0] ∉ ignored ∧ ReplyFirst s after := by
  have hfirst : ∀ ignored after, [5, 0] ∉ ignored →
      (Understands p s ((ignored ++ [5, 0] :: after).foldl (receive p) (introduced (p.greeting ++ p.authRequest.getD []))) ↔
        CanAsk p ∧ ReplyFirst s after) := by
    intro ignored after hignored
    have hstep : receive p (introduced (p.greeting ++ p.authRequest.getD [])) [5, 0] =
        (introduced (p.greeting ++ p.authRequest.getD [])).sendCurrentMethod p := rfl
    rw [List.foldl_append, foldl_gotAuthReply rfl rfl rfl hignored, List.foldl_cons, hstep]
    by_cases hask : CanAsk p
    · have hasked : (introduced (p.greeting ++ p.authRequest.getD [])).sendCurrentMethod p = asked (s.requests p) := by
        rw [sendCurrentMethod_of_canAsk hask, hrequests]
        rfl
      rw [hasked, understands_asked_iff rfl]
      exact ⟨fun h => ⟨hask, h⟩, fun h => h.2⟩
    · refine ⟨fun h => ?_, fun h => absurd h.1 hask⟩
      obtain ⟨hstate, hstopped⟩ := sendCurrentMethod_of_not_canAsk hask (introduced (p.greeting ++ p.authRequest.getD []))
      exact absurd h (not_understands_of_stopped (Or.inr hstate) hstopped after)
  constructor
  · intro h
    by_cases hmem : [5, 0] ∈ rest
    · obtain ⟨ignored, after, rfl, hignored⟩ := List.eq_append_cons_of_mem hmem
      obtain ⟨hask, hreply⟩ := (hfirst ignored after hignored).mp h
      exact ⟨hask, ignored, after, rfl, hignored, hreply⟩
    · rw [foldl_gotAuthReply rfl rfl rfl hmem] at h
      have hstate := h.state
      split at hstate <;> cases hstate
  · rintro ⟨hask, ignored, after, rfl, hignored, hreply⟩
    exact (hfirst ignored after hignored).mpr ⟨hask, hreply⟩

theorem understands_auth_iff (hauth : s.auth.isSome) (rest : List Bytes) :
    Understands p s (rest.foldl (receive p) (receive p (new.connectionMade p) [5, 2])) ↔
      CanAsk p ∧ p.authRequest.isSome ∧
        ∃ ignored after, rest = ignored ++ [5, 0] :: after ∧ [5, 0] ∉ ignored ∧ ReplyFirst s after := by
  rw [receive_hello_auth]
  unfold sendAuth
  cases hcommand : p.authRequest with
  | none =>
    refine ⟨fun h => absurd h (not_understands_of_stopped (Or.inl rfl) (Or.inr rfl) rest), fun h => ?_⟩
    cases h.2.1
  | some command =>
    have hrequests : s.requests p = p.greeting ++ p.authRequest.getD [] ++ p.connectRequest.getD [] := by
      unfold ServerStream.requests
      rw [if_pos hauth]
    have hintroduced := understands_introduced_iff hrequests rest
    rw [hcommand] at hintroduced
    refine Iff.trans hintroduced ?_
    exact ⟨fun ⟨hask, h⟩ => ⟨hask, rfl, h⟩, fun ⟨hask, _, h⟩ => ⟨hask, h⟩⟩

end

end ClientProtocol

/-- A stream is understood if and only if its chunks end at the borders of its messages, as far as the client
looks at them. -/
theorem run_understands_iff (p : Settings) (s : ServerStream) (cut : Cutting s.bytes) :
    Understands p s (ClientProtocol.run p cut.chunks) ↔ Ready p s ∧ AtBorders s cut.chunks := by
  obtain ⟨chunks, hwhole, hnonempty⟩ := cut
  unfold ClientProtocol.run
  rw [ClientProtocol.ready_iff]
  cases chunks with
  | nil =>
    refine ⟨fun h => ?_, fun h => h.2.elim⟩
    have hstate := h.state
    split at hstate <;> cases hstate
  | cons data rest =>
    rw [List.foldl_cons]
    by_cases hlength : data.length = 2
    · have hdata := ClientProtocol.eq_methodReply hwhole hlength
      unfold ServerStream.methodReply at hdata
      by_cases hauth : s.auth.isSome
      · rw [if_pos hauth] at hdata
        subst hdata
        rw [atBorders_of_auth hauth, ClientProtocol.understands_auth_iff hauth]
        exact ⟨fun ⟨hask, hrequest, h⟩ => ⟨⟨hask, fun _ => hrequest⟩, h⟩,
          fun ⟨⟨hask, hrequest⟩, h⟩ => ⟨hask, hrequest hauth, h⟩⟩
      · rw [if_neg hauth] at hdata
        subst hdata
        have hnone := Option.not_isSome_iff_eq_none.mp hauth
        rw [atBorders_of_noAuth hnone, ClientProtocol.understands_noAuth_iff hnone]
        exact ⟨fun ⟨hask, h⟩ => ⟨⟨hask, fun hsome => absurd hsome hauth⟩, h⟩, fun ⟨⟨hask, _⟩, h⟩ => ⟨hask, h⟩⟩
    · rw [ClientProtocol.receive_hello_other hlength]
      refine ⟨fun h => absurd h (ClientProtocol.not_understands_of_stopped (Or.inl rfl) (Or.inl rfl) rest), fun h => ?_⟩
      exact absurd (eq_methodReply_of_atBorders h.2 ▸ length_methodReply s) hlength

def exampleSettings : Settings where
  method := "CONNECT"
  host := "example.com".toUTF8.toList
  port := 80
  login := none
  password := none
  login_short := by simp
  password_short := by simp

def exampleStream : ServerStream where
  auth := none
  reply :=
    { rep := 0
      address := .ipv4 [127, 0, 0, 1] rfl
      portHigh := 31
      portLow := 144 }
  payload := [72, 84, 84, 80]
  refusal := fun h => absurd rfl h

/-- The first bytes of the payload come with the end of the reply. -/
def exampleCutting : Cutting exampleStream.bytes where
  chunks := [[5, 0], [5, 0, 0, 1, 127, 0, 0, 1, 31, 144, 72, 84], [84, 80]]
  whole := by decide
  nonempty := by decide

theorem payload_lost :
    ¬Understands exampleSettings exampleStream (ClientProtocol.run exampleSettings exampleCutting.chunks) := by
  intro h
  exact absurd h.payload (by decide +kernel)

end BitBlinder.Socks5
