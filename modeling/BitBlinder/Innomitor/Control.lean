import BitBlinder.Innomitor.Circuit

/-!
# Payment commands of the controller

SENDPAYMENT and ADDTOKENS of control.c. A command names a circuit by a circuit
id and the identity digest of the neighbour for which this id holds. An
argument comes with what its text reads as: a digest, or a number before it is
compared with its limits.
-/

namespace BitBlinder.Innomitor

set_option autoImplicit false

open Struct (Bytes packBE)

def CELL_PAYMENT : Nat := 11
def CELL_PAYLOAD_SIZE : Nat := 509
def RELAY_HEADER_SIZE : Nat := 11
def RELAY_PAYLOAD_SIZE : Nat := CELL_PAYLOAD_SIZE - RELAY_HEADER_SIZE
def UINT32_MAX : Int := 4294967295
def INT32_MAX : Int := 2147483647

structure Cell where
  command : Nat
  circId : UInt16
  payload : Bytes
  deriving DecidableEq

/-- The circuits of Tor, and the cells that commands wrote directly on connections. -/
structure OnionRouter where
  globalCircuitlist : List Circuit
  written : List (OrConnection × Cell)
  deriving DecidableEq

structure Arg (α : Type) where
  text : String
  value : Option α

/-- `tor_parse_long` and `tor_parse_ulong`. -/
def Arg.parse (arg : Arg Int) (min max : Int) : Option Int :=
  match arg.value with
  | none => none
  | some r => if r < min ∨ max < r then none else some r

def orReply {α : Type} (value : Option α) (reply : String) : Except String α :=
  match value with
  | none => .error reply
  | some a => .ok a

@[simp] theorem orReply_some {α : Type} (a : α) (reply : String) : orReply (some a) reply = .ok a := rfl

@[simp] theorem ok_bind {α β : Type} (a : α) (f : α → Except String β) :
    (Except.ok a >>= f : Except String β) = f a := rfl

@[simp] theorem error_bind {α β : Type} (reply : String) (f : α → Except String β) :
    (Except.error reply >>= f : Except String β) = .error reply := rfl

theorem bind_eq_ok {α β : Type} {x : Except String α} {f : α → Except String β} {b : β} (h : x >>= f = .ok b) :
    ∃ a, x = .ok a ∧ f a = .ok b := by
  cases x with
  | error reply => cases h
  | ok a => exact ⟨a, rfl, h⟩

theorem orReply_eq_ok {α : Type} {value : Option α} {reply : String} {a : α} (h : orReply value reply = .ok a) :
    value = some a := by
  cases value with
  | none => cases h
  | some b =>
    cases h
    rfl

def leadsTo (conn : Option OrConnection) (digest : Bytes) : Bool :=
  conn.any fun conn => conn.identityDigest = digest

/-- The tests in the loop of `find_circ_by_id_and_digest_helper`. -/
def Circuit.isFound (nextCircId : UInt16) (digest : Bytes) (circ : Circuit) : Bool :=
  if !circ.isOrigin ∧ leadsTo circ.pConn digest ∧ circ.pCircId = nextCircId then true
  else if !circ.isOrigin ∧ leadsTo circ.pConn digest ∧ circ.nCircId = nextCircId then true
  else decide (leadsTo circ.nConn digest ∧ circ.nCircId = nextCircId)

/-- The place of the circuit in the list. -/
def findCircByIdAndDigestHelper (circs : List Circuit) (nextCircId : UInt16) (digest : Bytes) : Option Nat :=
  circs.findIdx? (Circuit.isFound nextCircId digest)

/-- The connection in the direction that the id defines. -/
def Circuit.connFor (nextCircId : UInt16) (circ : Circuit) : Option OrConnection :=
  if circ.nCircId = nextCircId then circ.nConn else circ.pConn

/-- What both commands begin with: the circuit, its id, and the connection in the direction of
that id. -/
def OnionRouter.commandTarget (tor : OnionRouter) (digest : Arg Bytes) (circId : Arg Int) :
    Except String (Nat × Circuit × UInt16 × OrConnection) := do
  let id ← orReply digest.value ("552 Improper hex digest \"" ++ digest.text ++ "\"\r\n")
  let number ← orReply (circId.parse 0 UINT32_MAX) ("552 Improper circuit id \"" ++ circId.text ++ "\"\r\n")
  let nextCircId := UInt16.ofNat number.toNat
  let k ← orReply (findCircByIdAndDigestHelper tor.globalCircuitlist nextCircId id)
    ("552 Cannot find circuit with id \"" ++ circId.text ++ "\"\r\n")
  let circ ← orReply tor.globalCircuitlist[k]? ("552 Cannot find circuit with id \"" ++ circId.text ++ "\"\r\n")
  if circ.markedForClose.isSome then
    throw ("552 Circuit \"" ++ circId.text ++ "\" is closed\r\n")
  let conn ← orReply (circ.connFor nextCircId)
    ("552 Circuit with id \"" ++ circId.text ++ "\" doesnt go anywhere?\r\n")
  return (k, circ, nextCircId, conn)

/-- `data` is what `base64_decode` makes of the message for a buffer of a given length. -/
structure Sendpayment where
  digest : Arg Bytes
  circId : Arg Int
  data : Nat → Option Bytes
  numHops : Option (Arg Int)
  sendOverCircuit : Option (Arg Int)
  crypted : Bool

namespace Sendpayment

def hops (command : Sendpayment) : Except String Nat :=
  match command.numHops with
  | none => .ok 1
  | some arg => do
    let number ← orReply (arg.parse 0 UINT32_MAX) ("552 Improper number of hops \"" ++ arg.text ++ "\"\r\n")
    return (UInt16.ofNat number.toNat).toNat

def overCircuit (command : Sendpayment) : Except String Bool :=
  match command.sendOverCircuit with
  | none => .ok false
  | some arg => do
    let number ← orReply (arg.parse 0 1) ("552 sendOverCircuit must be 0 or 1: \"" ++ arg.text ++ "\"\r\n")
    return decide (number ≠ 0)

/-- The message, if it has the length that is wanted. -/
def decoded (command : Sendpayment) (length : Nat) : Except String Bytes :=
  match command.data length with
  | none => .error "552 Data is the wrong length!\r\n"
  | some data => if data.length = length then .ok data else .error "552 Data is the wrong length!\r\n"

end Sendpayment

def OnionRouter.modifyCircuit (tor : OnionRouter) (k : Nat) (f : Circuit → Circuit) : OnionRouter :=
  { tor with globalCircuitlist := tor.globalCircuitlist.modify k f }

/-- `handle_control_sendpayment`, with the place of the circuit. -/
def OnionRouter.sendpayment (closeUnpaid : Bool) (tor : OnionRouter) (command : Sendpayment) : Except String (OnionRouter × Nat) := do
  let (k, circ, nextCircId, conn) ← tor.commandTarget command.digest command.circId
  let numHops ← command.hops
  let overCircuit ← command.overCircuit
  if !overCircuit then
    let data ← command.decoded (CELL_PAYLOAD_SIZE - 2)
    let cell : Cell := { command := CELL_PAYMENT, circId := nextCircId, payload := packBE 2 numHops ++ data }
    return ({ tor with written := tor.written ++ [(conn, cell)] }, k)
  else
    let _ ← command.decoded RELAY_PAYLOAD_SIZE
    if circ.isOrigin ∧ ¬(0 < numHops ∧ numHops ≤ circ.cpathLength) then
      throw ("551 Circuit doesn't have " ++ toString numHops ++ " hops.\r\n")
    return (tor.modifyCircuit k fun circ =>
      (circ.relaySendCommandFromEdge closeUnpaid circ.isOrigin command.crypted).1, k)

/-- The arguments of ADDTOKENS, and the calls that resume reading and sending. -/
structure Addtokens where
  digest : Arg Bytes
  circId : Arg Int
  numReadCells : Arg Int
  numWriteCells : Arg Int
  calls : List Circuit.EdgeCall

/-- `handle_control_addtokens`, with the place of the circuit. -/
def OnionRouter.addtokens (closeUnpaid : Bool) (tor : OnionRouter) (command : Addtokens) : Except String (OnionRouter × Nat) := do
  let (k, _, _, _) ← tor.commandTarget command.digest command.circId
  let numReadCells ← orReply (command.numReadCells.parse (-1) INT32_MAX)
    ("552 bad value for numReadCells \"" ++ command.numReadCells.text ++ "\"\r\n")
  let numWriteCells ← orReply (command.numWriteCells.parse (-1) INT32_MAX)
    ("552 bad value for numWriteCells \"" ++ command.numWriteCells.text ++ "\"\r\n")
  return (tor.modifyCircuit k (Circuit.addTokens closeUnpaid numReadCells numWriteCells command.calls), k)

/-- The answer to the controller: an error leaves everything as it was. -/
def OnionRouter.answer (tor : OnionRouter) (result : Except String (OnionRouter × Nat)) : OnionRouter × String :=
  match result with
  | .error reply => (tor, reply)
  | .ok (tor, k) =>
    match tor.globalCircuitlist[k]? with
    | none => (tor, "")
    | some circ => (tor, "250 " ++ toString circ.payedReads ++ " " ++ toString circ.payedWrites ++ "\r\n")

def OnionRouter.handleControlSendpayment (closeUnpaid : Bool) (tor : OnionRouter) (command : Sendpayment) : OnionRouter × String :=
  tor.answer (tor.sendpayment closeUnpaid command)

def OnionRouter.handleControlAddtokens (closeUnpaid : Bool) (tor : OnionRouter) (command : Addtokens) : OnionRouter × String :=
  tor.answer (tor.addtokens closeUnpaid command)

/-! ### The circuit that a command names -/

namespace Circuit

/-- The circuit has this id on the connection to a previous hop with this digest. -/
def PrevSide (circ : Circuit) (circId : UInt16) (digest : Bytes) : Prop :=
  circ.isOrigin = false ∧ leadsTo circ.pConn digest = true ∧ circ.pCircId = circId

/-- The circuit has this id on the connection to a next hop with this digest. -/
def NextSide (circ : Circuit) (circId : UInt16) (digest : Bytes) : Prop :=
  leadsTo circ.nConn digest = true ∧ circ.nCircId = circId

/-- The digest is that of the previous hop alone, and the id is the one for the next hop. -/
def Crossed (circ : Circuit) (circId : UInt16) (digest : Bytes) : Prop :=
  circ.isOrigin = false ∧ leadsTo circ.pConn digest = true ∧ circ.nCircId = circId ∧
    leadsTo circ.nConn digest = false

/-- The circuit has something to do with the pair. -/
def Touches (circ : Circuit) (circId : UInt16) (digest : Bytes) : Prop :=
  circ.PrevSide circId digest ∨ circ.NextSide circId digest ∨ circ.Crossed circId digest

theorem isFound_iff (circ : Circuit) (circId : UInt16) (digest : Bytes) :
    circ.isFound circId digest = true ↔ circ.Touches circId digest := by
  unfold isFound Touches PrevSide NextSide Crossed
  cases circ.isOrigin with
  | true => simp
  | false =>
    cases leadsTo circ.pConn digest with
    | false => simp
    | true =>
      cases leadsTo circ.nConn digest with
      | false => simp
      | true => simp

end Circuit

/-- A message for the neighbour with this digest, well formed and not to be sent over the
circuit. -/
structure Sendpayment.Direct (command : Sendpayment) (circId : UInt16) (digest : Bytes) : Prop where
  digest_eq : command.digest.value = some digest
  circId_eq : ∃ number, command.circId.parse 0 UINT32_MAX = some number ∧ UInt16.ofNat number.toNat = circId
  hops_ok : ∃ numHops, command.hops = .ok numHops
  direct : command.overCircuit = .ok false
  data_ok : ∃ data, command.decoded (CELL_PAYLOAD_SIZE - 2) = .ok data

/-- The circuit that is found is one that the pair names, and while it is open, a message goes
out on its connection to the neighbour, with its id there. -/
def OnionRouter.ActsOnNamed (closeUnpaid : Bool) (tor : OnionRouter) (circId : UInt16) (digest : Bytes) : Prop :=
  ∀ k circ, findCircByIdAndDigestHelper tor.globalCircuitlist circId digest = some k →
    tor.globalCircuitlist[k]? = some circ →
    (circ.PrevSide circId digest ∨ circ.NextSide circId digest) ∧
    ∀ command : Sendpayment, command.Direct circId digest → circ.markedForClose = none →
      ∃ conn cell, (tor.handleControlSendpayment closeUnpaid command).1.written = tor.written ++ [(conn, cell)] ∧
        cell.command = CELL_PAYMENT ∧ cell.circId = circId ∧
        (circ.pConn = some conn ∧ circ.PrevSide circId digest ∨
          circ.nConn = some conn ∧ circ.NextSide circId digest)

/-- The first circuit that has something to do with the pair is not a crossed one, unless the pair
also names its previous hop and it is closed. -/
def OnionRouter.Uncrossed (tor : OnionRouter) (circId : UInt16) (digest : Bytes) : Prop :=
  ∀ before circ after, tor.globalCircuitlist = before ++ circ :: after →
    (∀ other ∈ before, ¬other.Touches circId digest) →
    circ.Crossed circId digest → circ.PrevSide circId digest ∧ circ.markedForClose ≠ none

theorem leadsTo_some {conn : Option OrConnection} {digest : Bytes} (h : leadsTo conn digest = true) :
    ∃ c, conn = some c := by
  cases conn with
  | none => cases h
  | some c => exact ⟨c, rfl⟩

theorem findCirc_split {before after : List Circuit} {circ : Circuit} {circId : UInt16} {digest : Bytes}
    (hbefore : ∀ other ∈ before, ¬other.Touches circId digest) (hcirc : circ.Touches circId digest) :
    findCircByIdAndDigestHelper (before ++ circ :: after) circId digest = some before.length := by
  unfold findCircByIdAndDigestHelper
  induction before with
  | nil =>
    have hfound : circ.isFound circId digest = true := (circ.isFound_iff circId digest).mpr hcirc
    simp [List.findIdx?_cons, hfound]
  | cons other before ih =>
    have hother : other.isFound circId digest = false := by
      rw [← Bool.not_eq_true, other.isFound_iff]
      exact hbefore other List.mem_cons_self
    rw [List.cons_append, List.findIdx?_cons, hother, ih fun other hmem => hbefore other (List.mem_cons_of_mem _ hmem)]
    rfl

theorem split_of_findCirc {circs : List Circuit} {k : Nat} {circId : UInt16} {digest : Bytes}
    (h : findCircByIdAndDigestHelper circs circId digest = some k) :
    ∃ before circ after, circs = before ++ circ :: after ∧ circs[k]? = some circ ∧ circ.Touches circId digest ∧
      ∀ other ∈ before, ¬other.Touches circId digest := by
  obtain ⟨hlt, hfound, hfirst⟩ := List.findIdx?_eq_some_iff_getElem.mp h
  refine ⟨circs.take k, circs[k], circs.drop (k + 1), ?_, List.getElem?_eq_getElem hlt, ?_, ?_⟩
  · rw [List.getElem_cons_drop, List.take_append_drop]
  · exact (Circuit.isFound_iff _ circId digest).mp hfound
  · intro other hmem htouches
    obtain ⟨j, hj, rfl⟩ := List.mem_iff_getElem.mp hmem
    have hjk : j < k := Nat.lt_of_lt_of_le hj (List.length_take_le k circs)
    rw [List.getElem_take] at htouches
    exact hfirst j hjk ((Circuit.isFound_iff _ circId digest).mpr htouches)

section
variable {tor : OnionRouter} {command : Sendpayment} {circId : UInt16} {digest : Bytes} {k : Nat}
  {circ : Circuit}

theorem commandTarget_direct (h : command.Direct circId digest)
    (hfind : findCircByIdAndDigestHelper tor.globalCircuitlist circId digest = some k)
    (hk : tor.globalCircuitlist[k]? = some circ) (hopen : circ.markedForClose = none) :
    tor.commandTarget command.digest command.circId =
      (orReply (circ.connFor circId)
        ("552 Circuit with id \"" ++ command.circId.text ++ "\" doesnt go anywhere?\r\n")).map
        fun conn => (k, circ, circId, conn) := by
  obtain ⟨number, hnumber, hid⟩ := h.circId_eq
  subst hid
  unfold OnionRouter.commandTarget
  simp only [h.digest_eq, hnumber, orReply_some, ok_bind, hfind, hk, hopen]
  cases circ.connFor (UInt16.ofNat number.toNat) with
  | none => rfl
  | some conn => rfl

/-- A message goes out on the connection that the id alone determines. -/
theorem sendpayment_written (closeUnpaid : Bool) (h : command.Direct circId digest)
    (hfind : findCircByIdAndDigestHelper tor.globalCircuitlist circId digest = some k)
    (hk : tor.globalCircuitlist[k]? = some circ) (hopen : circ.markedForClose = none) :
    ∃ cell : Cell, cell.command = CELL_PAYMENT ∧ cell.circId = circId ∧
      (tor.handleControlSendpayment closeUnpaid command).1.written =
        tor.written ++ (circ.connFor circId).toList.map fun conn => (conn, cell) := by
  obtain ⟨numHops, hhops⟩ := h.hops_ok
  obtain ⟨data, hdata⟩ := h.data_ok
  refine ⟨{ command := CELL_PAYMENT, circId, payload := packBE 2 numHops ++ data }, rfl, rfl, ?_⟩
  unfold OnionRouter.handleControlSendpayment OnionRouter.sendpayment
  rw [commandTarget_direct h hfind hk hopen, hhops, h.direct, hdata]
  cases circ.connFor circId with
  | none => simp [orReply, Except.map, OnionRouter.answer]
  | some conn => simp [Except.map, pure, Except.pure, OnionRouter.answer, hk]

end

/-- A command is carried out on a circuit of the list that is open. -/
theorem commandTarget_open {tor : OnionRouter} {digest : Arg Bytes} {circId : Arg Int} {k : Nat} {circ : Circuit}
    {nextCircId : UInt16} {conn : OrConnection}
    (h : tor.commandTarget digest circId = .ok (k, circ, nextCircId, conn)) :
    tor.globalCircuitlist[k]? = some circ ∧ circ.markedForClose = none := by
  obtain ⟨id, -, h⟩ := bind_eq_ok h
  obtain ⟨number, -, h⟩ := bind_eq_ok h
  obtain ⟨j, -, h⟩ := bind_eq_ok h
  obtain ⟨found, hfound, h⟩ := bind_eq_ok h
  split at h
  · cases h
  · rename_i hopen
    obtain ⟨c, -, h⟩ := bind_eq_ok h
    cases h
    exact ⟨orReply_eq_ok hfound, by simpa using hopen⟩

/-- A well formed message for the given neighbour. -/
def messageFor (circId : UInt16) (digest : Bytes) : Sendpayment where
  digest := { text := "", value := some digest }
  circId := { text := "", value := some circId.toNat }
  data := fun length => some (List.replicate length 0)
  numHops := none
  sendOverCircuit := none
  crypted := true

theorem messageFor_direct (circId : UInt16) (digest : Bytes) : (messageFor circId digest).Direct circId digest where
  digest_eq := rfl
  circId_eq := by
    have hlt : circId.toNat < 65536 := circId.toNat_lt
    have hlimits : ¬((circId.toNat : Int) < 0 ∨ UINT32_MAX < circId.toNat) := by
      unfold UINT32_MAX
      omega
    refine ⟨circId.toNat, if_neg hlimits, ?_⟩
    simp
  hops_ok := ⟨1, rfl⟩
  direct := rfl
  data_ok := ⟨List.replicate (CELL_PAYLOAD_SIZE - 2) 0, by simp [Sendpayment.decoded, messageFor]⟩

/-- Unless the circuit is crossed, its id leads to the neighbour that the pair names. -/
theorem connFor_of_not_crossed {circ : Circuit} {circId : UInt16} {digest : Bytes}
    (hnamed : circ.PrevSide circId digest ∨ circ.NextSide circId digest) (hnot : ¬circ.Crossed circId digest) :
    ∃ conn, circ.connFor circId = some conn ∧
      (circ.pConn = some conn ∧ circ.PrevSide circId digest ∨ circ.nConn = some conn ∧ circ.NextSide circId digest) := by
  by_cases hid : circ.nCircId = circId
  · have hnext : circ.NextSide circId digest := by
      rcases hnamed with hprev | hnext
      · have hleads : leadsTo circ.nConn digest = true := by
          by_contra hunled
          exact hnot ⟨hprev.1, hprev.2.1, hid, by simpa using hunled⟩
        exact ⟨hleads, hid⟩
      · exact hnext
    obtain ⟨conn, hconn⟩ := leadsTo_some hnext.1
    exact ⟨conn, by rw [Circuit.connFor, if_pos hid, hconn], Or.inr ⟨hconn, hnext⟩⟩
  · have hprev : circ.PrevSide circId digest := by
      rcases hnamed with hprev | hnext
      · exact hprev
      · exact absurd hnext.2 hid
    obtain ⟨conn, hconn⟩ := leadsTo_some hprev.2.1
    exact ⟨conn, by rw [Circuit.connFor, if_neg hid, hconn], Or.inl ⟨hconn, hprev⟩⟩

/-- Commands act on the circuit that the pair names exactly where the lookup meets no crossed
circuit first. -/
theorem acts_on_named_iff (closeUnpaid : Bool) (tor : OnionRouter) (circId : UInt16) (digest : Bytes) :
    tor.ActsOnNamed closeUnpaid circId digest ↔ tor.Uncrossed circId digest := by
  constructor
  · intro h before circ after hlist hbefore hcrossed
    obtain ⟨horigin, hprev, hid, hnext⟩ := hcrossed
    have hfind : findCircByIdAndDigestHelper tor.globalCircuitlist circId digest = some before.length := by
      rw [hlist]
      exact findCirc_split hbefore (Or.inr (Or.inr ⟨horigin, hprev, hid, hnext⟩))
    have hk : tor.globalCircuitlist[before.length]? = some circ := by
      rw [hlist]
      simp
    obtain ⟨hnamed, hwrites⟩ := h before.length circ hfind hk
    have hprevSide : circ.PrevSide circId digest := by
      rcases hnamed with hprevSide | hnextSide
      · exact hprevSide
      · exact absurd hnextSide.1 (by simp [hnext])
    refine ⟨hprevSide, fun hopen => ?_⟩
    -- The message for the previous hop would go out towards the next one.
    have hdirect := messageFor_direct circId digest
    obtain ⟨conn, cell, hcell, -, -, hside⟩ := hwrites _ hdirect hopen
    obtain ⟨cell', -, -, hwritten⟩ := sendpayment_written closeUnpaid hdirect hfind hk hopen
    rw [hwritten, List.append_cancel_left_eq, Circuit.connFor, if_pos hid] at hcell
    cases hconn : circ.nConn with
    | none => simp [hconn] at hcell
    | some next =>
      simp only [hconn, Option.toList, List.map_cons, List.map_nil, List.cons.injEq, Prod.mk.injEq] at hcell
      obtain ⟨⟨rfl, -⟩, -⟩ := hcell
      rcases hside with ⟨hsame, hprevSide⟩ | ⟨-, hnextSide⟩
      · have hleads := hprevSide.2.1
        rw [hsame, ← hconn, hnext] at hleads
        cases hleads
      · exact absurd hnextSide.1 (by simp [hnext])
  · intro h k circ hfind hk
    obtain ⟨before, circ', after, hlist, hk', htouches, hbefore⟩ := split_of_findCirc hfind
    rw [hk] at hk'
    obtain rfl := Option.some.inj hk'
    have hnamed : circ.PrevSide circId digest ∨ circ.NextSide circId digest := by
      rcases htouches with hprev | hnext | hcrossed
      · exact Or.inl hprev
      · exact Or.inr hnext
      · exact Or.inl (h before circ after hlist hbefore hcrossed).1
    refine ⟨hnamed, fun command hdirect hopen => ?_⟩
    obtain ⟨cell, hcommand, hcircId, hwritten⟩ :=
      sendpayment_written closeUnpaid hdirect hfind hk hopen
    have hnotCrossed : ¬circ.Crossed circId digest := fun hcrossed =>
      (h before circ after hlist hbefore hcrossed).2 hopen
    obtain ⟨conn, hconn, hside⟩ := connFor_of_not_crossed hnamed hnotCrossed
    rw [hconn] at hwritten
    exact ⟨conn, cell, hwritten, hcommand, hcircId, hside⟩

def exampleDigest (b : UInt8) : Bytes := List.replicate 20 b

def examplePrevious : OrConnection := { number := 0, identityDigest := exampleDigest 1 }

def exampleNext : OrConnection := { number := 1, identityDigest := exampleDigest 2 }

/-- A circuit with the same id on both of its connections. -/
def exampleCircuit : Circuit := .initCircuitBase false 5 (some exampleNext) 5 (some examplePrevious) 0

def exampleRouter : OnionRouter := { globalCircuitlist := [exampleCircuit], written := [] }

/-- A message for the previous hop leaves towards the next one. -/
theorem message_leaves_towards_next_hop :
    exampleCircuit.PrevSide 5 (exampleDigest 1) ∧
    (exampleRouter.handleControlSendpayment true (messageFor 5 (exampleDigest 1))).1.written.map Prod.fst =
      [exampleNext] ∧
    ¬exampleRouter.ActsOnNamed true 5 (exampleDigest 1) := by
  have hwritten : (exampleRouter.handleControlSendpayment true (messageFor 5 (exampleDigest 1))).1.written.map
      Prod.fst = [exampleNext] := by
    decide +kernel
  refine ⟨⟨rfl, by decide, rfl⟩, hwritten, fun h => ?_⟩
  obtain ⟨-, hmessage⟩ := h 0 exampleCircuit (by decide) rfl
  obtain ⟨conn, cell, hcell, -, -, hside⟩ := hmessage _ (messageFor_direct 5 (exampleDigest 1)) rfl
  rw [hcell] at hwritten
  have hconn : conn = exampleNext := (List.cons.inj hwritten).1
  rcases hside with ⟨hprev, -⟩ | ⟨-, hnext⟩
  · rw [hconn] at hprev
    exact absurd hprev (by decide)
  · exact absurd hnext.1 (by decide)

end BitBlinder.Innomitor
