import BitBlinder.Struct

/-!
# Circuits and their cells

`circuit_t`, with what `or_circuit_t` and `origin_circuit_t` add to it, and the
functions of relay.c that charge cells to a circuit. What Tor makes of a cell
beyond that is given with the cell: the result of decrypting it, the calls that
its processing makes, and what it returns. The counters are integers without
bounds. `history` lists what happened on a circuit, and no function reads it.
-/

namespace BitBlinder.Innomitor

set_option autoImplicit false

open Struct (Bytes)

def CIRCWINDOW_START : Int := 1000
def CIRCWINDOW_INCREMENT : Int := 100

def END_CIRC_AT_ORIGIN : Int := -1
def END_CIRC_REASON_NONE : Int := 0
def END_CIRC_REASON_TORPROTOCOL : Int := 1
def END_CIRC_REASON_INTERNAL : Int := 2
def END_CIRC_REASON_UNPAID : Int := 13
def END_CIRC_REASON_MAX : Int := 13
def END_CIRC_REASON_FLAG_REMOTE : Int := 512

/-- Towards the origin, or away from it. -/
inductive CellDirection where
  | inward
  | outward
  deriving DecidableEq

/-- There may be several connections to one relay. -/
structure OrConnection where
  number : Nat
  identityDigest : Bytes
  deriving DecidableEq

/-- What happened to a relay cell, and the tokens that were added. -/
inductive Event where
  | delivered (direction : CellDirection)
  | forwarded (direction : CellDirection)
  | sent (direction : CellDirection)
  | refused (direction : CellDirection)
  | added (numReadCells numWriteCells : Int)
  deriving DecidableEq

/-- `pCircId` and `pConn` are those of an `or_circuit_t`; an origin circuit has `cpathLength`
hops instead. A circuit that is marked for close keeps the reason. -/
structure Circuit where
  isOrigin : Bool
  nCircId : UInt16
  nConn : Option OrConnection
  pCircId : UInt16
  pConn : Option OrConnection
  cpathLength : Nat
  markedForClose : Option Int
  payedReads : Int
  payedWrites : Int
  payedReadsAdded : Int
  payedWritesAdded : Int
  history : List Event
  deriving DecidableEq

namespace Circuit

/-- `init_circuit_base`. -/
def initCircuitBase (isOrigin : Bool) (nCircId : UInt16) (nConn : Option OrConnection) (pCircId : UInt16)
    (pConn : Option OrConnection) (cpathLength : Nat) : Circuit where
  isOrigin := isOrigin
  nCircId := nCircId
  nConn := nConn
  pCircId := pCircId
  pConn := pConn
  cpathLength := cpathLength
  markedForClose := none
  payedReads := CIRCWINDOW_START
  payedWrites := CIRCWINDOW_START
  payedReadsAdded := CIRCWINDOW_START
  payedWritesAdded := CIRCWINDOW_START
  history := []

/-- The reason that is left of the one `circuit_mark_for_close` is called with. -/
def closeReason (circ : Circuit) (reason : Int) : Int :=
  let reason := if reason = END_CIRC_AT_ORIGIN then END_CIRC_REASON_NONE else reason
  let reason := if circ.isOrigin then END_CIRC_REASON_NONE else reason
  let reason := if reason / END_CIRC_REASON_FLAG_REMOTE % 2 = 1 then reason - END_CIRC_REASON_FLAG_REMOTE else reason
  if reason < END_CIRC_REASON_NONE ∨ END_CIRC_REASON_MAX < reason then END_CIRC_REASON_NONE else reason

/-- A circuit that is marked already keeps its reason. -/
def markForClose (circ : Circuit) (reason : Int) : Circuit :=
  match circ.markedForClose with
  | some _ => circ
  | none => { circ with markedForClose := some (circ.closeReason reason) }

def record (circ : Circuit) (event : Event) : Circuit := { circ with history := circ.history ++ [event] }

/-- Payments are tracked only where unpaid circuits are closed. -/
def charge (closeUnpaid : Bool) (direction : CellDirection) (circ : Circuit) : Circuit :=
  if closeUnpaid then
    match direction with
    | .inward => { circ with payedReads := circ.payedReads - 1 }
    | .outward => { circ with payedWrites := circ.payedWrites - 1 }
  else
    circ

/-- The test that follows. -/
def Unpaid (circ : Circuit) : Prop :=
  circ.payedReads < -CIRCWINDOW_INCREMENT ∨ circ.payedWrites < -CIRCWINDOW_INCREMENT

instance (circ : Circuit) : Decidable circ.Unpaid := inferInstanceAs (Decidable (_ ∨ _))

/-- `circuit_package_relay_cell`; `crypted` is whether the payload could be encrypted. -/
def packageRelayCell (crypted : Bool) (direction : CellDirection) (circ : Circuit) : Circuit × Int :=
  match direction with
  | .outward =>
    if !circ.isOrigin ∨ circ.nConn = none then (circ, 0)
    else if !crypted then (circ, -1)
    else (circ.record (.sent .outward), 0)
  | .inward =>
    if circ.isOrigin then (circ, 0)
    else if !crypted then (circ, -1)
    else (circ.record (.sent .inward), 0)

/-- `relay_send_command_from_edge` from the choice of the direction on. -/
def sendFromEdge (closeUnpaid crypted : Bool) (direction : CellDirection) (circ : Circuit) : Circuit × Int :=
  let circ := circ.charge closeUnpaid direction
  if circ.Unpaid then
    ((circ.record (.refused direction)).markForClose END_CIRC_REASON_UNPAID, -1)
  else
    match circ.packageRelayCell crypted direction with
    | (circ, result) => if result < 0 then (circ.markForClose END_CIRC_REASON_INTERNAL, -1) else (circ, 0)

/-- `relay_send_command_from_edge`; `layered` is whether there is a `cpath_layer`. -/
def relaySendCommandFromEdge (closeUnpaid layered crypted : Bool) (circ : Circuit) : Circuit × Int :=
  if layered then
    circ.sendFromEdge closeUnpaid crypted .outward
  else if !circ.isOrigin then
    circ.sendFromEdge closeUnpaid crypted .inward
  else
    (circ, -1)

/-- What other parts of Tor do to a circuit. -/
inductive EdgeCall where
  | send (layered crypted : Bool)
  | close (reason : Int)

/-- A circuit onto which cells are sent is open, as `relay_send_command_from_edge` asks for; only
a caller that was refused may try again. -/
def TakesCells (circ : Circuit) : Prop :=
  circ.markedForClose = none ∨ circ.markedForClose = some (circ.closeReason END_CIRC_REASON_UNPAID)

instance (circ : Circuit) : Decidable circ.TakesCells := inferInstanceAs (Decidable (_ ∨ _))

def edgeCall (closeUnpaid : Bool) (circ : Circuit) : EdgeCall → Circuit
  | .send layered crypted =>
    if circ.TakesCells then (circ.relaySendCommandFromEdge closeUnpaid layered crypted).1 else circ
  | .close reason => circ.markForClose reason

/-- A cell as it arrives: `recognized` is what `relay_crypt` finds, if it does not fail; `calls`
and `reason` are what `connection_edge_process_relay_cell` does and returns; `splice` is what the
spliced circuit returns, where there is one. -/
structure Arrival where
  recognized : Option Bool
  calls : List EdgeCall
  reason : Int
  splice : Option Int

/-- The end of `circuit_receive_relay_cell`: a cell that is not recognized is passed on. -/
def passOn (direction : CellDirection) (splice : Option Int) (circ : Circuit) : Circuit × Int :=
  match direction with
  | .outward =>
    if circ.nConn = none then
      match circ.isOrigin, splice with
      | false, some reason =>
        if reason < 0 then (circ.markForClose (-reason), reason)
        else (circ.record (.forwarded .outward), 0)
      | _, _ => (circ, -END_CIRC_REASON_TORPROTOCOL)
    else (circ.record (.forwarded .outward), 0)
  | .inward =>
    if circ.isOrigin then (circ, 0)
    else if circ.pConn = none then (circ, -END_CIRC_REASON_TORPROTOCOL)
    else (circ.record (.forwarded .inward), 0)

def receiveRelayCell (closeUnpaid : Bool) (direction : CellDirection) (arrival : Arrival) (circ : Circuit) :
    Circuit × Int :=
  if circ.markedForClose.isSome then
    (circ, 0)
  else
    match arrival.recognized with
    | none => (circ, -END_CIRC_REASON_INTERNAL)
    | some recognized =>
      let circ := circ.charge closeUnpaid direction
      if circ.Unpaid then
        (circ.record (.refused direction), -END_CIRC_REASON_UNPAID)
      else if recognized then
        (arrival.calls.foldl (edgeCall closeUnpaid) (circ.record (.delivered direction)), min arrival.reason 0)
      else
        circ.passOn direction arrival.splice

/-- The end of `command_process_relay_cell`. -/
def processRelayCell (closeUnpaid : Bool) (direction : CellDirection) (arrival : Arrival) (circ : Circuit) : Circuit :=
  match circ.receiveRelayCell closeUnpaid direction arrival with
  | (circ, reason) => if reason < 0 then circ.markForClose (-reason) else circ

/-- What ADDTOKENS does to an open circuit; `calls` are those of the functions that resume
reading and sending. -/
def addTokens (closeUnpaid : Bool) (numReadCells numWriteCells : Int) (calls : List EdgeCall) (circ : Circuit) :
    Circuit :=
  if numReadCells < 0 then
    circ.markForClose END_CIRC_REASON_UNPAID
  else if numReadCells = 0 then
    circ
  else
    calls.foldl (edgeCall closeUnpaid) { circ with
      payedReads := circ.payedReads + numReadCells
      payedWrites := circ.payedWrites + numWriteCells
      payedReadsAdded := circ.payedReadsAdded + numReadCells
      payedWritesAdded := circ.payedWritesAdded + numWriteCells
      history := circ.history ++ [.added numReadCells numWriteCells] }

end Circuit

end BitBlinder.Innomitor
