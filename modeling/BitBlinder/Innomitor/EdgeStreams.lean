import BitBlinder.Innomitor.Addtokens
import BitBlinder.Runs

/-!
# Edge streams

The streams at an end of a circuit, and the functions of relay.c that package
what they read, that stop and resume reading, and that send SENDME cells. An
origin circuit has windows for each hop of its path; another circuit has a
single layer, the circuit itself. Everything these functions do to an end of a
circuit is a sequence of a few kinds of `Moves`.
-/

namespace BitBlinder.Innomitor

set_option autoImplicit false

def STREAMWINDOW_START : Int := 500
def STREAMWINDOW_INCREMENT : Int := 50

structure Windows where
  packageWindow : Int
  deliverWindow : Int
  deriving DecidableEq

/-- `edge_connection_t`; `inbuf` is the number of bytes that wait to be packaged. -/
structure EdgeConnection where
  streamId : Nat
  numbered : streamId ≠ 0
  cpathLayer : Nat
  packageWindow : Int
  deliverWindow : Int
  inbuf : Nat
  reading : Bool
  markedForClose : Bool

inductive RelayCommand where
  | data
  | sendme
  | other
  deriving DecidableEq

/-- A relay cell. Control cells have the stream id 0. -/
structure RelayCell where
  command : RelayCommand
  streamId : Nat

/-- An end of a circuit. `cellQueue` holds the cells that it sent, with the layer they were sent
to, and `faults` the layers for which a test failed that should never fail. -/
structure EdgeCircuit where
  circ : Circuit
  layers : List Windows
  streams : List EdgeConnection
  cellQueue : List (Nat × RelayCell)
  faults : List Nat

/-- A loop that goes from `k` to `prev k` until it comes to `last`. -/
def doWhile {σ : Type} (body : Nat → σ → σ) (prev : Nat → Nat) (last : Nat) : Nat → Nat → σ → Option σ
  | 0, _, _ => none
  | fuel + 1, k, s =>
    if prev k = last then some (body k s) else doWhile body prev last fuel (prev k) (body k s)

namespace EdgeCircuit

def windowsAt (layer : Nat) (edge : EdgeCircuit) : Windows := edge.layers[layer]?.getD ⟨0, 0⟩

def modifyLayer (layer : Nat) (f : Windows → Windows) (edge : EdgeCircuit) : EdgeCircuit :=
  { edge with layers := edge.layers.modify layer f }

def modifyStream (j : Nat) (f : EdgeConnection → EdgeConnection) (edge : EdgeCircuit) : EdgeCircuit :=
  { edge with streams := edge.streams.modify j f }

/-- The counter for cells that this end sends. -/
def payedToSend (edge : EdgeCircuit) : Int :=
  if edge.circ.isOrigin then edge.circ.payedWrites else edge.circ.payedReads

/-- The counter for cells that come to this end. -/
def payedToReceive (edge : EdgeCircuit) : Int :=
  if edge.circ.isOrigin then edge.circ.payedReads else edge.circ.payedWrites

/-- Closing a circuit destroys its streams. -/
def putCircuit (circ : Circuit) (edge : EdgeCircuit) : EdgeCircuit :=
  { edge with
    circ := circ
    streams :=
      if edge.circ.markedForClose = none ∧ circ.markedForClose ≠ none then
        edge.streams.map fun conn => { conn with markedForClose := true }
      else edge.streams }

/-- An origin circuit that goes nowhere. -/
def Cut (circ : Circuit) : Prop := circ.isOrigin = true ∧ circ.nConn = none

instance (circ : Circuit) : Decidable (Cut circ) := inferInstanceAs (Decidable (_ ∧ _))

/-- `relay_send_command_from_edge`; an origin circuit that goes nowhere drops the cell. -/
def relaySendCommandFromEdge (closeUnpaid : Bool) (layer : Nat) (cell : RelayCell) (edge : EdgeCircuit) :
    EdgeCircuit × Int :=
  match edge.circ.relaySendCommandFromEdge closeUnpaid edge.circ.isOrigin true with
  | (circ, result) =>
    if result < 0 ∨ Cut circ then (edge.putCircuit circ, result)
    else ({ edge.putCircuit circ with cellQueue := edge.cellQueue ++ [(layer, cell)] }, result)

/-- `connection_edge_send_command`. -/
def connectionEdgeSendCommand (closeUnpaid : Bool) (j : Nat) (command : RelayCommand) (edge : EdgeCircuit) :
    EdgeCircuit × Int :=
  match edge.streams[j]? with
  | none => (edge, -1)
  | some conn =>
    if conn.markedForClose then (edge, 0)
    else edge.relaySendCommandFromEdge closeUnpaid conn.cpathLayer { command, streamId := conn.streamId }

/-- What `circuit_consider_stop_edge_reading` returns. -/
def Stopped (layer : Nat) (edge : EdgeCircuit) : Prop :=
  (edge.windowsAt layer).packageWindow ≤ 0 ∨ edge.payedToSend ≤ CIRCWINDOW_INCREMENT

instance (layer : Nat) (edge : EdgeCircuit) : Decidable (edge.Stopped layer) := inferInstanceAs (Decidable (_ ∨ _))

/-- What `circuit_consider_stop_edge_reading` does. -/
def considerStopEdgeReading (layer : Nat) (edge : EdgeCircuit) : EdgeCircuit :=
  if edge.Stopped layer then
    { edge with streams := edge.streams.map fun conn =>
        if conn.cpathLayer = layer then { conn with reading := false } else conn }
  else edge

def startReading (j : Nat) (edge : EdgeCircuit) : EdgeCircuit :=
  edge.modifyStream j fun conn => { conn with reading := true }

def stopReading (j : Nat) (edge : EdgeCircuit) : EdgeCircuit :=
  edge.modifyStream j fun conn => { conn with reading := false }

/-- A data cell is on its way: the assertion, and the window of the layer. -/
def packaged (layer : Nat) (edge : EdgeCircuit) : EdgeCircuit :=
  let edge := if (edge.windowsAt layer).packageWindow > 0 then edge else { edge with faults := edge.faults ++ [layer] }
  edge.modifyLayer layer fun windows => { windows with packageWindow := windows.packageWindow - 1 }

/-- One round of the loop of `connection_edge_package_raw_inbuf`, and whether there is another. -/
def packageCell (closeUnpaid packagePartial : Bool) (j : Nat) (edge : EdgeCircuit) : EdgeCircuit × Bool :=
  match edge.streams[j]? with
  | none => (edge, false)
  | some conn =>
    if edge.Stopped conn.cpathLayer then (edge.considerStopEdgeReading conn.cpathLayer, false)
    else if conn.packageWindow ≤ 0 then (edge.stopReading j, false)
    else if conn.inbuf = 0 ∨ packagePartial = false ∧ conn.inbuf < RELAY_PAYLOAD_SIZE then (edge, false)
    else
      let edge := edge.modifyStream j fun conn => { conn with inbuf := conn.inbuf - min conn.inbuf RELAY_PAYLOAD_SIZE }
      match edge.connectionEdgeSendCommand closeUnpaid j .data with
      | (edge, result) =>
        if result < 0 then (edge, false)
        else
          let edge := edge.packaged conn.cpathLayer
          let edge := edge.modifyStream j fun conn => { conn with packageWindow := conn.packageWindow - 1 }
          if conn.packageWindow - 1 ≤ 0 then ((edge.stopReading j).considerStopEdgeReading conn.cpathLayer, false)
          else (edge, true)

def packageLoop (closeUnpaid packagePartial : Bool) (j : Nat) : Nat → EdgeCircuit → EdgeCircuit
  | 0, edge => edge
  | fuel + 1, edge =>
    match edge.packageCell closeUnpaid packagePartial j with
    | (edge, true) => packageLoop closeUnpaid packagePartial j fuel edge
    | (edge, false) => edge

/-- `connection_edge_package_raw_inbuf`. Each round takes a byte at least, so the rounds are enough. -/
def packageRawInbuf (closeUnpaid packagePartial : Bool) (j : Nat) (edge : EdgeCircuit) : EdgeCircuit :=
  match edge.streams[j]? with
  | none => edge
  | some conn =>
    if conn.markedForClose then edge else packageLoop closeUnpaid packagePartial j (conn.inbuf + 1) edge

/-- `circuit_resume_edge_reading_helper`, for the streams in their order. -/
def resumeStreams (closeUnpaid : Bool) (layer : Nat) : List Nat → EdgeCircuit → EdgeCircuit
  | [], edge => edge
  | j :: js, edge =>
    match edge.streams[j]? with
    | none => resumeStreams closeUnpaid layer js edge
    | some conn =>
      if conn.markedForClose = false ∧ conn.packageWindow > 0 ∧ conn.cpathLayer = layer then
        let edge := (edge.startReading j).packageRawInbuf closeUnpaid true j
        if edge.Stopped layer then edge.considerStopEdgeReading layer else resumeStreams closeUnpaid layer js edge
      else resumeStreams closeUnpaid layer js edge

/-- `circuit_resume_edge_reading`. -/
def resumeEdgeReading (closeUnpaid : Bool) (layer : Nat) (edge : EdgeCircuit) : EdgeCircuit :=
  if edge.payedToSend ≤ (edge.windowsAt layer).packageWindow then edge
  else if (edge.windowsAt layer).packageWindow ≤ 0 then edge
  else resumeStreams closeUnpaid layer (List.range edge.streams.length) edge

def sendmeLoop (closeUnpaid : Bool) (layer : Nat) : Nat → EdgeCircuit → EdgeCircuit
  | 0, edge => edge
  | fuel + 1, edge =>
    if (edge.windowsAt layer).deliverWindow < CIRCWINDOW_START - CIRCWINDOW_INCREMENT then
      let edge := edge.modifyLayer layer fun windows =>
        { windows with deliverWindow := windows.deliverWindow + CIRCWINDOW_INCREMENT }
      match edge.relaySendCommandFromEdge closeUnpaid layer { command := .sendme, streamId := 0 } with
      | (edge, result) => if result < 0 then edge else sendmeLoop closeUnpaid layer fuel edge
    else edge

/-- `circuit_consider_sending_sendme`. The window grows in each round of the loop. -/
def considerSendingSendme (closeUnpaid : Bool) (layer : Nat) (edge : EdgeCircuit) : EdgeCircuit :=
  if edge.payedToReceive ≤ (edge.windowsAt layer).deliverWindow then edge
  else sendmeLoop closeUnpaid layer (CIRCWINDOW_START - (edge.windowsAt layer).deliverWindow).toNat edge

def streamSendmeLoop (closeUnpaid : Bool) (j : Nat) : Nat → EdgeCircuit → EdgeCircuit
  | 0, edge => edge
  | fuel + 1, edge =>
    match edge.streams[j]? with
    | none => edge
    | some conn =>
      if conn.deliverWindow < STREAMWINDOW_START - STREAMWINDOW_INCREMENT then
        let edge := edge.modifyStream j fun conn =>
          { conn with deliverWindow := conn.deliverWindow + STREAMWINDOW_INCREMENT }
        match edge.connectionEdgeSendCommand closeUnpaid j .sendme with
        | (edge, result) => if result < 0 then edge else streamSendmeLoop closeUnpaid j fuel edge
      else edge

/-- `connection_edge_consider_sending_sendme`. A stream that was destroyed has no circuit. -/
def edgeConsiderSendingSendme (closeUnpaid outbufTooFull : Bool) (j : Nat) (edge : EdgeCircuit) : EdgeCircuit :=
  match edge.streams[j]? with
  | none => edge
  | some conn =>
    if outbufTooFull ∨ conn.markedForClose then edge
    else streamSendmeLoop closeUnpaid j (STREAMWINDOW_START - conn.deliverWindow).toNat edge

/-- `connection_edge_end` and `connection_mark_for_close`. -/
def endStream (closeUnpaid : Bool) (j : Nat) (edge : EdgeCircuit) : EdgeCircuit :=
  (edge.connectionEdgeSendCommand closeUnpaid j .other).1.modifyStream j fun conn =>
    { conn with markedForClose := true }

/-- `relay_lookup_conn`. -/
def relayLookupConn (layer streamId : Nat) (edge : EdgeCircuit) : Option Nat :=
  if streamId = 0 then none
  else edge.streams.findIdx? fun conn =>
    conn.streamId = streamId ∧ conn.markedForClose = false ∧ conn.cpathLayer = layer

/-- The case of DATA in `connection_edge_process_relay_cell`. -/
def processData (closeUnpaid outbufTooFull : Bool) (layer : Nat) (conn : Option Nat) (edge : EdgeCircuit) :
    EdgeCircuit × Int :=
  let edge := edge.modifyLayer layer fun windows => { windows with deliverWindow := windows.deliverWindow - 1 }
  if (edge.windowsAt layer).deliverWindow < 0 then
    let edge := edge.modifyLayer layer fun windows => { windows with deliverWindow := 0 }
    let edge := { edge with faults := edge.faults ++ [layer] }
    match conn with
    | none => (edge, -END_CIRC_REASON_TORPROTOCOL)
    | some j => (edge.endStream closeUnpaid j, -END_CIRC_REASON_TORPROTOCOL)
  else
    let edge := edge.considerSendingSendme closeUnpaid layer
    match conn with
    | none => (edge, 0)
    | some j =>
      let edge := edge.modifyStream j fun conn => { conn with deliverWindow := conn.deliverWindow - 1 }
      if edge.streams[j]?.any fun conn => conn.deliverWindow < 0 then (edge, -END_CIRC_REASON_TORPROTOCOL)
      else (edge.edgeConsiderSendingSendme closeUnpaid outbufTooFull j, 0)

/-- The case of SENDME; a cell for no stream that is known is one for the circuit. -/
def processSendme (closeUnpaid : Bool) (layer : Nat) (conn : Option Nat) (edge : EdgeCircuit) : EdgeCircuit :=
  match conn with
  | none =>
    let edge := edge.modifyLayer layer fun windows =>
      { windows with packageWindow := windows.packageWindow + CIRCWINDOW_INCREMENT }
    edge.resumeEdgeReading closeUnpaid layer
  | some j =>
    let edge := edge.modifyStream j fun conn =>
      { conn with packageWindow := conn.packageWindow + STREAMWINDOW_INCREMENT }
    (edge.startReading j).packageRawInbuf closeUnpaid true j

/-- `connection_edge_process_relay_cell`. -/
def processRelayCell (closeUnpaid outbufTooFull : Bool) (layer : Nat) (cell : RelayCell) (edge : EdgeCircuit) :
    EdgeCircuit × Int :=
  let conn := edge.relayLookupConn layer cell.streamId
  match cell.command with
  | .data => edge.processData closeUnpaid outbufTooFull layer conn
  | .sendme => (edge.processSendme closeUnpaid layer conn, 0)
  | .other => (edge, 0)

/-- The direction of the cells that come to this end. -/
def receiveDirection (edge : EdgeCircuit) : CellDirection := if edge.circ.isOrigin then .inward else .outward

/-- A cell that is recognized at this end: `circuit_receive_relay_cell` and the end of
`command_process_relay_cell`. -/
def receiveRelayCell (closeUnpaid outbufTooFull : Bool) (layer : Nat) (cell : RelayCell) (edge : EdgeCircuit) :
    EdgeCircuit :=
  if edge.circ.markedForClose.isSome then edge
  else
    let circ := edge.circ.charge closeUnpaid edge.receiveDirection
    if circ.Unpaid then
      edge.putCircuit ((circ.record (.refused edge.receiveDirection)).markForClose END_CIRC_REASON_UNPAID)
    else
      match (edge.putCircuit (circ.record (.delivered edge.receiveDirection))).processRelayCell closeUnpaid
        outbufTooFull layer cell with
      | (edge, reason) => if reason < 0 then edge.putCircuit (edge.circ.markForClose (-reason)) else edge

/-- A cell of another end that is passed on along the circuit. -/
def passRelayCell (closeUnpaid : Bool) (direction : CellDirection) (edge : EdgeCircuit) : EdgeCircuit :=
  let circ := edge.circ.charge closeUnpaid direction
  if circ.Unpaid then
    edge.putCircuit ((circ.record (.refused direction)).markForClose END_CIRC_REASON_UNPAID)
  else edge.putCircuit (circ.record (.forwarded direction))

/-- The hop before a hop of a circular path. -/
def prevLayer (edge : EdgeCircuit) (layer : Nat) : Nat := (layer + edge.layers.length - 1) % edge.layers.length

/-- What ADDTOKENS does at a layer. -/
def resumeLayer (closeUnpaid : Bool) (layer : Nat) (edge : EdgeCircuit) : EdgeCircuit :=
  (edge.considerSendingSendme closeUnpaid layer).resumeEdgeReading closeUnpaid layer

/-- The loop of ADDTOKENS, from the farthest to the nearest hop, in so many rounds. -/
def resumeLayers (closeUnpaid : Bool) (rounds : Nat) (edge : EdgeCircuit) : Option EdgeCircuit :=
  if edge.circ.isOrigin then
    doWhile (resumeLayer closeUnpaid) edge.prevLayer (edge.prevLayer 0) rounds (edge.prevLayer 0) edge
  else some (edge.resumeLayer closeUnpaid 0)

/-- What `handle_control_addtokens` does to the circuit that it found. -/
def addtokens (closeUnpaid : Bool) (numReadCells numWriteCells : Int) (edge : EdgeCircuit) : Option EdgeCircuit :=
  if numReadCells < 0 then some (edge.putCircuit (edge.circ.markForClose END_CIRC_REASON_UNPAID))
  else if numReadCells = 0 then some edge
  else (edge.putCircuit (edge.circ.granted numReadCells numWriteCells)).resumeLayers closeUnpaid edge.layers.length

/-- A new stream is put at the head of the list, with full windows. -/
def attachStream (streamId layer : Nat) (numbered : streamId ≠ 0) (edge : EdgeCircuit) : EdgeCircuit :=
  { edge with streams :=
      { streamId, numbered, cpathLayer := layer, packageWindow := STREAMWINDOW_START, deliverWindow := STREAMWINDOW_START,
        inbuf := 0, reading := true, markedForClose := false } :: edge.streams }

end EdgeCircuit

/-- What happens at an end of a circuit. -/
inductive EdgeAction where
  | read (j bytes : Nat)
  | flushed (outbufTooFull : Bool) (j : Nat)
  | receive (outbufTooFull : Bool) (layer : Nat) (cell : RelayCell)
  | addtokens (numReadCells numWriteCells : Int)
  | send (layer streamId : Nat)
  | pass (direction : CellDirection)
  | attach (streamId layer : Nat)
  | endStream (j : Nat)
  | close (reason : Int)

namespace EdgeCircuit

def conn? (j : Nat) (edge : EdgeCircuit) : Option EdgeConnection :=
  edge.streams[j]?.filter fun conn => conn.markedForClose = false

/-- One action, if it can happen. No command and no other part of Tor finds a circuit that is marked
for close. -/
def step (closeUnpaid : Bool) (edge : EdgeCircuit) : EdgeAction → Option EdgeCircuit
  | .read j bytes =>
    if (edge.conn? j).any fun conn => conn.reading then
      some ((edge.modifyStream j fun conn => { conn with inbuf := conn.inbuf + bytes }).packageRawInbuf closeUnpaid
        true j)
    else none
  | .flushed outbufTooFull j => some (edge.edgeConsiderSendingSendme closeUnpaid outbufTooFull j)
  | .receive outbufTooFull layer cell =>
    if layer < edge.layers.length then some (edge.receiveRelayCell closeUnpaid outbufTooFull layer cell) else none
  | .addtokens numReadCells numWriteCells =>
    if edge.circ.markedForClose = none then edge.addtokens closeUnpaid numReadCells numWriteCells else none
  | .send layer streamId =>
    if edge.circ.markedForClose = none ∧ layer < edge.layers.length then
      some (edge.relaySendCommandFromEdge closeUnpaid layer { command := .other, streamId }).1
    else none
  | .pass direction =>
    if edge.circ.markedForClose = none then some (edge.passRelayCell closeUnpaid direction) else none
  | .attach streamId layer =>
    if h : edge.circ.markedForClose = none ∧ layer < edge.layers.length ∧ streamId ≠ 0 then
      some (edge.attachStream streamId layer h.2.2)
    else none
  | .endStream j => if (edge.conn? j).isSome then some (edge.endStream closeUnpaid j) else none
  | .close reason => some (edge.putCircuit (edge.circ.markForClose reason))

end EdgeCircuit

/-! ### The loop along the path -/

/-- A loop along a circle visits each place of it once, the last one first. -/
theorem doWhile_circle {σ : Type} (body : Nat → σ → σ) (n rounds : Nat) (hn : 0 < n) (hrounds : n ≤ rounds) (s : σ) :
    doWhile body (fun k => (k + n - 1) % n) (n - 1) rounds (n - 1) s =
      some ((List.range n).reverse.foldl (fun s k => body k s) s) := by
  -- From `k` on, the places `k`, ..., 0 are left.
  have hfrom : ∀ (k rounds : Nat) (s : σ), k < n → k < rounds →
      doWhile body (fun k => (k + n - 1) % n) (n - 1) rounds k s =
        some ((List.range (k + 1)).reverse.foldl (fun s k => body k s) s) := by
    intro k
    induction k with
    | zero =>
      intro rounds s hk hleft
      obtain ⟨rest, rfl⟩ : ∃ rest, rounds = rest + 1 := ⟨rounds - 1, by omega⟩
      have hprev : (0 + n - 1) % n = n - 1 := by
        rw [Nat.zero_add]
        exact Nat.mod_eq_of_lt (by omega)
      rw [doWhile, if_pos hprev]
      simp
    | succ k ih =>
      intro rounds s hk hleft
      obtain ⟨rest, rfl⟩ : ∃ rest, rounds = rest + 1 := ⟨rounds - 1, by omega⟩
      have hprev : (k + 1 + n - 1) % n = k := by
        rw [show k + 1 + n - 1 = k + n by omega, Nat.add_mod_right]
        exact Nat.mod_eq_of_lt (by omega)
      rw [doWhile, if_neg (by omega), hprev, ih rest _ (by omega) (by omega), List.range_succ (n := k + 1)]
      simp
  rw [hfrom (n - 1) rounds s (by omega) (by omega), show n - 1 + 1 = n by omega]

/-! ### The moves of an end -/

namespace EdgeCircuit

/-- The other circuit has no more tokens, and does not come back once it is closed. -/
structure Spent (closeUnpaid : Bool) (circ after : Circuit) : Prop where
  isOrigin : after.isOrigin = circ.isOrigin
  nConn : after.nConn = circ.nConn
  reads : after.payedReads ≤ circ.payedReads
  writes : after.payedWrites ≤ circ.payedWrites
  untracked : closeUnpaid = false → after.SameCounters circ
  closed : circ.markedForClose ≠ none → after.markedForClose ≠ none

/-- A stream that may read goes on reading, and one that comes to have a window begins to. -/
structure Eased (conn after : EdgeConnection) : Prop where
  cpathLayer : after.cpathLayer = conn.cpathLayer
  closed : conn.markedForClose = true → after.markedForClose = true
  reading : after.markedForClose = false → 0 < after.packageWindow →
    (0 < conn.packageWindow → conn.reading = true) → after.reading = true

/-- A data cell with the decrement that follows it, where it could be sent. -/
def sendData (closeUnpaid : Bool) (layer streamId : Nat) (edge : EdgeCircuit) : EdgeCircuit :=
  match edge.relaySendCommandFromEdge closeUnpaid layer { command := .data, streamId } with
  | (edge, result) => if result < 0 then edge else edge.packaged layer

/-- A round of the loop for SENDMEs. -/
def sendSendme (closeUnpaid : Bool) (layer : Nat) (edge : EdgeCircuit) : EdgeCircuit × Int :=
  (edge.modifyLayer layer fun windows =>
    { windows with deliverWindow := windows.deliverWindow + CIRCWINDOW_INCREMENT }).relaySendCommandFromEdge
    closeUnpaid layer { command := .sendme, streamId := 0 }

/-- What an end of a circuit does by itself. -/
inductive Moves (closeUnpaid : Bool) : EdgeCircuit → EdgeCircuit → Prop where
  | refl (edge : EdgeCircuit) : Moves closeUnpaid edge edge
  | trans {edge middle after : EdgeCircuit} :
      Moves closeUnpaid edge middle → Moves closeUnpaid middle after → Moves closeUnpaid edge after
  | stop (edge : EdgeCircuit) (layer : Nat) : Moves closeUnpaid edge (edge.considerStopEdgeReading layer)
  | stream (edge : EdgeCircuit) (j : Nat) (f : EdgeConnection → EdgeConnection)
      (eased : ∀ conn, edge.streams[j]? = some conn → Eased conn (f conn)) :
      Moves closeUnpaid edge (edge.modifyStream j f)
  | circuit (edge : EdgeCircuit) (circ : Circuit) (spent : Spent closeUnpaid edge.circ circ) :
      Moves closeUnpaid edge (edge.putCircuit circ)
  | send (edge : EdgeCircuit) (layer : Nat) (cell : RelayCell)
      (plain : cell.command = .other ∨ cell.command = .sendme ∧ cell.streamId ≠ 0) :
      Moves closeUnpaid edge (edge.relaySendCommandFromEdge closeUnpaid layer cell).1
  | sendme (edge : EdgeCircuit) (layer : Nat)
      (low : (edge.windowsAt layer).deliverWindow < CIRCWINDOW_START - CIRCWINDOW_INCREMENT) :
      Moves closeUnpaid edge (edge.sendSendme closeUnpaid layer).1
  | data (edge : EdgeCircuit) (layer streamId : Nat) (positive : 0 < (edge.windowsAt layer).packageWindow) :
      Moves closeUnpaid edge (edge.sendData closeUnpaid layer streamId)

/-! ### What the functions do is made of moves -/

section
variable (closeUnpaid : Bool) {edge : EdgeCircuit} {layer j : Nat}

theorem Spent.refl (circ : Circuit) : Spent closeUnpaid circ circ :=
  ⟨rfl, rfl, le_rfl, le_rfl, fun _ => ⟨rfl, rfl, rfl, rfl⟩, id⟩

theorem Spent.trans {closeUnpaid : Bool} {circ middle after : Circuit} (h : Spent closeUnpaid circ middle)
    (h' : Spent closeUnpaid middle after) : Spent closeUnpaid circ after where
  isOrigin := h'.isOrigin.trans h.isOrigin
  nConn := h'.nConn.trans h.nConn
  reads := h'.reads.trans h.reads
  writes := h'.writes.trans h.writes
  untracked := fun hfree => (h'.untracked hfree).trans (h.untracked hfree)
  closed := fun hclosed => h'.closed (h.closed hclosed)

theorem spent_charge (direction : CellDirection) (circ : Circuit) :
    Spent closeUnpaid circ (circ.charge closeUnpaid direction) := by
  unfold Circuit.charge
  split
  · rename_i htracked
    have hfree : closeUnpaid = false → False := by simp [htracked]
    cases direction with
    | inward => exact ⟨rfl, rfl, by dsimp only; omega, le_rfl, fun h => (hfree h).elim, id⟩
    | outward => exact ⟨rfl, rfl, le_rfl, by dsimp only; omega, fun h => (hfree h).elim, id⟩
  · exact .refl closeUnpaid circ

theorem spent_record (circ : Circuit) (event : Event) : Spent closeUnpaid circ (circ.record event) :=
  ⟨rfl, rfl, le_rfl, le_rfl, fun _ => ⟨rfl, rfl, rfl, rfl⟩, id⟩

theorem spent_markForClose (circ : Circuit) (reason : Int) : Spent closeUnpaid circ (circ.markForClose reason) := by
  unfold Circuit.markForClose
  split
  · exact .refl closeUnpaid circ
  · exact ⟨rfl, rfl, le_rfl, le_rfl, fun _ => ⟨rfl, rfl, rfl, rfl⟩, fun _ => nofun⟩

theorem eased_of_reading {conn after : EdgeConnection} (hlayer : after.cpathLayer = conn.cpathLayer)
    (hclosed : conn.markedForClose = true → after.markedForClose = true) (hreading : after.reading = true) :
    Eased conn after :=
  ⟨hlayer, hclosed, fun _ _ _ => hreading⟩

/-- The direction of the cells that this end sends. -/
def sendDirection (edge : EdgeCircuit) : CellDirection := if edge.circ.isOrigin then .outward else .inward

/-- What sending a cell makes of the circuit: it is refused, and the circuit is closed, or not. -/
structure SendResult (closeUnpaid : Bool) (edge : EdgeCircuit) (circ : Circuit) (result : Int) : Prop where
  spent : Spent closeUnpaid edge.circ circ
  counters : circ.SameCounters (edge.circ.charge closeUnpaid edge.sendDirection)
  outcome : result = -1 ∧ circ.markedForClose ≠ none ∨
    result = 0 ∧ circ.markedForClose = edge.circ.markedForClose

theorem markForClose_ne_none (circ : Circuit) (reason : Int) : (circ.markForClose reason).markedForClose ≠ none :=
  Option.isSome_iff_ne_none.mp (Circuit.markForClose_isSome circ reason)

theorem packageRelayCell_spent (direction : CellDirection) (circ : Circuit) :
    Spent closeUnpaid circ (circ.packageRelayCell true direction).1 ∧ (circ.packageRelayCell true direction).2 = 0 ∧
      (circ.packageRelayCell true direction).1.markedForClose = circ.markedForClose := by
  unfold Circuit.packageRelayCell
  cases direction with
  | outward =>
    dsimp only
    split
    · exact ⟨.refl closeUnpaid circ, rfl, rfl⟩
    · exact ⟨spent_record closeUnpaid circ _, rfl, rfl⟩
  | inward =>
    dsimp only
    split
    · exact ⟨.refl closeUnpaid circ, rfl, rfl⟩
    · exact ⟨spent_record closeUnpaid circ _, rfl, rfl⟩

theorem sendResult (edge : EdgeCircuit) :
    SendResult closeUnpaid edge (edge.circ.relaySendCommandFromEdge closeUnpaid edge.circ.isOrigin true).1
      (edge.circ.relaySendCommandFromEdge closeUnpaid edge.circ.isOrigin true).2 := by
  have hsend : edge.circ.relaySendCommandFromEdge closeUnpaid edge.circ.isOrigin true =
      edge.circ.sendFromEdge closeUnpaid true edge.sendDirection := by
    unfold Circuit.relaySendCommandFromEdge sendDirection
    cases edge.circ.isOrigin with
    | true => rfl
    | false => rfl
  rw [hsend]
  have hcounters := Circuit.sendFromEdge_sameCounters closeUnpaid true edge.sendDirection edge.circ
  have hcharge := spent_charge closeUnpaid edge.sendDirection edge.circ
  obtain ⟨hpackage, hzero, hopen⟩ :=
    packageRelayCell_spent closeUnpaid edge.sendDirection (edge.circ.charge closeUnpaid edge.sendDirection)
  by_cases hunpaid : (edge.circ.charge closeUnpaid edge.sendDirection).Unpaid
  · have hresult : edge.circ.sendFromEdge closeUnpaid true edge.sendDirection =
        (((edge.circ.charge closeUnpaid edge.sendDirection).record (.refused edge.sendDirection)).markForClose
          END_CIRC_REASON_UNPAID, -1) := by
      rw [Circuit.sendFromEdge]
      exact if_pos hunpaid
    rw [hresult] at hcounters ⊢
    exact ⟨(hcharge.trans (spent_record closeUnpaid _ _)).trans (spent_markForClose closeUnpaid _ _), hcounters,
      Or.inl ⟨rfl, markForClose_ne_none _ _⟩⟩
  · have hresult : edge.circ.sendFromEdge closeUnpaid true edge.sendDirection =
        (((edge.circ.charge closeUnpaid edge.sendDirection).packageRelayCell true edge.sendDirection).1, 0) := by
      rw [Circuit.sendFromEdge]
      dsimp only
      rw [if_neg hunpaid, hzero, if_neg (by decide)]
    rw [hresult] at hcounters ⊢
    have hsame : (edge.circ.charge closeUnpaid edge.sendDirection).markedForClose = edge.circ.markedForClose := by
      unfold Circuit.charge
      split
      · split
        · rfl
        · rfl
      · rfl
    exact ⟨hcharge.trans hpackage, hcounters, Or.inr ⟨rfl, hopen.trans hsame⟩⟩

theorem putCircuit_of_same {circ : Circuit} (h : circ.markedForClose = edge.circ.markedForClose) :
    edge.putCircuit circ = { edge with circ := circ } := by
  unfold putCircuit
  rw [if_neg]
  rintro ⟨hopen, hclosed⟩
  exact hclosed (h.trans hopen)

/-- A cell is refused and the circuit is closed, or it is put in the queue. -/
theorem relaySend_cases (edge : EdgeCircuit) (layer : Nat) (cell : RelayCell) :
    ∃ circ, Spent closeUnpaid edge.circ circ ∧ circ.SameCounters (edge.circ.charge closeUnpaid edge.sendDirection) ∧
      (circ.markedForClose ≠ none ∧
          edge.relaySendCommandFromEdge closeUnpaid layer cell = (edge.putCircuit circ, -1) ∨
        circ.markedForClose = edge.circ.markedForClose ∧
          edge.relaySendCommandFromEdge closeUnpaid layer cell =
            ({ edge with
                circ := circ
                cellQueue := edge.cellQueue ++ if Cut circ then [] else [(layer, cell)] }, 0)) := by
  obtain ⟨hspent, hcounters, houtcome⟩ := sendResult closeUnpaid edge
  refine ⟨_, hspent, hcounters, ?_⟩
  unfold relaySendCommandFromEdge
  generalize edge.circ.relaySendCommandFromEdge closeUnpaid edge.circ.isOrigin true = sent at hspent hcounters houtcome ⊢
  obtain ⟨circ, result⟩ := sent
  rcases houtcome with ⟨hresult, hclosed⟩ | ⟨hresult, hsame⟩
  · refine Or.inl ⟨hclosed, ?_⟩
    dsimp only at hresult ⊢
    rw [if_pos (Or.inl (by omega)), hresult]
  · refine Or.inr ⟨hsame, ?_⟩
    dsimp only at hresult hsame ⊢
    rw [putCircuit_of_same hsame, hresult]
    by_cases hcut : Cut circ
    · rw [if_pos (Or.inr hcut), if_pos hcut, List.append_nil]
    · have hput : ¬((0 : Int) < 0 ∨ Cut circ) := by
        rintro (h | h)
        · exact absurd h (by decide)
        · exact hcut h
      rw [if_neg hput, if_neg hcut]

theorem moves_startReading (edge : EdgeCircuit) (j : Nat) : Moves closeUnpaid edge (edge.startReading j) :=
  .stream edge j _ fun _ _ => eased_of_reading rfl id rfl

theorem moves_stopReading (h : ∀ conn, edge.streams[j]? = some conn → conn.packageWindow ≤ 0) :
    Moves closeUnpaid edge (edge.stopReading j) :=
  .stream edge j _ fun conn hconn => ⟨rfl, id, fun _ hpositive => absurd hpositive (by
    have hempty := h conn hconn
    dsimp only
    omega)⟩

theorem moves_connectionEdgeSendCommand (edge : EdgeCircuit) (j : Nat) {command : RelayCommand}
    (hcommand : command ≠ .data) :
    Moves closeUnpaid edge (edge.connectionEdgeSendCommand closeUnpaid j command).1 := by
  unfold connectionEdgeSendCommand
  split
  · exact .refl edge
  · rename_i conn _
    split
    · exact .refl edge
    · refine .send edge conn.cpathLayer _ ?_
      cases command with
      | data => exact absurd rfl hcommand
      | sendme => exact Or.inr ⟨rfl, conn.numbered⟩
      | other => exact Or.inl rfl

@[simp] theorem modifyStream_at (edge : EdgeCircuit) (j : Nat) (f : EdgeConnection → EdgeConnection) :
    (edge.modifyStream j f).streams[j]? = edge.streams[j]?.map f := by
  simp [modifyStream]

theorem connectionEdgeSendCommand_open {conn : EdgeConnection} (hconn : edge.streams[j]? = some conn)
    (hopen : conn.markedForClose = false) (command : RelayCommand) :
    edge.connectionEdgeSendCommand closeUnpaid j command =
      edge.relaySendCommandFromEdge closeUnpaid conn.cpathLayer { command, streamId := conn.streamId } := by
  unfold connectionEdgeSendCommand
  rw [hconn]
  dsimp only
  rw [hopen]
  rfl

theorem packaged_of_positive (h : 0 < (edge.windowsAt layer).packageWindow) :
    edge.packaged layer = edge.modifyLayer layer fun windows =>
      { windows with packageWindow := windows.packageWindow - 1 } := by
  unfold packaged
  rw [if_pos h]

theorem packaged_streams (layer : Nat) (edge : EdgeCircuit) : (edge.packaged layer).streams = edge.streams := by
  unfold packaged
  dsimp only
  split
  · rfl
  · rfl

/-- The stream is there and not marked for close. -/
def Open (j : Nat) (edge : EdgeCircuit) : Prop :=
  ∃ conn, edge.streams[j]? = some conn ∧ conn.markedForClose = false

theorem Open.modifyStream {f : EdgeConnection → EdgeConnection} (h : edge.Open j)
    (hf : ∀ conn, conn.markedForClose = false → (f conn).markedForClose = false) : (edge.modifyStream j f).Open j := by
  obtain ⟨conn, hconn, hopen⟩ := h
  exact ⟨f conn, by rw [modifyStream_at, hconn, Option.map_some], hf conn hopen⟩

/-- A round of the loop for data is made of moves, and before another one the stream is still open. -/
theorem moves_packageCell (packagePartial : Bool) (h : edge.Open j) :
    Moves closeUnpaid edge (edge.packageCell closeUnpaid packagePartial j).1 ∧
      ((edge.packageCell closeUnpaid packagePartial j).2 = true →
        (edge.packageCell closeUnpaid packagePartial j).1.Open j) := by
  obtain ⟨conn, hconn, hopen⟩ := h
  unfold packageCell
  rw [hconn]
  dsimp only
  split
  · exact ⟨.stop edge _, nofun⟩
  rename_i hgoing
  split
  · rename_i hempty
    refine ⟨moves_stopReading closeUnpaid fun other hother => ?_, nofun⟩
    obtain rfl : conn = other := Option.some.inj (hconn.symm.trans hother)
    exact hempty
  split
  · exact ⟨.refl edge, nofun⟩
  -- The bytes leave the buffer before the cell is sent.
  generalize hfetched : (edge.modifyStream j fun conn =>
    { conn with inbuf := conn.inbuf - min conn.inbuf RELAY_PAYLOAD_SIZE }) = fetched
  have hfetch : Moves closeUnpaid edge fetched := by
    rw [← hfetched]
    exact .stream edge j _ fun other _ => ⟨rfl, id, fun _ hpositive hreading => hreading hpositive⟩
  have hwindows : fetched.windowsAt conn.cpathLayer = edge.windowsAt conn.cpathLayer := by
    rw [← hfetched]
    rfl
  obtain ⟨taken, htaken, hlayer, hpackage, hstill⟩ : ∃ taken, fetched.streams[j]? = some taken ∧
      taken.cpathLayer = conn.cpathLayer ∧ taken.packageWindow = conn.packageWindow ∧
        taken.markedForClose = false := by
    refine ⟨{ conn with inbuf := conn.inbuf - min conn.inbuf RELAY_PAYLOAD_SIZE }, ?_, rfl, rfl, hopen⟩
    rw [← hfetched, modifyStream_at, hconn, Option.map_some]
  have hpositive : 0 < (fetched.windowsAt conn.cpathLayer).packageWindow := by
    rw [hwindows]
    by_contra hno
    exact hgoing (Or.inl (by omega))
  have hdata : Moves closeUnpaid fetched (fetched.sendData closeUnpaid conn.cpathLayer taken.streamId) :=
    .data fetched _ _ hpositive
  rw [connectionEdgeSendCommand_open closeUnpaid htaken hstill, hlayer]
  unfold sendData at hdata
  obtain ⟨circ, -, -, ⟨-, hsend⟩ | ⟨hsame, hsend⟩⟩ :=
    relaySend_cases closeUnpaid fetched conn.cpathLayer { command := .data, streamId := taken.streamId }
  · rw [hsend] at hdata ⊢
    exact ⟨hfetch.trans hdata, nofun⟩
  rw [hsend] at hdata ⊢
  dsimp only at hdata ⊢
  rw [if_neg (by decide)] at hdata ⊢
  generalize hsent : packaged conn.cpathLayer _ = sent at hdata ⊢
  have hstreams : sent.streams = fetched.streams := by
    rw [← hsent, packaged_streams]
  generalize hcounted : (sent.modifyStream j fun conn => { conn with packageWindow := conn.packageWindow - 1 }) = counted
  have hcount : Moves closeUnpaid sent counted := by
    rw [← hcounted]
    refine .stream sent j _ fun other _ => ⟨rfl, id, fun _ hpositive hreading => hreading ?_⟩
    dsimp only at hpositive
    omega
  have hat : counted.streams[j]? = some { taken with packageWindow := taken.packageWindow - 1 } := by
    rw [← hcounted, modifyStream_at, hstreams, htaken, Option.map_some]
  have hmoves := (hfetch.trans hdata).trans hcount
  split
  · rename_i hempty
    refine ⟨(hmoves.trans (moves_stopReading closeUnpaid fun other hother => ?_)).trans (.stop _ _), nofun⟩
    obtain rfl : { taken with packageWindow := taken.packageWindow - 1 } = other :=
      Option.some.inj (hat.symm.trans hother)
    dsimp only
    omega
  · exact ⟨hmoves, fun _ => ⟨_, hat, hstill⟩⟩

theorem moves_packageLoop (packagePartial : Bool) (fuel : Nat) (h : edge.Open j) :
    Moves closeUnpaid edge (packageLoop closeUnpaid packagePartial j fuel edge) := by
  induction fuel generalizing edge with
  | zero => exact .refl edge
  | succ fuel ih =>
    have hround := moves_packageCell closeUnpaid packagePartial h
    rw [packageLoop]
    split
    · rename_i after hagain
      rw [hagain] at hround
      exact hround.1.trans (ih (hround.2 rfl))
    · rename_i after hend
      rw [hend] at hround
      exact hround.1

theorem moves_packageRawInbuf (packagePartial : Bool) (j : Nat) (edge : EdgeCircuit) :
    Moves closeUnpaid edge (edge.packageRawInbuf closeUnpaid packagePartial j) := by
  unfold packageRawInbuf
  cases hconn : edge.streams[j]? with
  | none => exact .refl edge
  | some conn =>
    dsimp only
    split
    · exact .refl edge
    · rename_i hopen
      exact moves_packageLoop closeUnpaid packagePartial _ ⟨conn, hconn, by simpa using hopen⟩

theorem moves_resumeStreams (layer : Nat) (js : List Nat) (edge : EdgeCircuit) :
    Moves closeUnpaid edge (resumeStreams closeUnpaid layer js edge) := by
  induction js generalizing edge with
  | nil => exact .refl edge
  | cons j js ih =>
    rw [resumeStreams]
    split
    · exact ih edge
    · split
      · have hpackage := (moves_startReading closeUnpaid edge j).trans
          (moves_packageRawInbuf closeUnpaid true j (edge.startReading j))
        dsimp only
        split
        · exact hpackage.trans (.stop _ layer)
        · exact hpackage.trans (ih _)
      · exact ih edge

theorem moves_resumeEdgeReading (layer : Nat) (edge : EdgeCircuit) :
    Moves closeUnpaid edge (edge.resumeEdgeReading closeUnpaid layer) := by
  unfold resumeEdgeReading
  split
  · exact .refl edge
  · split
    · exact .refl edge
    · exact moves_resumeStreams closeUnpaid layer _ edge

theorem moves_streamSendmeLoop (j fuel : Nat) (edge : EdgeCircuit) :
    Moves closeUnpaid edge (edge.streamSendmeLoop closeUnpaid j fuel) := by
  induction fuel generalizing edge with
  | zero => exact .refl edge
  | succ fuel ih =>
    rw [streamSendmeLoop]
    split
    · exact .refl edge
    · split
      · dsimp only
        generalize hgrown : (edge.modifyStream j fun conn =>
          { conn with deliverWindow := conn.deliverWindow + STREAMWINDOW_INCREMENT }) = grown
        have hgrow : Moves closeUnpaid edge grown := by
          rw [← hgrown]
          exact .stream edge j _ fun _ _ => ⟨rfl, id, fun _ hpositive hreading => hreading hpositive⟩
        have hsendme : RelayCommand.sendme ≠ .data := nofun
        have hsend := moves_connectionEdgeSendCommand closeUnpaid grown j hsendme
        split
        · exact hgrow.trans hsend
        · exact (hgrow.trans hsend).trans (ih _)
      · exact .refl edge

theorem moves_edgeConsiderSendingSendme (outbufTooFull : Bool) (j : Nat) (edge : EdgeCircuit) :
    Moves closeUnpaid edge (edge.edgeConsiderSendingSendme closeUnpaid outbufTooFull j) := by
  unfold edgeConsiderSendingSendme
  split
  · exact .refl edge
  · split
    · exact .refl edge
    · exact moves_streamSendmeLoop closeUnpaid j _ edge

theorem moves_endStream (j : Nat) (edge : EdgeCircuit) : Moves closeUnpaid edge (edge.endStream closeUnpaid j) := by
  have hother : RelayCommand.other ≠ .data := nofun
  refine (moves_connectionEdgeSendCommand closeUnpaid edge j hother).trans (.stream _ j _ fun _ _ => ?_)
  exact ⟨rfl, fun _ => rfl, nofun⟩

theorem moves_passRelayCell (direction : CellDirection) (edge : EdgeCircuit) :
    Moves closeUnpaid edge (edge.passRelayCell closeUnpaid direction) := by
  have hcharge := spent_charge closeUnpaid direction edge.circ
  unfold passRelayCell
  dsimp only
  split
  · exact .circuit edge _ ((hcharge.trans (spent_record closeUnpaid _ _)).trans (spent_markForClose closeUnpaid _ _))
  · exact .circuit edge _ (hcharge.trans (spent_record closeUnpaid _ _))

theorem sendmeLoop_succ (layer fuel : Nat) (edge : EdgeCircuit) :
    edge.sendmeLoop closeUnpaid layer (fuel + 1) =
      if (edge.windowsAt layer).deliverWindow < CIRCWINDOW_START - CIRCWINDOW_INCREMENT then
        if (edge.sendSendme closeUnpaid layer).2 < 0 then (edge.sendSendme closeUnpaid layer).1
        else (edge.sendSendme closeUnpaid layer).1.sendmeLoop closeUnpaid layer fuel
      else edge := rfl

theorem moves_sendmeLoop (layer fuel : Nat) (edge : EdgeCircuit) :
    Moves closeUnpaid edge (edge.sendmeLoop closeUnpaid layer fuel) := by
  induction fuel generalizing edge with
  | zero => exact .refl edge
  | succ fuel ih =>
    rw [sendmeLoop_succ]
    split
    · rename_i hlow
      have hsent : Moves closeUnpaid edge (edge.sendSendme closeUnpaid layer).1 := .sendme edge layer hlow
      split
      · exact hsent
      · exact hsent.trans (ih _)
    · exact .refl edge

theorem moves_considerSendingSendme (layer : Nat) (edge : EdgeCircuit) :
    Moves closeUnpaid edge (edge.considerSendingSendme closeUnpaid layer) := by
  unfold considerSendingSendme
  split
  · exact .refl edge
  · exact moves_sendmeLoop closeUnpaid layer _ edge

theorem moves_resumeLayer (layer : Nat) (edge : EdgeCircuit) :
    Moves closeUnpaid edge (edge.resumeLayer closeUnpaid layer) :=
  (moves_considerSendingSendme closeUnpaid layer edge).trans (moves_resumeEdgeReading closeUnpaid layer _)

theorem windowsAt_modifyLayer (edge : EdgeCircuit) (layer other : Nat) (f : Windows → Windows)
    (h : layer < edge.layers.length) :
    (edge.modifyLayer layer f).windowsAt other =
      if other = layer then f (edge.windowsAt layer) else edge.windowsAt other := by
  unfold windowsAt modifyLayer
  rw [List.getElem?_modify]
  by_cases hsame : other = layer
  · subst hsame
    simp [h]
  · rw [if_neg hsame]
    simp [Ne.symm hsame]

theorem packageWindow_modifyLayer (edge : EdgeCircuit) (target : Nat) {f : Windows → Windows}
    (hf : ∀ windows, (f windows).packageWindow = windows.packageWindow) :
    ((edge.modifyLayer target f).windowsAt layer).packageWindow = (edge.windowsAt layer).packageWindow := by
  unfold windowsAt modifyLayer
  rw [List.getElem?_modify]
  cases edge.layers[layer]? with
  | none => rfl
  | some windows =>
    dsimp only [Option.map_eq_map, Option.map_some, Option.getD_some]
    split
    · exact hf windows
    · rfl

theorem layer_of_positive (h : 0 < (edge.windowsAt layer).packageWindow) : layer < edge.layers.length := by
  by_contra hout
  have hnone : edge.layers[layer]? = none := List.getElem?_eq_none (by omega)
  rw [windowsAt, hnone] at h
  exact absurd h (by decide)

/-- What no move changes. -/
structure SameShape (edge after : EdgeCircuit) : Prop where
  layers : after.layers.length = edge.layers.length
  isOrigin : after.circ.isOrigin = edge.circ.isOrigin
  nConn : after.circ.nConn = edge.circ.nConn

theorem SameShape.of_relaySend (edge : EdgeCircuit) (layer : Nat) (cell : RelayCell) :
    SameShape edge (edge.relaySendCommandFromEdge closeUnpaid layer cell).1 := by
  obtain ⟨circ, hspent, -, ⟨-, hsend⟩ | ⟨-, hsend⟩⟩ := relaySend_cases closeUnpaid edge layer cell
  · rw [hsend]
    exact ⟨rfl, hspent.isOrigin, hspent.nConn⟩
  · rw [hsend]
    exact ⟨rfl, hspent.isOrigin, hspent.nConn⟩

theorem modifyLayer_sameShape (edge : EdgeCircuit) (layer : Nat) (f : Windows → Windows) :
    SameShape edge (edge.modifyLayer layer f) :=
  ⟨by simp [modifyLayer], rfl, rfl⟩

theorem SameShape.trans {middle after : EdgeCircuit} (h : SameShape edge middle) (h' : SameShape middle after) :
    SameShape edge after :=
  ⟨h'.layers.trans h.layers, h'.isOrigin.trans h.isOrigin, h'.nConn.trans h.nConn⟩

theorem packaged_sameShape (edge : EdgeCircuit) (layer : Nat) : SameShape edge (edge.packaged layer) := by
  unfold packaged
  dsimp only
  split
  · exact modifyLayer_sameShape edge layer _
  · exact ⟨(modifyLayer_sameShape _ layer _).layers, rfl, rfl⟩

theorem Moves.sameShape {closeUnpaid : Bool} {after : EdgeCircuit} (h : Moves closeUnpaid edge after) :
    SameShape edge after := by
  induction h with
  | refl edge => exact ⟨rfl, rfl, rfl⟩
  | trans _ _ ih ih' => exact ih.trans ih'
  | stop edge layer =>
    unfold considerStopEdgeReading
    split
    · exact ⟨rfl, rfl, rfl⟩
    · exact ⟨rfl, rfl, rfl⟩
  | stream edge j f _ => exact ⟨rfl, rfl, rfl⟩
  | circuit edge circ spent => exact ⟨rfl, spent.isOrigin, spent.nConn⟩
  | send edge layer cell _ => exact .of_relaySend closeUnpaid edge layer cell
  | sendme edge layer _ => exact (modifyLayer_sameShape edge layer _).trans (.of_relaySend closeUnpaid _ layer _)
  | data edge layer streamId _ =>
    have hsend := SameShape.of_relaySend closeUnpaid edge layer { command := .data, streamId }
    unfold sendData
    split
    rename_i sent result heq
    rw [heq] at hsend
    split
    · exact hsend
    · exact hsend.trans (packaged_sameShape sent layer)

/-- A cell that is sent is paid from the counter of this end. -/
theorem payedToSend_charge (edge : EdgeCircuit) (queue : List (Nat × RelayCell)) {circ : Circuit}
    (hspent : Spent closeUnpaid edge.circ circ)
    (hcounters : circ.SameCounters (edge.circ.charge closeUnpaid edge.sendDirection)) :
    ({ edge with circ := circ, cellQueue := queue } : EdgeCircuit).payedToSend =
      edge.payedToSend - if closeUnpaid then 1 else 0 := by
  unfold payedToSend sendDirection at *
  dsimp only
  rw [hspent.isOrigin, hcounters.reads, hcounters.writes]
  unfold Circuit.charge
  cases closeUnpaid with
  | false => simp
  | true =>
    cases edge.circ.isOrigin with
    | true => rfl
    | false => rfl

theorem Moves.untracked {after : EdgeCircuit} (h : Moves false edge after) : after.circ.SameCounters edge.circ := by
  have hsend : ∀ (edge : EdgeCircuit) (layer : Nat) (cell : RelayCell),
      (edge.relaySendCommandFromEdge false layer cell).1.circ.SameCounters edge.circ := by
    intro edge layer cell
    obtain ⟨circ, hspent, -, ⟨-, hsend⟩ | ⟨-, hsend⟩⟩ := relaySend_cases false edge layer cell
    · rw [hsend]
      exact hspent.untracked rfl
    · rw [hsend]
      exact hspent.untracked rfl
  induction h with
  | refl edge => exact ⟨rfl, rfl, rfl, rfl⟩
  | trans _ _ ih ih' => exact ih'.trans ih
  | stop edge layer =>
    unfold considerStopEdgeReading
    split
    · exact ⟨rfl, rfl, rfl, rfl⟩
    · exact ⟨rfl, rfl, rfl, rfl⟩
  | stream edge j f _ => exact ⟨rfl, rfl, rfl, rfl⟩
  | circuit edge circ spent => exact spent.untracked rfl
  | send edge layer cell _ => exact hsend edge layer cell
  | sendme edge layer _ => exact hsend _ layer _
  | data edge layer streamId _ =>
    have hdata := hsend edge layer { command := .data, streamId }
    unfold sendData
    split
    rename_i sent result heq
    rw [heq] at hdata
    split
    · exact hdata
    · have hpackaged : (sent.packaged layer).circ = sent.circ := by
        unfold packaged
        dsimp only
        split
        · rfl
        · rfl
      rw [hpackaged]
      exact hdata

theorem moves_doWhile (prev : Nat → Nat) (last rounds k : Nat) {after : EdgeCircuit}
    (h : doWhile (resumeLayer closeUnpaid) prev last rounds k edge = some after) : Moves closeUnpaid edge after := by
  induction rounds generalizing k edge with
  | zero => cases h
  | succ rounds ih =>
    rw [doWhile] at h
    split at h
    · obtain rfl := Option.some.inj h
      exact moves_resumeLayer closeUnpaid k edge
    · exact (moves_resumeLayer closeUnpaid k edge).trans (ih _ h)

theorem moves_resumeLayers (rounds : Nat) {after : EdgeCircuit}
    (h : edge.resumeLayers closeUnpaid rounds = some after) : Moves closeUnpaid edge after := by
  unfold resumeLayers at h
  split at h
  · exact moves_doWhile closeUnpaid _ _ rounds _ h
  · obtain rfl := Option.some.inj h
    exact moves_resumeLayer closeUnpaid 0 edge

/-- ADDTOKENS visits each layer of the path of an origin circuit once. -/
theorem resumeLayers_origin {rounds : Nat} (horigin : edge.circ.isOrigin = true) (hpath : 0 < edge.layers.length)
    (hrounds : edge.layers.length ≤ rounds) :
    edge.resumeLayers closeUnpaid rounds =
      some ((List.range edge.layers.length).reverse.foldl (fun edge layer => edge.resumeLayer closeUnpaid layer) edge) := by
  have hlast : edge.prevLayer 0 = edge.layers.length - 1 := by
    unfold prevLayer
    rw [Nat.zero_add]
    exact Nat.mod_eq_of_lt (by omega)
  unfold resumeLayers
  rw [if_pos horigin, hlast]
  exact doWhile_circle (resumeLayer closeUnpaid) edge.layers.length rounds hpath hrounds edge

/-- An action is made of moves, or it is one of three that add something to the end. -/
theorem step_cases {after : EdgeCircuit} {action : EdgeAction} (h : edge.step closeUnpaid action = some after) :
    Moves closeUnpaid edge after ∨
    (∃ outbufTooFull layer cell, action = .receive outbufTooFull layer cell ∧ layer < edge.layers.length ∧
      after = edge.receiveRelayCell closeUnpaid outbufTooFull layer cell) ∨
    (∃ streamId layer numbered, action = .attach streamId layer ∧ after = edge.attachStream streamId layer numbered) ∨
    (∃ r w, action = .addtokens r w ∧ 0 < r ∧ edge.circ.markedForClose = none ∧
      (edge.putCircuit (edge.circ.granted r w)).resumeLayers closeUnpaid edge.layers.length = some after) := by
  cases action with
  | read j bytes =>
    obtain ⟨-, hafter⟩ := Option.ite_none_right_eq_some.mp h
    obtain rfl := Option.some.inj hafter
    refine Or.inl (.trans (.stream edge j _ fun _ _ => ?_) (moves_packageRawInbuf closeUnpaid true j _))
    exact ⟨rfl, id, fun _ hpositive hreading => hreading hpositive⟩
  | flushed outbufTooFull j =>
    obtain rfl := Option.some.inj h
    exact Or.inl (moves_edgeConsiderSendingSendme closeUnpaid outbufTooFull j edge)
  | receive outbufTooFull layer cell =>
    obtain ⟨hlayer, hafter⟩ := Option.ite_none_right_eq_some.mp h
    exact Or.inr (Or.inl ⟨outbufTooFull, layer, cell, rfl, hlayer, (Option.some.inj hafter).symm⟩)
  | addtokens r w =>
    obtain ⟨hopen, hafter⟩ := Option.ite_none_right_eq_some.mp h
    unfold addtokens at hafter
    split at hafter
    · obtain rfl := Option.some.inj hafter
      exact Or.inl (.circuit edge _ (spent_markForClose closeUnpaid edge.circ _))
    · split at hafter
      · obtain rfl := Option.some.inj hafter
        exact Or.inl (.refl edge)
      · exact Or.inr (Or.inr (Or.inr ⟨r, w, rfl, by omega, hopen, hafter⟩))
  | send layer streamId =>
    obtain ⟨-, hafter⟩ := Option.ite_none_right_eq_some.mp h
    obtain rfl := Option.some.inj hafter
    exact Or.inl (.send edge layer _ (Or.inl rfl))
  | pass direction =>
    obtain ⟨-, hafter⟩ := Option.ite_none_right_eq_some.mp h
    obtain rfl := Option.some.inj hafter
    exact Or.inl (moves_passRelayCell closeUnpaid direction edge)
  | attach streamId layer =>
    obtain ⟨hnew, hafter⟩ := Option.dite_none_right_eq_some.mp h
    exact Or.inr (Or.inr (Or.inl ⟨streamId, layer, hnew.2.2, rfl, (Option.some.inj hafter).symm⟩))
  | endStream j =>
    obtain ⟨-, hafter⟩ := Option.ite_none_right_eq_some.mp h
    obtain rfl := Option.some.inj hafter
    exact Or.inl (moves_endStream closeUnpaid j edge)
  | close reason =>
    obtain rfl := Option.some.inj h
    exact Or.inl (.circuit edge _ (spent_markForClose closeUnpaid edge.circ reason))

/-- A stream that gets a window starts to read. -/
theorem moves_streamSendme (j : Nat) (edge : EdgeCircuit) :
    Moves closeUnpaid edge (((edge.modifyStream j fun conn =>
      { conn with packageWindow := conn.packageWindow + STREAMWINDOW_INCREMENT }).startReading j).packageRawInbuf
        closeUnpaid true j) := by
  have hboth : ((edge.modifyStream j fun conn =>
      { conn with packageWindow := conn.packageWindow + STREAMWINDOW_INCREMENT }).startReading j) =
      edge.modifyStream j fun conn =>
        { conn with packageWindow := conn.packageWindow + STREAMWINDOW_INCREMENT, reading := true } := by
    unfold startReading modifyStream
    rw [List.modify_modify_eq]
    rfl
  rw [hboth]
  refine .trans (.stream edge j _ fun conn _ => ?_) (moves_packageRawInbuf closeUnpaid true j _)
  exact eased_of_reading rfl id rfl

theorem moves_streamDeliver (j : Nat) (edge : EdgeCircuit) :
    Moves closeUnpaid edge (edge.modifyStream j fun conn => { conn with deliverWindow := conn.deliverWindow - 1 }) :=
  .stream edge j _ fun _ _ => ⟨rfl, id, fun _ hpositive hreading => hreading hpositive⟩

theorem charge_markedForClose_eq (direction : CellDirection) (circ : Circuit) :
    (circ.charge closeUnpaid direction).markedForClose = circ.markedForClose := by
  unfold Circuit.charge
  split
  · split
    · rfl
    · rfl
  · rfl

/-- A cell is dropped at a circuit that is closed or closes, or it is processed. -/
theorem receive_cases (outbufTooFull : Bool) (layer : Nat) (cell : RelayCell) (edge : EdgeCircuit) :
    Moves closeUnpaid edge (edge.receiveRelayCell closeUnpaid outbufTooFull layer cell) ∧
        (edge.receiveRelayCell closeUnpaid outbufTooFull layer cell).circ.markedForClose ≠ none ∨
      ∃ circ, Spent closeUnpaid edge.circ circ ∧ edge.circ.markedForClose = none ∧
        edge.putCircuit circ = { edge with circ := circ } ∧
        Moves closeUnpaid ((edge.putCircuit circ).processRelayCell closeUnpaid outbufTooFull layer cell).1
          (edge.receiveRelayCell closeUnpaid outbufTooFull layer cell) := by
  have hcharge := spent_charge closeUnpaid edge.receiveDirection edge.circ
  unfold receiveRelayCell
  split
  · rename_i hclosed
    exact Or.inl ⟨.refl edge, Option.isSome_iff_ne_none.mp hclosed⟩
  rename_i hopen
  dsimp only
  split
  · refine Or.inl ⟨.circuit edge _ ((hcharge.trans (spent_record closeUnpaid _ _)).trans
      (spent_markForClose closeUnpaid _ _)), markForClose_ne_none _ _⟩
  · refine Or.inr ⟨_, hcharge.trans (spent_record closeUnpaid _ (.delivered edge.receiveDirection)),
      by simpa using hopen, putCircuit_of_same (charge_markedForClose_eq closeUnpaid _ edge.circ), ?_⟩
    split
    · exact .circuit _ _ (spent_markForClose closeUnpaid _ _)
    · exact .refl _

end

end EdgeCircuit

end BitBlinder.Innomitor
