import BitBlinder.Innomitor.Control

/-!
# The way of a payment cell

A payment cell carries a count of hops. `command_process_payment_cell` of
command.c takes one from it, and passes the cell on along its circuit or gives it
to the controller. Here cells travel along a circuit with any number of relays,
whose circuit ids are the business of each two neighbours.
-/

namespace BitBlinder.Innomitor

set_option autoImplicit false

open Struct (Bytes packBE unpackBE)

/-- What an ORCIRCUIT event is about. -/
inductive OrcircuitMessage where
  | payment (data : Bytes)
  | status (text : String)

/-- An unknown hex id is sent as 0. -/
structure OrcircuitEvent where
  message : OrcircuitMessage
  prevCircId : UInt16
  prevHexId : Option Bytes
  nextCircId : UInt16
  nextHexId : Option Bytes

/-- `control_event_orcircuit`. -/
def controlEventOrcircuit (message : OrcircuitMessage) (circ : Circuit) (direction : CellDirection) : OrcircuitEvent :=
  let pConn := if circ.isOrigin then none else circ.pConn
  match direction with
  | .outward =>
    { message
      prevCircId := circ.pCircId
      prevHexId := pConn.map OrConnection.identityDigest
      nextCircId := if circ.nConn.isSome then circ.nCircId else 0
      nextHexId := circ.nConn.map OrConnection.identityDigest }
  | .inward =>
    { message
      prevCircId := if circ.nConn.isSome then circ.nCircId else 0
      prevHexId := circ.nConn.map OrConnection.identityDigest
      nextCircId := if pConn.isSome then circ.pCircId else 0
      nextHexId := pConn.map OrConnection.identityDigest }

namespace Circuit

/-- The circuit has this id on this connection. -/
def hasPair (circId : UInt16) (conn : OrConnection) (circ : Circuit) : Bool :=
  decide (circ.isOrigin = false ∧ circ.pConn = some conn ∧ circ.pCircId = circId ∨
    circ.nConn = some conn ∧ circ.nCircId = circId)

/-- The direction of a payment cell; the connection it came from is not looked at. -/
def paymentDirection (circId : UInt16) (circ : Circuit) : CellDirection :=
  if circ.isOrigin = false ∧ circId = circ.pCircId then .outward else .inward

/-- The circuit id and the connection to pass a cell on with. -/
def nextFor (direction : CellDirection) (circ : Circuit) : Option (UInt16 × OrConnection) :=
  match direction with
  | .outward => circ.nConn.map fun conn => (circ.nCircId, conn)
  | .inward => if circ.isOrigin then none else circ.pConn.map fun conn => (circ.pCircId, conn)

end Circuit

/-- A circuit that is marked for close is not found. -/
def OnionRouter.circuitGetByCircidOrconn (tor : OnionRouter) (circId : UInt16) (conn : OrConnection) : Option Circuit :=
  (tor.globalCircuitlist.find? (Circuit.hasPair circId conn)).filter fun circ => circ.markedForClose.isNone

/-- A payment cell with its count of hops. -/
def paymentCell (circId hops : UInt16) (data : Bytes) : Cell where
  command := CELL_PAYMENT
  circId := circId
  payload := packBE 2 hops.toNat ++ data

inductive PaymentResult where
  | dropped
  | written (conn : OrConnection) (cell : Cell)
  | delivered (direction : CellDirection) (event : OrcircuitEvent)

/-- What is done with a cell of the circuit, for the count of hops that is left. -/
def Circuit.receivePayment (circId hopNum : UInt16) (data : Bytes) (circ : Circuit) : PaymentResult :=
  let direction := circ.paymentDirection circId
  let deliver := PaymentResult.delivered direction (controlEventOrcircuit (.payment data) circ direction)
  match circ.nextFor direction with
  | some (nextCircId, nextConn) =>
    if 1 ≤ hopNum then .written nextConn (paymentCell nextCircId hopNum data) else deliver
  | none => deliver

/-- `command_process_payment_cell`; a count of 0 wraps. -/
def OnionRouter.commandProcessPaymentCell (tor : OnionRouter) (cell : Cell) (conn : OrConnection) : PaymentResult :=
  match tor.circuitGetByCircidOrconn cell.circId conn with
  | none => .dropped
  | some circ =>
    let hopNum := UInt16.ofNat (unpackBE (cell.payload.take 2)) - 1
    circ.receivePayment cell.circId hopNum (cell.payload.drop 2)

/-- What `handle_control_sendpayment` writes once it has the circuit. -/
def Circuit.sendpaymentCell (circ : Circuit) (circId : UInt16) (numHops : Nat) (data : Bytes) :
    Option (OrConnection × Cell) :=
  (circ.connFor circId).map fun conn => (conn, paymentCell circId (UInt16.ofNat numHops) data)

/-- SENDPAYMENT for a circuit writes this cell, and nothing if the circuit does not go there. -/
theorem sendpayment_writes {tor : OnionRouter} {command : Sendpayment} {circId : UInt16} {digest data : Bytes} {k : Nat}
    {circ : Circuit} {numHops : Nat} (closeUnpaid : Bool) (h : command.Direct circId digest)
    (hfind : findCircByIdAndDigestHelper tor.globalCircuitlist circId digest = some k)
    (hk : tor.globalCircuitlist[k]? = some circ) (hopen : circ.markedForClose = none)
    (hhops : command.hops = .ok (UInt16.ofNat numHops).toNat)
    (hdata : command.decoded (CELL_PAYLOAD_SIZE - 2) = .ok data) :
    (tor.handleControlSendpayment closeUnpaid command).1.written =
      tor.written ++ (circ.sendpaymentCell circId numHops data).toList := by
  unfold OnionRouter.handleControlSendpayment OnionRouter.sendpayment Circuit.sendpaymentCell
  rw [commandTarget_direct h hfind hk hopen, hhops, h.direct, hdata]
  cases circ.connFor circId with
  | none => simp [orReply, Except.map, OnionRouter.answer]
  | some conn => simp [Except.map, pure, Except.pure, OnionRouter.answer, hk, paymentCell]

/-- A built circuit: the routers along it, and the circuit as each of them has it. The first is
the origin, the others are relays. -/
structure Path where
  length : Nat
  tor : Nat → OnionRouter
  circ : Nat → Circuit
  length_pos : 1 ≤ length
  listed : ∀ j ≤ length, circ j ∈ (tor j).globalCircuitlist
  opened : ∀ j ≤ length, (circ j).markedForClose = none
  unique : ∀ j ≤ length, (tor j).globalCircuitlist.Pairwise fun a b =>
    ∀ circId conn, a.hasPair circId conn = true → b.hasPair circId conn = false
  origin : (circ 0).isOrigin = true
  relay : ∀ j, 1 ≤ j → j ≤ length → (circ j).isOrigin = false
  prev : ∀ j, 1 ≤ j → j ≤ length → (circ j).pConn.isSome
  next : ∀ j < length, (circ j).nConn.isSome
  last : (circ length).nConn = none
  -- `circuit_extend` refuses to extend a circuit back to the previous hop.
  apart : ∀ j, 1 ≤ j → j < length → (circ j).pConn ≠ (circ j).nConn
  ids : ∀ j < length, (circ (j + 1)).pCircId = (circ j).nCircId

namespace Path

/-- The other end of a connection along the circuit. -/
def wire (path : Path) (j : Nat) (conn : OrConnection) : Option (Nat × OrConnection) :=
  if (path.circ j).nConn = some conn then
    (path.circ (j + 1)).pConn.map fun conn => (j + 1, conn)
  else if 1 ≤ j ∧ (path.circ j).pConn = some conn then
    (path.circ (j - 1)).nConn.map fun conn => (j - 1, conn)
  else none

/-- A payment event of the router at `node`, and how many routers had received the cell. -/
structure Delivery where
  node : Nat
  conn : OrConnection
  receipts : Nat
  direction : CellDirection
  event : OrcircuitEvent

/-- What becomes of a cell that arrives on a connection of the router at `j`, in so many steps. -/
def route (path : Path) : Nat → Nat → Nat → OrConnection → Cell → List Delivery
  | 0, _, _, _, _ => []
  | fuel + 1, receipts, j, conn, cell =>
    match (path.tor j).commandProcessPaymentCell cell conn with
    | .dropped => []
    | .delivered direction event => [{ node := j, conn, receipts := receipts + 1, direction, event }]
    | .written conn cell =>
      match path.wire j conn with
      | none => []
      | some (j, conn) => path.route fuel (receipts + 1) j conn cell

/-- The id of the circuit on the connection in a direction. -/
def idFor (path : Path) (j : Nat) (direction : CellDirection) : UInt16 :=
  match direction with
  | .outward => (path.circ j).nCircId
  | .inward => (path.circ j).pCircId

/-- What comes of a message that the router at `i` sends along the circuit. As the count of hops has
16 bits and each router takes one from it, it is received 65536 times at the most. -/
def deliveries (path : Path) (i : Nat) (direction : CellDirection) (numHops : Nat) (data : Bytes) : List Delivery :=
  match (path.circ i).sendpaymentCell (path.idFor i direction) numHops data with
  | none => []
  | some (conn, cell) =>
    match path.wire i conn with
    | none => []
    | some (j, conn) => path.route 65536 0 j conn cell

/-! ### Single receipts -/

section
variable {path : Path} {j : Nat} {conn : OrConnection} {circId hops : UInt16} {data : Bytes}

/-- The hops that are left of a count when a cell was received. -/
def hopsLeft (hops : UInt16) : Nat := (hops - 1).toNat

theorem hopsLeft_lt (hops : UInt16) : hopsLeft hops < 65536 := (hops - 1).toNat_lt

theorem hopsLeft_succ {hops : UInt16} (h : 1 ≤ hops - 1) : hopsLeft hops = hopsLeft (hops - 1) + 1 := by
  have hpos : 1 ≤ (hops - 1).toNat := UInt16.le_iff_toNat_le.mp h
  unfold hopsLeft
  rw [UInt16.toNat_sub_of_le (hops - 1) 1 h]
  exact (Nat.sub_add_cancel hpos).symm

theorem hopsLeft_zero {hops : UInt16} (h : ¬1 ≤ hops - 1) : hopsLeft hops = 0 := by
  have hpos : ¬1 ≤ (hops - 1).toNat := fun hle => h (UInt16.le_iff_toNat_le.mpr hle)
  unfold hopsLeft
  omega

theorem paymentCell_hops (circId hops : UInt16) (data : Bytes) :
    UInt16.ofNat (unpackBE ((paymentCell circId hops data).payload.take 2)) = hops := by
  have htake : (packBE 2 hops.toNat ++ data).take 2 = packBE 2 hops.toNat := by
    rw [List.take_append_of_le_length (by simp), List.take_of_length_le (by simp)]
  rw [paymentCell, htake, Struct.unpackBE_packBE 2 _ hops.toNat_lt]
  exact UInt16.ofNat_toNat

theorem paymentCell_data (circId hops : UInt16) (data : Bytes) :
    (paymentCell circId hops data).payload.drop 2 = data := by
  rw [paymentCell, List.drop_append_of_le_length (by simp), List.drop_of_length_le (by simp), List.nil_append]

theorem find?_pairwise {circs : List Circuit} {circ : Circuit}
    (hunique : circs.Pairwise fun a b => ∀ circId conn, a.hasPair circId conn = true → b.hasPair circId conn = false)
    (hmem : circ ∈ circs) (hpair : circ.hasPair circId conn = true) :
    circs.find? (Circuit.hasPair circId conn) = some circ := by
  induction hunique with
  | nil => cases hmem
  | @cons other circs hother _ ih =>
    rcases List.mem_cons.mp hmem with rfl | hrest
    · exact List.find?_cons_of_pos hpair
    · have hnot : other.hasPair circId conn ≠ true := fun h => by
        have hfalse := hother circ hrest circId conn h
        rw [hpair] at hfalse
        cases hfalse
      rw [List.find?_cons_of_neg hnot]
      exact ih hrest

/-- A cell with an id of the circuit, on its connection, belongs to the circuit. -/
theorem circuit_found (path : Path) (hj : j ≤ path.length) (hpair : (path.circ j).hasPair circId conn = true) :
    (path.tor j).circuitGetByCircidOrconn circId conn = some (path.circ j) := by
  unfold OnionRouter.circuitGetByCircidOrconn
  rw [find?_pairwise (path.unique j hj) (path.listed j hj) hpair]
  exact Option.filter_some_pos (by simp [path.opened j hj])

theorem process_cell (path : Path) (hj : j ≤ path.length) (hpair : (path.circ j).hasPair circId conn = true) :
    (path.tor j).commandProcessPaymentCell (paymentCell circId hops data) conn =
      (path.circ j).receivePayment circId (hops - 1) data := by
  unfold OnionRouter.commandProcessPaymentCell
  rw [show (paymentCell circId hops data).circId = circId from rfl, circuit_found path hj hpair]
  simp only [paymentCell_hops, paymentCell_data]

theorem hasPair_prev (path : Path) (hpos : 1 ≤ j) (hj : j ≤ path.length) (hconn : (path.circ j).pConn = some conn) :
    (path.circ j).hasPair (path.circ j).pCircId conn = true :=
  decide_eq_true (Or.inl ⟨path.relay j hpos hj, hconn, rfl⟩)

theorem hasPair_next (path : Path) (hconn : (path.circ j).nConn = some conn) :
    (path.circ j).hasPair (path.circ j).nCircId conn = true :=
  decide_eq_true (Or.inr ⟨hconn, rfl⟩)

/-- The payment event of the router at `node` for a direction. -/
def eventAt (path : Path) (node : Nat) (direction : CellDirection) (data : Bytes) : OrcircuitEvent :=
  controlEventOrcircuit (.payment data) (path.circ node) direction

/-- The two ids that a relay has for the circuit are the same. -/
def Crossed (path : Path) (j : Nat) : Prop := (path.circ j).pCircId = (path.circ j).nCircId

instance (j : Nat) : Decidable (path.Crossed j) := inferInstanceAs (Decidable (_ = _))

theorem paymentDirection_prev (path : Path) (hpos : 1 ≤ j) (hj : j ≤ path.length) :
    (path.circ j).paymentDirection (path.circ j).pCircId = .outward :=
  if_pos ⟨path.relay j hpos hj, rfl⟩

theorem paymentDirection_next (hstraight : 1 ≤ j → ¬path.Crossed j) :
    (path.circ j).paymentDirection (path.circ j).nCircId = .inward := by
  apply if_neg
  rintro ⟨hrelay, hid⟩
  rcases Nat.eq_zero_or_pos j with rfl | hpos
  · rw [path.origin] at hrelay
    cases hrelay
  · exact hstraight hpos hid.symm

theorem wire_next (path : Path) (hj : j < path.length) (hconn : (path.circ j).nConn = some conn) :
    ∃ prev, (path.circ (j + 1)).pConn = some prev ∧ path.wire j conn = some (j + 1, prev) := by
  obtain ⟨prev, hprev⟩ := Option.isSome_iff_exists.mp (path.prev (j + 1) (by omega) hj)
  exact ⟨prev, hprev, by rw [wire, if_pos hconn, hprev, Option.map_some]⟩

theorem wire_prev (path : Path) (hpos : 1 ≤ j) (hj : j ≤ path.length) (hconn : (path.circ j).pConn = some conn) :
    ∃ next, (path.circ (j - 1)).nConn = some next ∧ path.wire j conn = some (j - 1, next) := by
  obtain ⟨next, hnext⟩ := Option.isSome_iff_exists.mp (path.next (j - 1) (by omega))
  have hnot : (path.circ j).nConn ≠ some conn := by
    rcases Nat.lt_or_ge j path.length with hlt | hge
    · intro heq
      exact path.apart j hpos hlt (hconn.trans heq.symm)
    · rw [Nat.le_antisymm hj hge, path.last]
      exact nofun
  exact ⟨next, hnext, by rw [wire, if_neg hnot, if_pos ⟨hpos, hconn⟩, hnext, Option.map_some]⟩

/-! ### Steps -/

theorem receivePayment_keeps {circ : Circuit} {hopNum : UInt16}
    (hkeep : ¬1 ≤ hopNum ∨ circ.nextFor (circ.paymentDirection circId) = none) :
    circ.receivePayment circId hopNum data = .delivered (circ.paymentDirection circId)
      (controlEventOrcircuit (.payment data) circ (circ.paymentDirection circId)) := by
  unfold Circuit.receivePayment
  rcases hkeep with hzero | hnone
  · simp only [if_neg hzero]
    split
    · rfl
    · rfl
  · simp only [hnone]

theorem receivePayment_passes {circ : Circuit} {hopNum nextCircId : UInt16} {nextConn : OrConnection}
    (hhops : 1 ≤ hopNum) (hnext : circ.nextFor (circ.paymentDirection circId) = some (nextCircId, nextConn)) :
    circ.receivePayment circId hopNum data = .written nextConn (paymentCell nextCircId hopNum data) := by
  unfold Circuit.receivePayment
  simp only [hnext, if_pos hhops]

/-- A router keeps the cell if no hops are left or if it has nobody to pass it on to. -/
theorem route_keeps (fuel receipts : Nat) (hj : j ≤ path.length) (hpair : (path.circ j).hasPair circId conn = true)
    {direction : CellDirection} (hdirection : (path.circ j).paymentDirection circId = direction)
    (hkeep : ¬1 ≤ hops - 1 ∨ (path.circ j).nextFor direction = none) :
    path.route (fuel + 1) receipts j conn (paymentCell circId hops data) =
      [{ node := j, conn, receipts := receipts + 1, direction, event := path.eventAt j direction data }] := by
  subst hdirection
  rw [route, process_cell path hj hpair, receivePayment_keeps hkeep]
  rfl

theorem route_passes (fuel receipts : Nat) (hj : j ≤ path.length) (hpair : (path.circ j).hasPair circId conn = true)
    (hhops : 1 ≤ hops - 1) {nextCircId : UInt16} {nextConn farConn : OrConnection} {far : Nat}
    (hnext : (path.circ j).nextFor ((path.circ j).paymentDirection circId) = some (nextCircId, nextConn))
    (hwire : path.wire j nextConn = some (far, farConn)) :
    path.route (fuel + 1) receipts j conn (paymentCell circId hops data) =
      path.route fuel (receipts + 1) far farConn (paymentCell nextCircId (hops - 1) data) := by
  rw [route, process_cell path hj hpair, receivePayment_passes hhops hnext]
  simp only [hwire]

variable (data) in
/-- A cell that is taken for one from the previous hop goes to the next one. -/
theorem route_outward_passes (fuel receipts : Nat) (hj : j < path.length)
    (hpair : (path.circ j).hasPair circId conn = true) (hhops : 1 ≤ hops - 1)
    (hdirection : (path.circ j).paymentDirection circId = .outward) :
    ∃ prev, (path.circ (j + 1)).pConn = some prev ∧
      path.route (fuel + 1) receipts j conn (paymentCell circId hops data) =
        path.route fuel (receipts + 1) (j + 1) prev (paymentCell (path.circ (j + 1)).pCircId (hops - 1) data) := by
  obtain ⟨next, hnext⟩ := Option.isSome_iff_exists.mp (path.next j hj)
  obtain ⟨prev, hprev, hwire⟩ := wire_next path hj hnext
  refine ⟨prev, hprev, ?_⟩
  rw [path.ids j hj]
  apply route_passes fuel receipts (Nat.le_of_lt hj) hpair hhops _ hwire
  rw [hdirection, Circuit.nextFor, hnext]
  rfl

/-- A cell that is taken for one from the next hop goes to the previous one. -/
theorem route_inward_passes (fuel receipts : Nat) (hpos : 1 ≤ j) (hj : j ≤ path.length)
    (hpair : (path.circ j).hasPair circId conn = true) (hhops : 1 ≤ hops - 1)
    (hdirection : (path.circ j).paymentDirection circId = .inward) :
    ∃ next, (path.circ (j - 1)).nConn = some next ∧
      path.route (fuel + 1) receipts j conn (paymentCell circId hops data) =
        path.route fuel (receipts + 1) (j - 1) next (paymentCell (path.circ (j - 1)).nCircId (hops - 1) data) := by
  obtain ⟨prev, hprev⟩ := Option.isSome_iff_exists.mp (path.prev j hpos hj)
  obtain ⟨next, hnext, hwire⟩ := wire_prev path hpos hj hprev
  refine ⟨next, hnext, ?_⟩
  have hid : (path.circ (j - 1)).nCircId = (path.circ j).pCircId := by
    have hids := path.ids (j - 1) (by omega)
    rw [Nat.sub_add_cancel hpos] at hids
    exact hids.symm
  rw [hid]
  apply route_passes fuel receipts hj hpair hhops _ hwire
  rw [hdirection, Circuit.nextFor, path.relay j hpos hj, hprev]
  rfl

/-- The connection on which a cell travelling in a direction reaches the circuit. -/
def connFrom (path : Path) (j : Nat) (direction : CellDirection) : Option OrConnection :=
  match direction with
  | .outward => (path.circ j).pConn
  | .inward => (path.circ j).nConn

/-- All that comes of a cell is one event of the router at `node`, which tells the way it came. -/
def Arrives (path : Path) (data : Bytes) (node receipts : Nat) (direction : CellDirection) (ds : List Delivery) : Prop :=
  ∃ conn, path.connFrom node direction = some conn ∧
    ds = [{ node, conn, receipts, direction, event := path.eventAt node direction data }]

/-- Away from the origin a cell gets as far as its count and the circuit let it. -/
theorem route_outward (path : Path) (data : Bytes) (fuel : Nat) :
    ∀ (receipts j : Nat) (hops : UInt16) {conn : OrConnection}, hopsLeft hops < fuel → 1 ≤ j → j ≤ path.length →
      (path.circ j).pConn = some conn →
      path.Arrives data (j + min (hopsLeft hops) (path.length - j))
        (receipts + 1 + min (hopsLeft hops) (path.length - j)) .outward
        (path.route fuel receipts j conn (paymentCell (path.circ j).pCircId hops data)) := by
  induction fuel with
  | zero => exact fun _ _ _ _ hfuel => absurd hfuel (Nat.not_lt_zero _)
  | succ fuel ih =>
    intro receipts j hops conn hfuel hpos hj hconn
    have hpair := hasPair_prev path hpos hj hconn
    have hdirection := paymentDirection_prev path hpos hj
    by_cases hpass : 1 ≤ hops - 1 ∧ j < path.length
    · obtain ⟨prev, hprev, hroute⟩ :=
        route_outward_passes data fuel receipts hpass.2 hpair hpass.1 hdirection
      have hleft := hopsLeft_succ hpass.1
      have hfar := ih (receipts + 1) (j + 1) (hops - 1) (by omega) (by omega) hpass.2 hprev
      rw [hroute]
      have hnode : j + min (hopsLeft hops) (path.length - j) =
          j + 1 + min (hopsLeft (hops - 1)) (path.length - (j + 1)) := by omega
      have hreceipts : receipts + 1 + min (hopsLeft hops) (path.length - j) =
          receipts + 1 + 1 + min (hopsLeft (hops - 1)) (path.length - (j + 1)) := by omega
      rw [hnode, hreceipts]
      exact hfar
    · have hkeep : ¬1 ≤ hops - 1 ∨ (path.circ j).nextFor .outward = none := by
        by_cases hhops : 1 ≤ hops - 1
        · have hlast : j = path.length := Nat.le_antisymm hj (Nat.not_lt.mp fun hlt => hpass ⟨hhops, hlt⟩)
          right
          rw [hlast, Circuit.nextFor, path.last]
          rfl
        · exact Or.inl hhops
      have hstay : min (hopsLeft hops) (path.length - j) = 0 := by
        by_cases hhops : 1 ≤ hops - 1
        · have hge : ¬j < path.length := fun hlt => hpass ⟨hhops, hlt⟩
          omega
        · have hzero := hopsLeft_zero hhops
          omega
      rw [hstay, route_keeps fuel receipts hj hpair hdirection hkeep]
      exact ⟨conn, hconn, rfl⟩

variable (hops data) in
/-- A cell from the next hop that is taken for what it is. -/
theorem route_inward_step (fuel receipts : Nat) (hj : j < path.length) (hconn : (path.circ j).nConn = some conn)
    (hstraight : 1 ≤ j → ¬path.Crossed j) :
    ((¬1 ≤ hops - 1 ∨ j = 0) ∧ path.Arrives data j (receipts + 1) .inward
        (path.route (fuel + 1) receipts j conn (paymentCell (path.circ j).nCircId hops data))) ∨
      (1 ≤ hops - 1 ∧ 1 ≤ j ∧ ∃ next, (path.circ (j - 1)).nConn = some next ∧
        path.route (fuel + 1) receipts j conn (paymentCell (path.circ j).nCircId hops data) =
          path.route fuel (receipts + 1) (j - 1) next
            (paymentCell (path.circ (j - 1)).nCircId (hops - 1) data)) := by
  have hpair := hasPair_next path hconn
  have hdirection := paymentDirection_next hstraight
  by_cases hpass : 1 ≤ hops - 1 ∧ 1 ≤ j
  · exact Or.inr ⟨hpass.1, hpass.2,
      route_inward_passes fuel receipts hpass.2 (Nat.le_of_lt hj) hpair hpass.1 hdirection⟩
  · have hwhy : ¬1 ≤ hops - 1 ∨ j = 0 := by
      by_cases hhops : 1 ≤ hops - 1
      · right
        have hnot : ¬1 ≤ j := fun hpos => hpass ⟨hhops, hpos⟩
        omega
      · exact Or.inl hhops
    have hkeep : ¬1 ≤ hops - 1 ∨ (path.circ j).nextFor .inward = none := by
      apply hwhy.imp_right
      rintro rfl
      rw [Circuit.nextFor, path.origin]
      rfl
    exact Or.inl ⟨hwhy, conn, hconn, route_keeps fuel receipts (Nat.le_of_lt hj) hpair hdirection hkeep⟩

variable (data) in
/-- A cell from the next hop that is taken for one from the previous hop. -/
theorem route_crossed_step (fuel receipts : Nat) (hpos : 1 ≤ j) (hj : j < path.length)
    (hconn : (path.circ j).nConn = some conn) (hcrossed : path.Crossed j) (hfuel : hopsLeft hops < fuel + 1) :
    (hopsLeft hops = 0 ∧ path.route (fuel + 1) receipts j conn (paymentCell (path.circ j).nCircId hops data) =
        [{ node := j, conn, receipts := receipts + 1, direction := .outward, event := path.eventAt j .outward data }]) ∨
      (1 ≤ hopsLeft hops ∧ ∃ node receipts', j < node ∧ node ≤ path.length ∧ receipts + 1 < receipts' ∧
        path.Arrives data node receipts' .outward
          (path.route (fuel + 1) receipts j conn (paymentCell (path.circ j).nCircId hops data))) := by
  have hpair := hasPair_next path hconn
  have hdirection : (path.circ j).paymentDirection (path.circ j).nCircId = .outward := by
    rw [← hcrossed]
    exact paymentDirection_prev path hpos (Nat.le_of_lt hj)
  by_cases hhops : 1 ≤ hops - 1
  · obtain ⟨prev, hprev, hroute⟩ := route_outward_passes data fuel receipts hj hpair hhops hdirection
    have hleft := hopsLeft_succ hhops
    have hfar := route_outward path data fuel (receipts + 1) (j + 1) (hops - 1)
      (by omega) (by omega) hj hprev
    refine Or.inr ⟨by omega, _, _, ?_, ?_, ?_, hroute ▸ hfar⟩
    · omega
    · omega
    · omega
  · refine Or.inl ⟨hopsLeft_zero hhops, ?_⟩
    exact route_keeps fuel receipts (Nat.le_of_lt hj) hpair hdirection (Or.inl hhops)

/-- What comes of a cell that travels towards the origin with so many hops left. -/
inductive Returns (path : Path) (data : Bytes) (receipts j left : Nat) (ds : List Delivery) : Prop where
  | straight (hstraight : ∀ l, 1 ≤ l → l ≤ j → j ≤ l + left → ¬path.Crossed l)
      (harrives : path.Arrives data (j - left) (receipts + 1 + min left j) .inward ds)
  | mistaken (l : Nat) (hpos : 1 ≤ l) (hlast : l + left = j) (hcrossed : path.Crossed l)
      (hfirst : ∀ l', l < l' → l' ≤ j → ¬path.Crossed l')
      (conn : OrConnection) (hconn : (path.circ l).nConn = some conn)
      (hds : ds = [{ node := l, conn, receipts := receipts + 1 + left, direction := .outward,
                     event := path.eventAt l .outward data }])
  | reflected (l : Nat) (hpos : 1 ≤ l) (hle : l ≤ j) (hmore : j < l + left) (hcrossed : path.Crossed l)
      (node receipts' : Nat) (hnode : l < node) (hlength : node ≤ path.length) (hreceipts : receipts + 1 < receipts')
      (harrives : path.Arrives data node receipts' .outward ds)

/-- Towards the origin the first relay with equal ids takes the cell for one that goes the other way. -/
theorem route_inward (path : Path) (data : Bytes) (fuel : Nat) :
    ∀ (receipts j : Nat) (hops : UInt16) {conn : OrConnection}, hopsLeft hops < fuel → j < path.length →
      (path.circ j).nConn = some conn →
      path.Returns data receipts j (hopsLeft hops)
        (path.route fuel receipts j conn (paymentCell (path.circ j).nCircId hops data)) := by
  induction fuel with
  | zero => exact fun _ _ _ _ hfuel => absurd hfuel (Nat.not_lt_zero _)
  | succ fuel ih =>
    intro receipts j hops conn hfuel hj hconn
    by_cases hcross : 1 ≤ j ∧ path.Crossed j
    · obtain ⟨hpos, hcrossed⟩ := hcross
      rcases route_crossed_step data fuel receipts hpos hj hconn hcrossed hfuel with
        ⟨hzero, hroute⟩ | ⟨hmore, node, receipts', hnode, hlength, hreceipts, harrives⟩
      · refine .mistaken j hpos (by omega) hcrossed (fun l' hl hl' => absurd hl' (by omega)) conn hconn ?_
        rw [hroute, hzero]
      · exact .reflected j hpos (Nat.le_refl j) (by omega) hcrossed node receipts' hnode hlength hreceipts harrives
    · have hstraight : 1 ≤ j → ¬path.Crossed j := fun hpos hcrossed => hcross ⟨hpos, hcrossed⟩
      rcases route_inward_step hops data fuel receipts hj hconn hstraight with
        ⟨hwhy, harrives⟩ | ⟨hhops, hpos, next, hnext, hroute⟩
      · have hstay : min (hopsLeft hops) j = 0 := by
          rcases hwhy with hhops | hzero
          · have hleft := hopsLeft_zero hhops
            omega
          · omega
        have hnode : j - hopsLeft hops = j := by omega
        refine .straight (fun l hl hlj hreach => ?_) ?_
        · have hsame : l = j := by omega
          rw [hsame]
          exact hstraight (by omega)
        · rw [hstay, hnode]
          exact harrives
      · have hleft := hopsLeft_succ hhops
        rw [hroute]
        cases ih (receipts + 1) (j - 1) (hops - 1) (by omega) (by omega) hnext with
        | straight hrest harrives =>
          refine .straight (fun l hl hlj hreach => ?_) ?_
          · by_cases hsame : l = j
            · rw [hsame]
              exact hstraight hpos
            · exact hrest l hl (by omega) (by omega)
          · have hnode : j - hopsLeft hops = j - 1 - hopsLeft (hops - 1) := by omega
            have hreceipts : receipts + 1 + min (hopsLeft hops) j =
                receipts + 1 + 1 + min (hopsLeft (hops - 1)) (j - 1) := by omega
            rw [hnode, hreceipts]
            exact harrives
        | mistaken l hl hlast hcrossed hfirst conn hconn hds =>
          refine .mistaken l hl (by omega) hcrossed (fun l' hl' hlj => ?_) conn hconn ?_
          · by_cases hsame : l' = j
            · rw [hsame]
              exact hstraight hpos
            · exact hfirst l' hl' (by omega)
          · rw [hds, hleft, Nat.add_right_comm (receipts + 1)]
            rfl
        | reflected l hl hle hmore hcrossed node receipts' hnode hlength hreceipts harrives =>
          exact .reflected l hl (by omega) (by omega) hcrossed node receipts' hnode hlength (by omega) harrives

end

/-! ### Where messages arrive -/

/-- The number of routers that a message gets to at the most: the number of hops in 16 bits, with
0 for 65536. -/
def reach (numHops : Nat) : Nat := hopsLeft (UInt16.ofNat numHops) + 1

theorem reach_eq (numHops : Nat) : reach numHops = (numHops + 65535) % 65536 + 1 := by
  unfold reach hopsLeft
  rw [UInt16.toNat_sub, UInt16.toNat_ofNat']
  have hone : UInt16.toNat 1 = 1 := rfl
  omega

/-- The origin sends to the first relay, and every relay to its neighbours. -/
def CanSend (path : Path) (i : Nat) (direction : CellDirection) : Prop :=
  match direction with
  | .outward => i < path.length
  | .inward => 1 ≤ i ∧ i ≤ path.length

def firstReceiver (i : Nat) (direction : CellDirection) : Nat :=
  match direction with
  | .outward => i + 1
  | .inward => i - 1

/-- The event tells the way the cell came: away from the origin if it came from the previous hop. -/
def Delivery.Truthful (path : Path) (d : Delivery) : Prop :=
  d.direction = .outward ↔ (path.circ d.node).isOrigin = false ∧ (path.circ d.node).pConn = some d.conn

/-- A message reaches whom it is meant for, and nobody else. -/
structure Reaches (path : Path) (i : Nat) (direction : CellDirection) (numHops : Nat) (data : Bytes) : Prop where
  forward : direction = .outward → 1 ≤ numHops →
    (path.deliveries i direction numHops data).map Delivery.node = [i + min numHops (path.length - i)]
  backward : direction = .inward → i ≤ numHops → (path.deliveries i direction numHops data).map Delivery.node = [0]
  single : numHops = 0 → ∃ d, path.deliveries i direction numHops data = [d] ∧
    d.node = firstReceiver i direction ∧ d.receipts = 1
  truthful : ∀ d ∈ path.deliveries i direction numHops data, d.Truthful path
  intact : ∀ d ∈ path.deliveries i direction numHops data, d.event = path.eventAt d.node d.direction data

/-- The number of hops counts for what it says, and nobody who has to pass the message on towards
the origin has one id for both neighbours. -/
structure Regular (path : Path) (i : Nat) (direction : CellDirection) (numHops : Nat) : Prop where
  forward : direction = .outward → 1 ≤ numHops → numHops ≤ 65536 ∨ path.length - i ≤ reach numHops
  backward : direction = .inward → i ≤ numHops → i ≤ reach numHops ∧ ∀ j, 1 ≤ j → j ≤ i → ¬path.Crossed j
  single : numHops = 0 → (direction = .outward → i + 1 = path.length) ∧ (direction = .inward → i = 1 ∧ ¬path.Crossed 1)
  truthful : direction = .inward → reach numHops < i → path.Crossed (i - reach numHops) →
    ∃ j, i - reach numHops < j ∧ j ≤ i ∧ path.Crossed j

section
variable {path : Path} {i node receipts numHops : Nat} {direction : CellDirection} {data : Bytes} {ds : List Delivery}

theorem Arrives.map_node (h : path.Arrives data node receipts direction ds) : ds.map Delivery.node = [node] := by
  obtain ⟨conn, -, rfl⟩ := h
  rfl

theorem Arrives.intact (h : path.Arrives data node receipts direction ds) :
    ∀ d ∈ ds, d.event = path.eventAt d.node d.direction data := by
  obtain ⟨conn, -, rfl⟩ := h
  intro d hd
  rw [List.mem_singleton.mp hd]

theorem Arrives.truthful_outward (h : path.Arrives data node receipts .outward ds) (hpos : 1 ≤ node)
    (hnode : node ≤ path.length) : ∀ d ∈ ds, d.Truthful path := by
  obtain ⟨conn, hconn, rfl⟩ := h
  intro d hd
  rw [List.mem_singleton.mp hd]
  exact ⟨fun _ => ⟨path.relay node hpos hnode, hconn⟩, fun _ => rfl⟩

theorem Arrives.truthful_inward (h : path.Arrives data node receipts .inward ds) (hnode : node < path.length) :
    ∀ d ∈ ds, d.Truthful path := by
  obtain ⟨conn, hconn, rfl⟩ := h
  intro d hd
  rw [List.mem_singleton.mp hd]
  refine ⟨nofun, fun ⟨hrelay, hprev⟩ => ?_⟩
  rcases Nat.eq_zero_or_pos node with rfl | hpos
  · rw [path.origin] at hrelay
    cases hrelay
  · exact absurd (hprev.trans hconn.symm) (path.apart node hpos hnode)

variable (numHops data) in
theorem deliveries_outward (hi : i < path.length) :
    path.Arrives data (i + min (reach numHops) (path.length - i)) (min (reach numHops) (path.length - i)) .outward
      (path.deliveries i .outward numHops data) := by
  obtain ⟨next, hnext⟩ := Option.isSome_iff_exists.mp (path.next i hi)
  obtain ⟨prev, hprev, hwire⟩ := wire_next path hi hnext
  have hsent : (path.circ i).sendpaymentCell (path.idFor i .outward) numHops data =
      some (next, paymentCell (path.circ i).nCircId (UInt16.ofNat numHops) data) := by
    rw [Circuit.sendpaymentCell, idFor, Circuit.connFor, if_pos rfl, hnext]
    rfl
  have hroute := route_outward path data 65536 0 (i + 1) (UInt16.ofNat numHops) (hopsLeft_lt _)
    (by omega) hi hprev
  unfold deliveries
  simp only [hsent, hwire]
  rw [← path.ids i hi]
  have hreach : reach numHops = hopsLeft (UInt16.ofNat numHops) + 1 := rfl
  have hnode : i + min (reach numHops) (path.length - i) =
      i + 1 + min (hopsLeft (UInt16.ofNat numHops)) (path.length - (i + 1)) := by omega
  have hreceipts : min (reach numHops) (path.length - i) =
      0 + 1 + min (hopsLeft (UInt16.ofNat numHops)) (path.length - (i + 1)) := by omega
  rw [hnode, hreceipts]
  exact hroute

variable (numHops data) in
theorem deliveries_inward (hpos : 1 ≤ i) (hi : i ≤ path.length) (hstraight : ¬path.Crossed i) :
    path.Returns data 0 (i - 1) (hopsLeft (UInt16.ofNat numHops)) (path.deliveries i .inward numHops data) := by
  obtain ⟨prev, hprev⟩ := Option.isSome_iff_exists.mp (path.prev i hpos hi)
  obtain ⟨next, hnext, hwire⟩ := wire_prev path hpos hi hprev
  have hsent : (path.circ i).sendpaymentCell (path.idFor i .inward) numHops data =
      some (prev, paymentCell (path.circ i).pCircId (UInt16.ofNat numHops) data) := by
    rw [Circuit.sendpaymentCell, idFor, Circuit.connFor, if_neg fun h => hstraight h.symm, hprev]
    rfl
  have hid : (path.circ i).pCircId = (path.circ (i - 1)).nCircId := by
    have hids := path.ids (i - 1) (by omega)
    rwa [Nat.sub_add_cancel hpos] at hids
  unfold deliveries
  simp only [hsent, hwire]
  rw [hid]
  exact route_inward path data 65536 0 (i - 1) (UInt16.ofNat numHops) (hopsLeft_lt _) (by omega) hnext

variable (numHops data) in
/-- The sender itself sends the message the other way, if there is one. -/
theorem deliveries_crossed (hi : i ≤ path.length) (hcrossed : path.Crossed i) :
    path.deliveries i .inward numHops data = [] ∨ ∃ node receipts, i < node ∧ node ≤ path.length ∧
      path.Arrives data node receipts .outward (path.deliveries i .inward numHops data) := by
  have hsame : path.idFor i .inward = path.idFor i .outward := hcrossed
  have hdeliveries : path.deliveries i .inward numHops data = path.deliveries i .outward numHops data := by
    unfold deliveries
    rw [hsame]
  rcases Nat.lt_or_ge i path.length with hlt | hge
  · rw [hdeliveries]
    refine Or.inr ⟨_, _, ?_, ?_, deliveries_outward numHops data hlt⟩
    · have hpositive : 1 ≤ reach numHops := Nat.succ_le_succ (Nat.zero_le _)
      omega
    · omega
  · have hlast : i = path.length := Nat.le_antisymm hi hge
    left
    rw [hdeliveries]
    unfold deliveries
    rw [Circuit.sendpaymentCell, idFor, Circuit.connFor, if_pos rfl, hlast, path.last]
    rfl

theorem reach_pos (numHops : Nat) : 1 ≤ reach numHops := Nat.succ_le_succ (Nat.zero_le _)

theorem reaches_outward_iff (hi : i < path.length) :
    path.Reaches i .outward numHops data ↔ path.Regular i .outward numHops := by
  have harrives := deliveries_outward numHops data hi
  have hreach := reach_eq numHops
  have hpos := reach_pos numHops
  constructor
  · intro h
    refine ⟨fun _ hone => ?_, nofun, fun hzero => ⟨fun _ => ?_, nofun⟩, nofun⟩
    · have hnodes := h.forward rfl hone
      rw [harrives.map_node, List.singleton_inj] at hnodes
      omega
    · obtain ⟨d, hd, hnode, -⟩ := h.single hzero
      have hnodes := harrives.map_node
      rw [hd, List.map_singleton, List.singleton_inj, hnode] at hnodes
      have hfirst : firstReceiver i .outward = i + 1 := rfl
      omega
  · intro h
    refine ⟨fun _ hone => ?_, nofun, fun hzero => ?_, ?_, harrives.intact⟩
    · have hfar := h.forward rfl hone
      rw [harrives.map_node, List.singleton_inj]
      omega
    · have hlast := (h.single hzero).1 rfl
      obtain ⟨conn, hconn, hds⟩ := harrives
      refine ⟨_, hds, ?_, ?_⟩
      · have hfirst : firstReceiver i .outward = i + 1 := rfl
        dsimp only
        omega
      · dsimp only
        omega
    · exact harrives.truthful_outward (by omega) (by omega)

/-- A sender that has one id for both neighbours does not reach the origin. -/
theorem reaches_crossed_iff (hpos : 1 ≤ i) (hi : i ≤ path.length) (hcrossed : path.Crossed i) :
    path.Reaches i .inward numHops data ↔ path.Regular i .inward numHops := by
  have hreach := reach_pos numHops
  constructor
  · intro h
    have hout : ∀ node, (path.deliveries i .inward numHops data).map Delivery.node = [node] → i < node := by
      intro node hnode
      rcases deliveries_crossed numHops data hi hcrossed with
        hnone | ⟨far, receipts, hfar, -, harrives⟩
      · rw [hnone] at hnode
        cases hnode
      · rw [harrives.map_node, List.singleton_inj] at hnode
        omega
    refine ⟨nofun, fun _ hle => ?_, fun hzero => ⟨nofun, fun _ => ?_⟩, fun _ hlt _ => ⟨i, by omega, Nat.le_refl i, hcrossed⟩⟩
    · exact absurd (hout 0 (h.backward rfl hle)) (Nat.not_lt_zero i)
    · obtain ⟨d, hd, hnode, -⟩ := h.single hzero
      have hfar := hout d.node (by rw [hd, List.map_singleton])
      have hfirst : firstReceiver i .inward = i - 1 := rfl
      omega
  · intro h
    refine ⟨nofun, fun _ hle => ?_, fun hzero => ?_, ?_, ?_⟩
    · exact absurd hcrossed ((h.backward rfl hle).2 i hpos (Nat.le_refl i))
    · obtain ⟨hone, hnot⟩ := (h.single hzero).2 rfl
      rw [hone] at hcrossed
      exact absurd hcrossed hnot
    · rcases deliveries_crossed numHops data hi hcrossed with
        hnone | ⟨far, receipts, hfar, hlength, harrives⟩
      · rw [hnone]
        exact nofun
      · exact harrives.truthful_outward (by omega) hlength
    · rcases deliveries_crossed numHops data hi hcrossed with
        hnone | ⟨far, receipts, hfar, hlength, harrives⟩
      · rw [hnone]
        exact nofun
      · exact harrives.intact

theorem reaches_inward_iff (hpos : 1 ≤ i) (hi : i ≤ path.length) (hsender : ¬path.Crossed i) :
    path.Reaches i .inward numHops data ↔ path.Regular i .inward numHops := by
  have hreach := reach_eq numHops
  have hleft : reach numHops = hopsLeft (UInt16.ofNat numHops) + 1 := rfl
  have hfirst : firstReceiver i .inward = i - 1 := rfl
  cases deliveries_inward numHops data hpos hi hsender with
  | straight hstraight harrives =>
    have hno : ∀ l, 1 ≤ l → l ≤ i → i ≤ l + reach numHops → ¬path.Crossed l := by
      intro l hl hle hnear
      by_cases hsame : l = i
      · rwa [hsame]
      · exact hstraight l hl (by omega) (by omega)
    constructor
    · intro h
      refine ⟨nofun, fun _ hle => ?_, fun hzero => ⟨nofun, fun _ => ?_⟩, fun _ hlt hcrossed => ?_⟩
      · have hnodes := h.backward rfl hle
        rw [harrives.map_node, List.singleton_inj] at hnodes
        exact ⟨by omega, fun j hj hji => hno j hj hji (by omega)⟩
      · obtain ⟨d, hd, hnode, hreceipts⟩ := h.single hzero
        have hnodes := harrives.map_node
        rw [hd, List.map_singleton, List.singleton_inj, hnode] at hnodes
        have hone : i = 1 := by omega
        exact ⟨hone, hone ▸ hsender⟩
      · exact absurd hcrossed (hno _ (by omega) (by omega) (by omega))
    · intro h
      refine ⟨nofun, fun _ hle => ?_, fun hzero => ?_, harrives.truthful_inward (by omega), harrives.intact⟩
      · have hnear := (h.backward rfl hle).1
        rw [harrives.map_node, List.singleton_inj]
        omega
      · have hone := ((h.single hzero).2 rfl).1
        obtain ⟨conn, hconn, hds⟩ := harrives
        refine ⟨_, hds, ?_, ?_⟩
        · dsimp only
          omega
        · dsimp only
          omega
  | mistaken l hl hlast hcrossed hno conn hconn hds =>
    have hnot : ¬path.Reaches i .inward numHops data := by
      intro h
      -- The relay takes the cell for one of its previous hop.
      obtain ⟨-, hprev⟩ := (h.truthful _ (hds ▸ List.mem_singleton_self _)).mp rfl
      exact path.apart l hl (by omega) (hprev.trans hconn.symm)
    refine ⟨fun h => absurd h hnot, fun h => ?_⟩
    have hat : i - reach numHops = l := by omega
    obtain ⟨j, hj, hji, hcrossed'⟩ := h.truthful rfl (by omega) (by rwa [hat])
    by_cases hsame : j = i
    · rw [hsame] at hcrossed'
      exact absurd hcrossed' hsender
    · exact absurd hcrossed' (hno j (by omega) (by omega))
  | reflected l hl hle hmore hcrossed node receipts' hnode hlength hreceipts harrives =>
    constructor
    · intro h
      refine ⟨nofun, fun _ hle => ?_, fun hzero => ⟨nofun, fun _ => ?_⟩, fun _ hlt _ => ⟨l, by omega, by omega, hcrossed⟩⟩
      · have hnodes := h.backward rfl hle
        rw [harrives.map_node, List.singleton_inj] at hnodes
        omega
      · obtain ⟨d, hd, -, hreceipts'⟩ := h.single hzero
        obtain ⟨conn, -, hds⟩ := harrives
        rw [hd, List.singleton_inj] at hds
        rw [hds] at hreceipts'
        dsimp only at hreceipts'
        omega
    · intro h
      refine ⟨nofun, fun _ hle => ?_, fun hzero => ?_, harrives.truthful_outward (by omega) hlength, harrives.intact⟩
      · exact absurd hcrossed ((h.backward rfl hle).2 l hl (by omega))
      · have hone := ((h.single hzero).2 rfl).1
        omega

end

/-- Messages reach whom they are meant for exactly where the count and the ids are regular. -/
theorem reaches_iff (path : Path) (i : Nat) (direction : CellDirection) (numHops : Nat) (data : Bytes)
    (h : path.CanSend i direction) :
    path.Reaches i direction numHops data ↔ path.Regular i direction numHops := by
  cases direction with
  | outward => exact reaches_outward_iff h
  | inward =>
    obtain ⟨hpos, hi⟩ := h
    by_cases hcrossed : path.Crossed i
    · exact reaches_crossed_iff hpos hi hcrossed
    · exact reaches_inward_iff hpos hi hcrossed

/-- A circuit with two relays, the first of which has the id 3 on its previous connection. -/
def exampleCirc (id : UInt16) : Nat → Circuit
  | 0 => .initCircuitBase true 3 (some { number := 0, identityDigest := exampleDigest 1 }) 0 none 2
  | 1 => .initCircuitBase false id (some { number := 1, identityDigest := exampleDigest 2 }) 3
      (some { number := 0, identityDigest := exampleDigest 0 }) 0
  | _ => .initCircuitBase false 0 none id (some { number := 0, identityDigest := exampleDigest 1 }) 0

def examplePath (id : UInt16) : Path where
  length := 2
  tor j := { globalCircuitlist := [exampleCirc id j], written := [] }
  circ := exampleCirc id
  length_pos := by decide
  listed j _ := List.mem_singleton_self _
  opened j hj := by
    have hcases : j = 0 ∨ j = 1 ∨ j = 2 := by omega
    rcases hcases with rfl | rfl | rfl
    · rfl
    · rfl
    · rfl
  unique j _ := List.pairwise_singleton _ _
  origin := rfl
  relay j hpos hj := by
    have hcases : j = 1 ∨ j = 2 := by omega
    rcases hcases with rfl | rfl
    · rfl
    · rfl
  prev j hpos hj := by
    have hcases : j = 1 ∨ j = 2 := by omega
    rcases hcases with rfl | rfl
    · rfl
    · rfl
  next j hj := by
    have hcases : j = 0 ∨ j = 1 := by omega
    rcases hcases with rfl | rfl
    · rfl
    · rfl
  last := rfl
  apart j hpos hj := by
    have hone : j = 1 := by omega
    rw [hone]
    simp [exampleCirc, Circuit.initCircuitBase]
  ids j hj := by
    have hcases : j = 0 ∨ j = 1 := by omega
    rcases hcases with rfl | rfl
    · rfl
    · rfl

/-- With distinct ids the setup reply of the exit relay gets to the origin. -/
theorem setup_reply_reaches : (examplePath 4).Reaches 2 .inward 3 [] := by
  refine (reaches_iff (examplePath 4) 2 .inward 3 [] ⟨by decide, by decide⟩).mpr
    ⟨nofun, fun _ _ => ⟨by decide, fun j hpos hj => ?_⟩, nofun, nofun⟩
  have hcases : j = 1 ∨ j = 2 := by omega
  rcases hcases with rfl | rfl
  · decide
  · decide

/-- With equal ids at the first relay the setup reply comes back to the exit relay. -/
theorem setup_reply_comes_back :
    ((examplePath 3).deliveries 2 .inward 3 []).map Path.Delivery.node = [2] ∧
    ¬(examplePath 3).Reaches 2 .inward 3 [] := by
  have hnode : ((examplePath 3).deliveries 2 .inward 3 []).map Path.Delivery.node = [2] := by
    decide
  refine ⟨hnode, fun h => ?_⟩
  have horigin := h.backward rfl (by decide)
  rw [hnode] at horigin
  cases horigin

end Path

end BitBlinder.Innomitor
