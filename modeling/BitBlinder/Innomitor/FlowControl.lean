import BitBlinder.Innomitor.EdgeStreams

/-!
# Windows at the two ends of a hop

A layer of an origin circuit and the relay at that hop, with the cells that are
in flight between them. `Flow` is the balance of one direction: what the receiver
has not yet allowed the sender to send again is what is left of the sender's
window, the data on its way and the SENDMEs on their way back. An end that is
closed does not count any more.
-/

namespace BitBlinder.Innomitor

set_option autoImplicit false
set_option maxRecDepth 2048

namespace EdgeCircuit

/-- The data cells for a layer among some cells. -/
def dataTo (layer : Nat) (cells : List (Nat × RelayCell)) : Nat :=
  cells.countP fun sent => sent.1 = layer ∧ sent.2.command = .data

/-- The SENDME cells for the circuit, of a layer, among some cells. -/
def sendmesTo (layer : Nat) (cells : List (Nat × RelayCell)) : Nat :=
  cells.countP fun sent => sent.1 = layer ∧ sent.2.command = .sendme ∧ sent.2.streamId = 0

/-- What an end does by itself at one of its layers, when it puts some cells in its queue. -/
structure Advance (layer : Nat) (edge after : EdgeCircuit) (cells : List (Nat × RelayCell)) : Prop where
  queue : after.cellQueue = edge.cellQueue ++ cells
  packaged : (after.windowsAt layer).packageWindow + dataTo layer cells = (edge.windowsAt layer).packageWindow
  nonneg : 0 ≤ (edge.windowsAt layer).packageWindow → 0 ≤ (after.windowsAt layer).packageWindow
  owed : (edge.windowsAt layer).deliverWindow + CIRCWINDOW_INCREMENT * sendmesTo layer cells ≤
    (after.windowsAt layer).deliverWindow
  exact : after.circ.markedForClose = none →
    (after.windowsAt layer).deliverWindow =
      (edge.windowsAt layer).deliverWindow + CIRCWINDOW_INCREMENT * sendmesTo layer cells
  bounded : (edge.windowsAt layer).deliverWindow ≤ CIRCWINDOW_START →
    (after.windowsAt layer).deliverWindow ≤ CIRCWINDOW_START
  faults : layer ∉ edge.faults → layer ∉ after.faults
  closed : edge.circ.markedForClose ≠ none → after.circ.markedForClose ≠ none

section
variable {closeUnpaid : Bool} {layer : Nat} {edge middle after : EdgeCircuit} {cells more : List (Nat × RelayCell)}

theorem dataTo_append (layer : Nat) (cells more : List (Nat × RelayCell)) :
    dataTo layer (cells ++ more) = dataTo layer cells + dataTo layer more := List.countP_append

theorem sendmesTo_append (layer : Nat) (cells more : List (Nat × RelayCell)) :
    sendmesTo layer (cells ++ more) = sendmesTo layer cells + sendmesTo layer more := List.countP_append

/-- A change that has nothing to do with the layer. -/
theorem Advance.of_same (hqueue : after.cellQueue = edge.cellQueue)
    (hwindows : after.windowsAt layer = edge.windowsAt layer) (hfaults : layer ∉ edge.faults → layer ∉ after.faults)
    (hclosed : edge.circ.markedForClose ≠ none → after.circ.markedForClose ≠ none) : Advance layer edge after [] where
  queue := by rw [hqueue, List.append_nil]
  packaged := by simp [hwindows, dataTo]
  nonneg := by rw [hwindows]; exact id
  owed := by simp [hwindows, sendmesTo]
  exact := by simp [hwindows, sendmesTo]
  bounded := by rw [hwindows]; exact id
  faults := hfaults
  closed := hclosed

theorem Advance.trans (h : Advance layer edge middle cells) (h' : Advance layer middle after more) :
    Advance layer edge after (cells ++ more) where
  queue := by rw [h'.queue, h.queue, List.append_assoc]
  packaged := by
    have hfirst := h.packaged
    have hsecond := h'.packaged
    rw [dataTo_append]
    push_cast
    omega
  nonneg := fun hpositive => h'.nonneg (h.nonneg hpositive)
  owed := by
    have hfirst := h.owed
    have hsecond := h'.owed
    rw [sendmesTo_append]
    push_cast
    rw [mul_add]
    omega
  exact := fun hopen => by
    have hmiddle : middle.circ.markedForClose = none := by
      by_contra hclosed
      exact h'.closed hclosed hopen
    rw [h'.exact hopen, h.exact hmiddle, sendmesTo_append]
    push_cast
    rw [mul_add, add_assoc]
  bounded := fun hbound => h'.bounded (h.bounded hbound)
  faults := fun hfault => h'.faults (h.faults hfault)
  closed := fun hclosed => h'.closed (h.closed hclosed)

theorem not_cut_of_spent {circ : Circuit} (h : Spent closeUnpaid edge.circ circ) (hcut : ¬Cut edge.circ) : ¬Cut circ := by
  unfold Cut at *
  rwa [h.isOrigin, h.nConn]

/-- A cell that could be sent is in the queue; if it could not, the circuit is closed. -/
theorem relaySend_queued (closeUnpaid : Bool) (target : Nat) (cell : RelayCell) (hcut : ¬Cut edge.circ) :
    ∃ circ, Spent closeUnpaid edge.circ circ ∧
      (circ.markedForClose ≠ none ∧
          edge.relaySendCommandFromEdge closeUnpaid target cell = (edge.putCircuit circ, -1) ∨
        edge.relaySendCommandFromEdge closeUnpaid target cell =
          ({ edge with circ := circ, cellQueue := edge.cellQueue ++ [(target, cell)] }, 0)) := by
  obtain ⟨circ, hspent, -, ⟨hclosed, hsend⟩ | ⟨-, hsend⟩⟩ := relaySend_cases closeUnpaid edge target cell
  · exact ⟨circ, hspent, Or.inl ⟨hclosed, hsend⟩⟩
  · rw [if_neg (not_cut_of_spent hspent hcut)] at hsend
    exact ⟨circ, hspent, Or.inr hsend⟩

theorem advance_putCircuit {circ : Circuit} (hspent : Spent closeUnpaid edge.circ circ) :
    Advance layer edge (edge.putCircuit circ) [] := .of_same rfl rfl id hspent.closed

/-- A cell that is neither data nor a SENDME for the circuit. -/
theorem advance_relaySend (target : Nat) (cell : RelayCell) (hcut : ¬Cut edge.circ)
    (hcell : cell.command = .other ∨ cell.command = .sendme ∧ cell.streamId ≠ 0) :
    ∃ cells, Advance layer edge (edge.relaySendCommandFromEdge closeUnpaid target cell).1 cells := by
  obtain ⟨circ, hspent, ⟨-, hsend⟩ | hsend⟩ := relaySend_queued closeUnpaid target cell hcut
  · rw [hsend]
    exact ⟨[], advance_putCircuit hspent⟩
  · rw [hsend]
    have hdata : dataTo layer [(target, cell)] = 0 := by
      rcases hcell with hcommand | ⟨hcommand, -⟩
      · simp [dataTo, hcommand]
      · simp [dataTo, hcommand]
    have hsendme : sendmesTo layer [(target, cell)] = 0 := by
      rcases hcell with hcommand | ⟨-, hstream⟩
      · simp [sendmesTo, hcommand]
      · simp [sendmesTo, hstream]
    exact ⟨_, rfl, by rw [hdata]; exact add_zero _, id, by rw [hsendme]; simp [windowsAt],
      fun _ => by rw [hsendme]; simp [windowsAt], id, id, hspent.closed⟩

/-- If a SENDME is refused, the window has grown all the same, but the circuit is closed. -/
theorem advance_sendSendme (target : Nat) (hlayer : layer < edge.layers.length) (hcut : ¬Cut edge.circ)
    (hlow : (edge.windowsAt target).deliverWindow < CIRCWINDOW_START - CIRCWINDOW_INCREMENT) :
    ∃ cells, Advance layer edge (edge.sendSendme closeUnpaid target).1 cells := by
  unfold sendSendme
  generalize hgrown : (edge.modifyLayer target fun windows =>
    { windows with deliverWindow := windows.deliverWindow + CIRCWINDOW_INCREMENT }) = grown
  have hcirc : grown.circ = edge.circ := hgrown ▸ rfl
  have hqueue : grown.cellQueue = edge.cellQueue := hgrown ▸ rfl
  have hfaults : grown.faults = edge.faults := hgrown ▸ rfl
  have hpackage : (grown.windowsAt layer).packageWindow = (edge.windowsAt layer).packageWindow := by
    rw [← hgrown]
    exact packageWindow_modifyLayer edge target fun _ => rfl
  have hdeliver : (grown.windowsAt layer).deliverWindow =
      (edge.windowsAt layer).deliverWindow + if layer = target then CIRCWINDOW_INCREMENT else 0 := by
    by_cases hsame : layer = target
    · subst hsame
      rw [← hgrown, windowsAt_modifyLayer edge layer layer _ hlayer, if_pos rfl, if_pos rfl]
    · rw [if_neg hsame, add_zero, ← hgrown]
      by_cases htarget : target < edge.layers.length
      · rw [windowsAt_modifyLayer edge target layer _ htarget, if_neg hsame]
      · unfold windowsAt modifyLayer
        rw [List.modify_eq_self (by omega)]
  have hbound : (edge.windowsAt layer).deliverWindow ≤ CIRCWINDOW_START →
      (grown.windowsAt layer).deliverWindow ≤ CIRCWINDOW_START := by
    intro hbound
    rw [hdeliver]
    split
    · rename_i hsame
      rw [hsame]
      omega
    · omega
  have hless : (edge.windowsAt layer).deliverWindow ≤ (grown.windowsAt layer).deliverWindow := by
    rw [hdeliver]
    unfold CIRCWINDOW_INCREMENT
    split
    · omega
    · omega
  obtain ⟨circ, hspent, ⟨hclosed, hsend⟩ | hsend⟩ := relaySend_queued closeUnpaid target
    { command := .sendme, streamId := 0 } (hcirc ▸ hcut)
  · rw [hsend]
    exact ⟨[], by simp [putCircuit, hqueue], by simpa [dataTo, putCircuit, windowsAt] using hpackage,
      fun hpositive => hpackage.symm ▸ hpositive, by simpa [sendmesTo, putCircuit, windowsAt] using hless, fun hopen => absurd hopen hclosed,
      hbound, fun hfault => hfaults ▸ hfault, fun _ => hclosed⟩
  · rw [hsend]
    have hdata : dataTo layer [(target, { command := RelayCommand.sendme, streamId := 0 })] = 0 := by simp [dataTo]
    have hsendme : CIRCWINDOW_INCREMENT * (sendmesTo layer [(target, { command := RelayCommand.sendme, streamId := 0 })] : Int) =
        if layer = target then CIRCWINDOW_INCREMENT else 0 := by
      by_cases hsame : layer = target
      · simp [sendmesTo, hsame]
      · simp [sendmesTo, hsame, Ne.symm hsame]
    refine ⟨_, by rw [← hqueue], by rw [hdata]; exact (add_zero _).trans hpackage,
      fun hpositive => hpackage.symm ▸ hpositive, ?_, fun _ => ?_, hbound, fun hfault => hfaults ▸ hfault,
      fun hclosed => hspent.closed (hcirc ▸ hclosed)⟩
    · rw [hsendme]
      exact hdeliver.ge
    · rw [hsendme]
      exact hdeliver

/-- A data cell is counted in the window, if it could be sent. -/
theorem advance_sendData (target streamId : Nat) (hcut : ¬Cut edge.circ)
    (hpositive : 0 < (edge.windowsAt target).packageWindow) :
    ∃ cells, Advance layer edge (edge.sendData closeUnpaid target streamId) cells := by
  unfold sendData
  obtain ⟨circ, hspent, ⟨-, hsend⟩ | hsend⟩ := relaySend_queued closeUnpaid target
    { command := .data, streamId } hcut
  · rw [hsend]
    exact ⟨[], advance_putCircuit hspent⟩
  · rw [hsend]
    dsimp only
    rw [if_neg (by decide)]
    generalize hqueued : ({ edge with
      circ := circ
      cellQueue := edge.cellQueue ++ [(target, { command := .data, streamId })] } : EdgeCircuit) = queued
    have hsame : ∀ layer, queued.windowsAt layer = edge.windowsAt layer := fun _ => hqueued ▸ rfl
    have hqueue : queued.cellQueue = edge.cellQueue ++ [(target, { command := .data, streamId })] := hqueued ▸ rfl
    have hfaults : queued.faults = edge.faults := hqueued ▸ rfl
    have hcirc : queued.circ = circ := hqueued ▸ rfl
    have hpositive' : 0 < (queued.windowsAt target).packageWindow := (hsame target).symm ▸ hpositive
    rw [packaged_of_positive hpositive']
    have hwindows : (queued.modifyLayer target fun windows =>
        { windows with packageWindow := windows.packageWindow - 1 }).windowsAt layer =
        if layer = target then
          { packageWindow := (edge.windowsAt target).packageWindow - 1
            deliverWindow := (edge.windowsAt target).deliverWindow }
        else edge.windowsAt layer := by
      rw [windowsAt_modifyLayer queued target layer _ (layer_of_positive hpositive'), hsame, hsame]
    have hsendme : sendmesTo layer [(target, { command := RelayCommand.data, streamId })] = 0 := by simp [sendmesTo]
    have hdeliver : (if layer = target then
          { packageWindow := (edge.windowsAt target).packageWindow - 1
            deliverWindow := (edge.windowsAt target).deliverWindow }
        else edge.windowsAt layer).deliverWindow = (edge.windowsAt layer).deliverWindow := by
      split
      · rename_i hsame
        rw [hsame]
      · rfl
    refine ⟨_, hqueue, ?_, ?_, ?_, fun _ => ?_, ?_, fun hfault => hfaults ▸ hfault, fun hclosed => hcirc ▸ hspent.closed hclosed⟩
    · rw [hwindows]
      by_cases hsame : layer = target
      · subst hsame
        simp [dataTo]
      · simp [dataTo, hsame, Ne.symm hsame]
    · intro hnonneg
      rw [hwindows]
      split
      · dsimp only
        omega
      · exact hnonneg
    · rw [hwindows, hdeliver, hsendme]
      simp
    · rw [hwindows, hdeliver, hsendme]
      simp
    · rw [hwindows, hdeliver]
      exact id

/-- Whatever an end does by itself is an advance. -/
theorem Moves.advance (layer : Nat) (h : Moves closeUnpaid edge after) (hlayer : layer < edge.layers.length)
    (hcut : ¬Cut edge.circ) : ∃ cells, Advance layer edge after cells := by
  induction h with
  | refl edge => exact ⟨[], .of_same rfl rfl id id⟩
  | trans hfirst _ ih ih' =>
    obtain ⟨cells, hcells⟩ := ih hlayer hcut
    have hshape := hfirst.sameShape
    obtain ⟨more, hmore⟩ := ih' (hshape.layers ▸ hlayer) (by
      unfold Cut at *
      rwa [hshape.isOrigin, hshape.nConn])
    exact ⟨cells ++ more, hcells.trans hmore⟩
  | stop edge target =>
    unfold considerStopEdgeReading
    split
    · exact ⟨[], .of_same rfl rfl id id⟩
    · exact ⟨[], .of_same rfl rfl id id⟩
  | stream edge j f _ => exact ⟨[], .of_same rfl rfl id id⟩
  | circuit edge circ spent => exact ⟨[], advance_putCircuit spent⟩
  | send edge target cell plain => exact advance_relaySend target cell hcut plain
  | sendme edge target low => exact advance_sendSendme target hlayer hcut low
  | data edge target streamId positive => exact advance_sendData target streamId hcut positive

/-- A SENDME for a stream finds the stream. -/
def Known (layer : Nat) (cell : RelayCell) (edge : EdgeCircuit) : Prop :=
  cell.command = .sendme → cell.streamId ≠ 0 → (edge.relayLookupConn layer cell.streamId).isSome = true

instance (layer : Nat) (cell : RelayCell) (edge : EdgeCircuit) : Decidable (edge.Known layer cell) :=
  inferInstanceAs (Decidable (_ → _ → _))

/-- The windows of a layer after the arrival of a cell. -/
def arrived (cell : RelayCell) (windows : Windows) : Windows where
  packageWindow :=
    windows.packageWindow + if cell.command = .sendme ∧ cell.streamId = 0 then CIRCWINDOW_INCREMENT else 0
  deliverWindow := windows.deliverWindow - if cell.command = .data then 1 else 0

/-- An end with the windows of a layer changed by a cell, and perhaps a fault there. -/
structure Arrival (layer : Nat) (edge after : EdgeCircuit) : Prop where
  queue : after.cellQueue = edge.cellQueue
  shape : SameShape edge after
  closed : edge.circ.markedForClose ≠ none → after.circ.markedForClose ≠ none
  others : ∀ other, other ≠ layer → after.windowsAt other = edge.windowsAt other
  faults : ∀ other, other ≠ layer → other ∉ edge.faults → other ∉ after.faults

theorem Arrival.refl (edge : EdgeCircuit) : Arrival layer edge edge :=
  ⟨rfl, ⟨rfl, rfl, rfl⟩, id, fun _ _ => rfl, fun _ _ => id⟩

theorem Arrival.trans (h : Arrival layer edge middle) (h' : Arrival layer middle after) : Arrival layer edge after where
  queue := h'.queue.trans h.queue
  shape := h.shape.trans h'.shape
  closed := fun hclosed => h'.closed (h.closed hclosed)
  others := fun other hother => (h'.others other hother).trans (h.others other hother)
  faults := fun other hother hfault => h'.faults other hother (h.faults other hother hfault)

theorem arrival_modifyLayer (edge : EdgeCircuit) (f : Windows → Windows) (hlayer : layer < edge.layers.length) :
    Arrival layer edge (edge.modifyLayer layer f) where
  queue := rfl
  shape := modifyLayer_sameShape edge layer f
  closed := id
  others := fun other hother => by rw [windowsAt_modifyLayer edge layer other f hlayer, if_neg hother]
  faults := fun _ _ => id

theorem arrival_fault (edge : EdgeCircuit) : Arrival layer edge { edge with faults := edge.faults ++ [layer] } where
  queue := rfl
  shape := ⟨rfl, rfl, rfl⟩
  closed := id
  others := fun _ _ => rfl
  faults := fun other hother hfault => by
    rw [List.mem_append, List.mem_singleton]
    rintro (hmem | hmem)
    · exact hfault hmem
    · exact hother hmem

theorem arrival_putCircuit (layer : Nat) {circ : Circuit} (hspent : Spent closeUnpaid edge.circ circ) :
    Arrival layer edge (edge.putCircuit circ) :=
  ⟨rfl, ⟨rfl, hspent.isOrigin, hspent.nConn⟩, hspent.closed, fun _ _ => rfl, fun _ _ => id⟩

/-- Processing a cell changes the windows of its layer; the rest is done by moves. -/
theorem process_moves (closeUnpaid outbufTooFull : Bool) (cell : RelayCell) (hlayer : layer < edge.layers.length) :
    ∃ middle, Arrival layer edge middle ∧
      Moves closeUnpaid middle (edge.processRelayCell closeUnpaid outbufTooFull layer cell).1 ∧
      (edge.Known layer cell → (cell.command = .data → 0 < (edge.windowsAt layer).deliverWindow) →
        middle.faults = edge.faults ∧ middle.windowsAt layer = arrived cell (edge.windowsAt layer)) := by
  obtain ⟨command, streamId⟩ := cell
  unfold processRelayCell
  cases command with
  | other => exact ⟨edge, .refl edge, .refl edge, fun _ _ => ⟨rfl, by simp [arrived]⟩⟩
  | sendme =>
    cases hconn : edge.relayLookupConn layer streamId with
    | some j =>
      refine ⟨edge, .refl edge, moves_streamSendme closeUnpaid j edge, fun _ _ => ⟨rfl, ?_⟩⟩
      have hstream : streamId ≠ 0 := by
        rintro rfl
        cases hconn
      simp [arrived, hstream]
    | none =>
      refine ⟨_, arrival_modifyLayer edge _ hlayer, moves_resumeEdgeReading closeUnpaid layer _, fun hknown _ => ⟨rfl, ?_⟩⟩
      have hzero : streamId = 0 := by
        by_contra hstream
        have hfound := hknown rfl hstream
        rw [hconn] at hfound
        cases hfound
      rw [windowsAt_modifyLayer edge layer layer _ hlayer, if_pos rfl]
      simp [arrived, hzero]
  | data =>
    dsimp only
    generalize edge.relayLookupConn layer streamId = conn
    have htake := arrival_modifyLayer edge (fun windows =>
      { windows with deliverWindow := windows.deliverWindow - 1 }) hlayer
    have hwindow := windowsAt_modifyLayer edge layer layer (fun windows =>
      { windows with deliverWindow := windows.deliverWindow - 1 }) hlayer
    rw [if_pos rfl] at hwindow
    have hfaults : (edge.modifyLayer layer fun windows =>
      { windows with deliverWindow := windows.deliverWindow - 1 }).faults = edge.faults := rfl
    unfold processData
    generalize (edge.modifyLayer layer fun windows =>
      { windows with deliverWindow := windows.deliverWindow - 1 }) = taken at htake hwindow hfaults ⊢
    dsimp only
    split
    · rename_i hbelow
      rw [hwindow] at hbelow
      have hreset := arrival_modifyLayer taken (fun windows => { windows with deliverWindow := 0 })
        (htake.shape.layers.symm ▸ hlayer)
      refine ⟨_, (htake.trans hreset).trans (arrival_fault _), ?_, fun _ hpositive => ?_⟩
      · split
        · exact .refl _
        · exact moves_endStream closeUnpaid _ _
      · have hless := hpositive rfl
        dsimp only at hbelow
        omega
    · refine ⟨taken, htake, ?_, fun _ _ => ⟨hfaults, by simpa [arrived] using hwindow⟩⟩
      have hsent := moves_considerSendingSendme closeUnpaid layer taken
      split
      · exact hsent
      · rename_i j
        have hcounted := hsent.trans (moves_streamDeliver closeUnpaid j _)
        split
        · exact hcounted
        · exact hcounted.trans (moves_edgeConsiderSendingSendme closeUnpaid outbufTooFull j _)

/-! ### Both directions of an arrival -/

/-- What a cell does to the end that it comes to: it is processed there, or the end is closed. -/
structure Delivered (layer : Nat) (cell : RelayCell) (edge after : EdgeCircuit) (cells : List (Nat × RelayCell)) :
    Prop where
  queue : after.cellQueue = edge.cellQueue ++ cells
  packaged : (after.windowsAt layer).packageWindow + dataTo layer cells ≤
    (edge.windowsAt layer).packageWindow +
      if cell.command = .sendme ∧ cell.streamId = 0 then CIRCWINDOW_INCREMENT else 0
  packagedExact : after.circ.markedForClose = none →
    (after.windowsAt layer).packageWindow + dataTo layer cells =
      (edge.windowsAt layer).packageWindow +
        if cell.command = .sendme ∧ cell.streamId = 0 then CIRCWINDOW_INCREMENT else 0
  nonneg : 0 ≤ (edge.windowsAt layer).packageWindow → 0 ≤ (after.windowsAt layer).packageWindow
  owed : (edge.windowsAt layer).deliverWindow + CIRCWINDOW_INCREMENT * sendmesTo layer cells ≤
    (after.windowsAt layer).deliverWindow + if cell.command = .data then 1 else 0
  exact : after.circ.markedForClose = none →
    (after.windowsAt layer).deliverWindow + (if cell.command = .data then 1 else 0) =
      (edge.windowsAt layer).deliverWindow + CIRCWINDOW_INCREMENT * sendmesTo layer cells
  bounded : (edge.windowsAt layer).deliverWindow ≤ CIRCWINDOW_START →
    (after.windowsAt layer).deliverWindow ≤ CIRCWINDOW_START
  faults : layer ∉ edge.faults → layer ∉ after.faults
  closed : edge.circ.markedForClose ≠ none → after.circ.markedForClose ≠ none

/-- A cell that an end does not take is lost, and the end is closed. -/
theorem delivered_of_dropped (cell : RelayCell) (h : Advance layer edge after cells)
    (hclosed : after.circ.markedForClose ≠ none) : Delivered layer cell edge after cells where
  queue := h.queue
  packaged := by
    have hpackaged := h.packaged
    unfold CIRCWINDOW_INCREMENT
    split
    · omega
    · omega
  packagedExact := fun hopen => absurd hopen hclosed
  nonneg := h.nonneg
  owed := by
    have howed := h.owed
    split
    · omega
    · omega
  exact := fun hopen => absurd hopen hclosed
  bounded := h.bounded
  faults := h.faults
  closed := fun _ => hclosed

theorem delivered_of_processed {cell : RelayCell} (harrival : Arrival layer edge middle)
    (hwindows : middle.windowsAt layer = arrived cell (edge.windowsAt layer)) (hfaults : middle.faults = edge.faults)
    (h : Advance layer middle after cells) : Delivered layer cell edge after cells := by
  have hpackaged := h.packaged
  have howed := h.owed
  rw [hwindows] at hpackaged howed
  refine ⟨by rw [h.queue, harrival.queue], ?_, fun _ => ?_, fun hnonneg => h.nonneg ?_, ?_, fun hopen => ?_,
    fun hbound => h.bounded ?_, fun hfault => h.faults (hfaults ▸ hfault),
    fun hclosed => h.closed (harrival.closed hclosed)⟩
  · exact hpackaged.le
  · exact hpackaged
  · rw [hwindows]
    unfold arrived CIRCWINDOW_INCREMENT
    dsimp only
    split
    · omega
    · omega
  · unfold arrived at howed
    dsimp only at howed
    omega
  · have hexact := h.exact hopen
    rw [hwindows] at hexact
    unfold arrived at hexact
    dsimp only at hexact
    omega
  · rw [hwindows]
    unfold arrived
    dsimp only
    split
    · omega
    · omega

theorem receive_delivered (closeUnpaid outbufTooFull : Bool) (cell : RelayCell) (hlayer : layer < edge.layers.length)
    (hcut : ¬Cut edge.circ) (hknown : edge.circ.markedForClose = none → edge.Known layer cell)
    (hpositive : cell.command = .data → 0 < (edge.windowsAt layer).deliverWindow) :
    ∃ cells, Delivered layer cell edge (edge.receiveRelayCell closeUnpaid outbufTooFull layer cell) cells := by
  rcases receive_cases closeUnpaid outbufTooFull layer cell edge with
    ⟨hmoves, hclosed⟩ | ⟨circ, hspent, hopen, hput, hmoves⟩
  · obtain ⟨cells, hcells⟩ := hmoves.advance layer hlayer hcut
    exact ⟨cells, delivered_of_dropped cell hcells hclosed⟩
  · have hput' := arrival_putCircuit layer hspent
    obtain ⟨middle, harrival, hprocess, hmiddle⟩ := process_moves closeUnpaid outbufTooFull cell
      (hput'.shape.layers.symm ▸ hlayer)
    have hall := hput'.trans harrival
    obtain ⟨hfaults, hwindows⟩ := hmiddle (by
      rw [hput]
      exact hknown hopen) hpositive
    obtain ⟨cells, hcells⟩ := (hprocess.trans hmoves).advance layer (hall.shape.layers.symm ▸ hlayer) (by
      unfold Cut at *
      rwa [hall.shape.isOrigin, hall.shape.nConn])
    exact ⟨cells, delivered_of_processed hall hwindows hfaults hcells⟩

/-- A cell for another layer. -/
theorem receive_advance (outbufTooFull : Bool) (cell : RelayCell) {target : Nat} (hother : target ≠ layer)
    (hlayer : layer < edge.layers.length) (htarget : target < edge.layers.length) (hcut : ¬Cut edge.circ) :
    ∃ cells, Advance layer edge (edge.receiveRelayCell closeUnpaid outbufTooFull target cell) cells := by
  rcases receive_cases closeUnpaid outbufTooFull target cell edge with
    ⟨hmoves, -⟩ | ⟨circ, hspent, -, -, hmoves⟩
  · exact hmoves.advance layer hlayer hcut
  · have hput := arrival_putCircuit target hspent
    obtain ⟨middle, harrival, hprocess, -⟩ := process_moves closeUnpaid outbufTooFull cell
      (hput.shape.layers.symm ▸ htarget)
    have hall := hput.trans harrival
    obtain ⟨cells, hcells⟩ := (hprocess.trans hmoves).advance layer (hall.shape.layers.symm ▸ hlayer) (by
      unfold Cut at *
      rwa [hall.shape.isOrigin, hall.shape.nConn])
    have hsame : Advance layer edge middle [] :=
      .of_same hall.queue (hall.others layer (Ne.symm hother)) (hall.faults layer (Ne.symm hother)) hall.closed
    exact ⟨[] ++ cells, hsame.trans hcells⟩

theorem not_cut_of_sameShape (h : SameShape edge after) (hcut : ¬Cut edge.circ) : ¬Cut after.circ := by
  unfold Cut at *
  rwa [h.isOrigin, h.nConn]

/-! ### The balance of one direction -/

/-- Data go from layer `a` of the sender to layer `b` of the receiver. -/
structure Flow (a b : Nat) (sender receiver : EdgeCircuit) : Prop where
  nonneg : 0 ≤ (sender.windowsAt a).packageWindow
  bounded : (receiver.windowsAt b).deliverWindow ≤ CIRCWINDOW_START
  owed : (sender.windowsAt a).packageWindow + dataTo a sender.cellQueue +
    CIRCWINDOW_INCREMENT * sendmesTo b receiver.cellQueue ≤ (receiver.windowsAt b).deliverWindow
  exact : sender.circ.markedForClose = none → receiver.circ.markedForClose = none →
    (receiver.windowsAt b).deliverWindow = (sender.windowsAt a).packageWindow + dataTo a sender.cellQueue +
      CIRCWINDOW_INCREMENT * sendmesTo b receiver.cellQueue

variable {a b : Nat} {sender receiver : EdgeCircuit}

theorem Flow.sender_advance (h : Flow a b sender receiver) (hadvance : Advance a sender after cells) :
    Flow a b after receiver := by
  have hpackaged := hadvance.packaged
  have howed := h.owed
  refine ⟨hadvance.nonneg h.nonneg, h.bounded, ?_, fun hopen hopen' => ?_⟩
  · rw [hadvance.queue, dataTo_append]
    push_cast
    omega
  · have hbefore : sender.circ.markedForClose = none := by
      by_contra hclosed
      exact hadvance.closed hclosed hopen
    have hexact := h.exact hbefore hopen'
    rw [hadvance.queue, dataTo_append]
    push_cast
    omega

theorem Flow.receiver_advance (h : Flow a b sender receiver) (hadvance : Advance b receiver after cells) :
    Flow a b sender after := by
  have howed := h.owed
  have hgrown := hadvance.owed
  refine ⟨h.nonneg, hadvance.bounded h.bounded, ?_, fun hopen hopen' => ?_⟩
  · rw [hadvance.queue, sendmesTo_append]
    push_cast
    rw [mul_add]
    omega
  · have hbefore : receiver.circ.markedForClose = none := by
      by_contra hclosed
      exact hadvance.closed hclosed hopen'
    have hexact := h.exact hopen hbefore
    rw [hadvance.exact hopen', hadvance.queue, sendmesTo_append]
    push_cast
    rw [mul_add]
    omega

/-- A cell of the sender comes to the receiver. -/
theorem Flow.receiver_delivered {cell : RelayCell} {rest : List (Nat × RelayCell)} (h : Flow a b sender receiver)
    (hqueue : sender.cellQueue = (a, cell) :: rest) (hdelivered : Delivered b cell receiver after cells) :
    Flow a b { sender with cellQueue := rest } after := by
  have howed := h.owed
  have hgrown := hdelivered.owed
  have hdata : (dataTo a sender.cellQueue : Int) = dataTo a rest + if cell.command = .data then 1 else 0 := by
    rw [hqueue, dataTo, List.countP_cons]
    simp [dataTo]
  rw [hdata] at howed
  refine ⟨h.nonneg, hdelivered.bounded h.bounded, ?_, fun hopen hopen' => ?_⟩
  · rw [hdelivered.queue, sendmesTo_append]
    push_cast
    rw [mul_add]
    dsimp only [windowsAt] at howed hgrown ⊢
    omega
  · have hbefore : receiver.circ.markedForClose = none := by
      by_contra hclosed
      exact hdelivered.closed hclosed hopen'
    have hexact := h.exact hopen hbefore
    have hexact' := hdelivered.exact hopen'
    rw [hdata] at hexact
    rw [hdelivered.queue, sendmesTo_append]
    push_cast
    rw [mul_add]
    dsimp only [windowsAt] at hexact hexact' ⊢
    omega

/-- A cell of the receiver comes to the sender. -/
theorem Flow.sender_delivered {cell : RelayCell} {rest : List (Nat × RelayCell)} (h : Flow a b sender receiver)
    (hqueue : receiver.cellQueue = (b, cell) :: rest) (hdelivered : Delivered a cell sender after cells) :
    Flow a b after { receiver with cellQueue := rest } := by
  have howed := h.owed
  have hpackaged := hdelivered.packaged
  have hsendmes : CIRCWINDOW_INCREMENT * (sendmesTo b receiver.cellQueue : Int) =
      CIRCWINDOW_INCREMENT * sendmesTo b rest +
        if cell.command = .sendme ∧ cell.streamId = 0 then CIRCWINDOW_INCREMENT else 0 := by
    rw [hqueue, sendmesTo, List.countP_cons]
    by_cases hcell : cell.command = .sendme ∧ cell.streamId = 0
    · simp [hcell, sendmesTo, mul_add]
    · simp [hcell, sendmesTo]
  rw [hsendmes] at howed
  refine ⟨hdelivered.nonneg h.nonneg, h.bounded, ?_, fun hopen hopen' => ?_⟩
  · rw [hdelivered.queue, dataTo_append]
    push_cast
    dsimp only [windowsAt] at howed hpackaged ⊢
    omega
  · have hbefore : sender.circ.markedForClose = none := by
      by_contra hclosed
      exact hdelivered.closed hclosed hopen
    have hexact := h.exact hbefore hopen'
    have hexact' := hdelivered.packagedExact hopen
    rw [hsendmes] at hexact
    rw [hdelivered.queue, dataTo_append]
    push_cast
    dsimp only [windowsAt] at hexact hexact' ⊢
    omega

/-- Cells that concern none of the two windows come and go. -/
theorem Flow.of_queues {queue queue' : List (Nat × RelayCell)} (h : Flow a b sender receiver)
    (hdata : dataTo a queue = dataTo a sender.cellQueue) (hsendmes : sendmesTo b queue' = sendmesTo b receiver.cellQueue) :
    Flow a b { sender with cellQueue := queue } { receiver with cellQueue := queue' } := by
  refine ⟨h.nonneg, h.bounded, ?_, fun hopen hopen' => ?_⟩
  · dsimp only
    rw [hdata, hsendmes]
    exact h.owed
  · dsimp only
    rw [hdata, hsendmes]
    exact h.exact hopen hopen'

theorem Flow.positive {cell : RelayCell} {rest : List (Nat × RelayCell)} (h : Flow a b sender receiver)
    (hqueue : sender.cellQueue = (a, cell) :: rest) (hdata : cell.command = .data) :
    0 < (receiver.windowsAt b).deliverWindow := by
  have hnonneg := h.nonneg
  have howed := h.owed
  have hcount : 0 < dataTo a sender.cellQueue := by
    rw [hqueue]
    exact List.countP_pos_iff.mpr ⟨_, List.mem_cons_self, by simp [hdata]⟩
  unfold CIRCWINDOW_INCREMENT at howed
  omega

/-- Both windows of a direction stay within their bounds. -/
theorem Flow.within (h : Flow a b sender receiver) :
    (sender.windowsAt a).packageWindow ≤ CIRCWINDOW_START ∧ 0 ≤ (receiver.windowsAt b).deliverWindow := by
  have hnonneg := h.nonneg
  have hbounded := h.bounded
  have howed := h.owed
  unfold CIRCWINDOW_START CIRCWINDOW_INCREMENT at *
  exact ⟨by omega, by omega⟩

theorem receive_sameShape (closeUnpaid outbufTooFull : Bool) (cell : RelayCell) (hlayer : layer < edge.layers.length) :
    SameShape edge (edge.receiveRelayCell closeUnpaid outbufTooFull layer cell) := by
  rcases receive_cases closeUnpaid outbufTooFull layer cell edge with ⟨hmoves, -⟩ | ⟨circ, hspent, -, -, hmoves⟩
  · exact hmoves.sameShape
  · have hput := arrival_putCircuit layer hspent
    obtain ⟨middle, harrival, hprocess, -⟩ := process_moves closeUnpaid outbufTooFull cell
      (hput.shape.layers.symm ▸ hlayer)
    exact (hput.trans harrival).shape.trans (hprocess.trans hmoves).sameShape

end

end EdgeCircuit

open EdgeCircuit

/-- The action takes a cell of the layer. -/
def EdgeAction.receivesAt (layer : Nat) : EdgeAction → Bool
  | .receive _ other _ => other = layer
  | _ => false

/-- An end acts by itself, and other hops of the path send cells to it. -/
theorem EdgeCircuit.step_advance {closeUnpaid : Bool} {layer : Nat} {edge after : EdgeCircuit} {action : EdgeAction}
    (h : edge.step closeUnpaid action = some after) (hother : action.receivesAt layer = false)
    (hlayer : layer < edge.layers.length) (hcut : ¬Cut edge.circ) :
    SameShape edge after ∧ ∃ cells, Advance layer edge after cells := by
  rcases step_cases closeUnpaid h with
    hmoves | ⟨full, target, cell, rfl, htarget, rfl⟩ | ⟨streamId, target, numbered, -, rfl⟩ | ⟨r, w, -, -, -, hdone⟩
  · exact ⟨hmoves.sameShape, hmoves.advance layer hlayer hcut⟩
  · have hapart : target ≠ layer := by simpa [EdgeAction.receivesAt] using hother
    exact ⟨receive_sameShape closeUnpaid full cell htarget, receive_advance full cell hapart hlayer htarget hcut⟩
  · exact ⟨⟨rfl, rfl, rfl⟩, [], .of_same rfl rfl id id⟩
  · have hshape : SameShape edge (edge.putCircuit (edge.circ.granted r w)) := ⟨rfl, rfl, rfl⟩
    have hgranted : Advance layer edge (edge.putCircuit (edge.circ.granted r w)) [] := .of_same rfl rfl id id
    have hmoves := moves_resumeLayers closeUnpaid _ hdone
    obtain ⟨cells, hcells⟩ := hmoves.advance layer hlayer hcut
    exact ⟨hshape.trans hmoves.sameShape, [] ++ cells, hgranted.trans hcells⟩

/-- A hop: an origin circuit, and the relay at one of its layers. Their queues are the channels
between them. -/
structure Hop where
  origin : EdgeCircuit
  relay : EdgeCircuit

inductive HopAction where
  | atOrigin (action : EdgeAction)
  | atRelay (action : EdgeAction)
  | toRelay (outbufTooFull : Bool)
  | toOrigin (outbufTooFull : Bool)

namespace Hop

/-- The relay is at layer `k` of the path. Cells that the origin sends to other layers go elsewhere,
and cells of other layers come to it at any time. -/
def step (closeUnpaid : Bool) (k : Nat) (hop : Hop) : HopAction → Option Hop
  | .atOrigin action =>
    if action.receivesAt k then none
    else (hop.origin.step closeUnpaid action).map fun origin => { hop with origin }
  | .atRelay action =>
    if action.receivesAt 0 then none
    else (hop.relay.step closeUnpaid action).map fun relay => { hop with relay }
  | .toRelay outbufTooFull =>
    match hop.origin.cellQueue with
    | [] => none
    | (layer, cell) :: rest => some {
        origin := { hop.origin with cellQueue := rest }
        relay := if layer = k then hop.relay.receiveRelayCell closeUnpaid outbufTooFull 0 cell else hop.relay }
  | .toOrigin outbufTooFull =>
    match hop.relay.cellQueue with
    | [] => none
    | (layer, cell) :: rest => some {
        origin := if layer = 0 then hop.origin.receiveRelayCell closeUnpaid outbufTooFull k cell else hop.origin
        relay := { hop.relay with cellQueue := rest } }

/-- No SENDME comes for a stream that its receiver does not know any more. -/
def KnownStreams (k : Nat) (hop : Hop) : HopAction → Prop
  | .toRelay _ => ∀ sent ∈ hop.origin.cellQueue.head?, sent.1 = k →
      hop.relay.circ.markedForClose = none → hop.relay.Known 0 sent.2
  | .toOrigin _ => ∀ sent ∈ hop.relay.cellQueue.head?, sent.1 = 0 →
      hop.origin.circ.markedForClose = none → hop.origin.Known k sent.2
  | _ => True

instance (k : Nat) (hop : Hop) (action : HopAction) : Decidable (hop.KnownStreams k action) :=
  match action with
  | .toRelay _ => inferInstanceAs (Decidable (∀ sent ∈ hop.origin.cellQueue.head?, _ → _ → _))
  | .toOrigin _ => inferInstanceAs (Decidable (∀ sent ∈ hop.relay.cellQueue.head?, _ → _ → _))
  | .atOrigin _ => isTrue trivial
  | .atRelay _ => isTrue trivial

/-- A hop of a circuit that was just built. -/
structure Fresh (k : Nat) (hop : Hop) : Prop where
  origin : hop.origin.circ.isOrigin = true
  connected : hop.origin.circ.nConn.isSome = true
  relay : hop.relay.circ.isOrigin = false
  originWindows : hop.origin.layers[k]? = some ⟨CIRCWINDOW_START, CIRCWINDOW_START⟩
  relayWindows : hop.relay.layers = [⟨CIRCWINDOW_START, CIRCWINDOW_START⟩]
  originQueue : hop.origin.cellQueue = []
  relayQueue : hop.relay.cellQueue = []
  originFaults : hop.origin.faults = []
  relayFaults : hop.relay.faults = []

/-- The windows of both directions are balanced, and nothing went wrong at the layer. -/
structure Balanced (k : Nat) (hop : Hop) : Prop where
  outward : Flow k 0 hop.origin hop.relay
  inward : Flow 0 k hop.relay hop.origin
  originFaults : k ∉ hop.origin.faults
  relayFaults : 0 ∉ hop.relay.faults
  originLayer : k < hop.origin.layers.length
  relayLayer : 0 < hop.relay.layers.length
  originGoes : ¬Cut hop.origin.circ
  relayGoes : ¬Cut hop.relay.circ

section
variable {closeUnpaid : Bool} {k : Nat} {hop after : Hop}

theorem Fresh.balanced (h : hop.Fresh k) : hop.Balanced k := by
  have horigin : hop.origin.windowsAt k = ⟨CIRCWINDOW_START, CIRCWINDOW_START⟩ := by
    rw [windowsAt, h.originWindows, Option.getD_some]
  have hrelay : hop.relay.windowsAt 0 = ⟨CIRCWINDOW_START, CIRCWINDOW_START⟩ := by
    rw [windowsAt, h.relayWindows]
    rfl
  have hflow : ∀ {a b : Nat} {sender receiver : EdgeCircuit},
      sender.windowsAt a = ⟨CIRCWINDOW_START, CIRCWINDOW_START⟩ →
      receiver.windowsAt b = ⟨CIRCWINDOW_START, CIRCWINDOW_START⟩ →
      sender.cellQueue = [] → receiver.cellQueue = [] → Flow a b sender receiver := by
    intro a b sender receiver hsender hreceiver hqueue hqueue'
    refine ⟨?_, ?_, ?_, fun _ _ => ?_⟩
    · rw [hsender]
      decide
    · rw [hreceiver]
    · rw [hsender, hreceiver, hqueue, hqueue']
      simp [dataTo, sendmesTo]
    · rw [hsender, hreceiver, hqueue, hqueue']
      simp [dataTo, sendmesTo]
  refine ⟨hflow horigin hrelay h.originQueue h.relayQueue, hflow hrelay horigin h.relayQueue h.originQueue, ?_, ?_,
    ?_, ?_, ?_, ?_⟩
  · rw [h.originFaults]
    exact List.not_mem_nil
  · rw [h.relayFaults]
    exact List.not_mem_nil
  · exact (List.getElem?_eq_some_iff.mp h.originWindows).1
  · rw [h.relayWindows]
    exact Nat.one_pos
  · rintro ⟨-, hnone⟩
    have hconnected := h.connected
    rw [hnone] at hconnected
    cases hconnected
  · rintro ⟨horigin, -⟩
    rw [h.relay] at horigin
    cases horigin

theorem Balanced.atOrigin {origin : EdgeCircuit} {cells : List (Nat × RelayCell)} (h : hop.Balanced k)
    (hshape : SameShape hop.origin origin) (hadvance : Advance k hop.origin origin cells) :
    Balanced k { hop with origin } where
  outward := h.outward.sender_advance hadvance
  inward := h.inward.receiver_advance hadvance
  originFaults := hadvance.faults h.originFaults
  relayFaults := h.relayFaults
  originLayer := hshape.layers.symm ▸ h.originLayer
  relayLayer := h.relayLayer
  originGoes := not_cut_of_sameShape hshape h.originGoes
  relayGoes := h.relayGoes

theorem Balanced.atRelay {relay : EdgeCircuit} {cells : List (Nat × RelayCell)} (h : hop.Balanced k)
    (hshape : SameShape hop.relay relay) (hadvance : Advance 0 hop.relay relay cells) :
    Balanced k { hop with relay } where
  outward := h.outward.receiver_advance hadvance
  inward := h.inward.sender_advance hadvance
  originFaults := h.originFaults
  relayFaults := hadvance.faults h.relayFaults
  originLayer := h.originLayer
  relayLayer := hshape.layers.symm ▸ h.relayLayer
  originGoes := h.originGoes
  relayGoes := not_cut_of_sameShape hshape h.relayGoes

theorem dataTo_other {a layer : Nat} (hother : layer ≠ a) (cell : RelayCell) (rest : List (Nat × RelayCell)) :
    dataTo a ((layer, cell) :: rest) = dataTo a rest := by
  simp [dataTo, hother]

theorem sendmesTo_other {a layer : Nat} (hother : layer ≠ a) (cell : RelayCell) (rest : List (Nat × RelayCell)) :
    sendmesTo a ((layer, cell) :: rest) = sendmesTo a rest := by
  simp [sendmesTo, hother]

/-- Each step keeps the balance, if it brings no SENDME for an unknown stream. -/
theorem step_balanced {action : HopAction} (h : hop.Balanced k) (hknown : hop.KnownStreams k action)
    (hstep : hop.step closeUnpaid k action = some after) : after.Balanced k := by
  cases action with
  | atOrigin action =>
    obtain ⟨hother, hmap⟩ := Option.ite_none_left_eq_some.mp hstep
    obtain ⟨origin, horigin, rfl⟩ := Option.map_eq_some_iff.mp hmap
    obtain ⟨hshape, cells, hcells⟩ := step_advance horigin (by simpa using hother) h.originLayer h.originGoes
    exact h.atOrigin hshape hcells
  | atRelay action =>
    obtain ⟨hother, hmap⟩ := Option.ite_none_left_eq_some.mp hstep
    obtain ⟨relay, hrelay, rfl⟩ := Option.map_eq_some_iff.mp hmap
    obtain ⟨hshape, cells, hcells⟩ := step_advance hrelay (by simpa using hother) h.relayLayer h.relayGoes
    exact h.atRelay hshape hcells
  | toRelay outbufTooFull =>
    unfold step at hstep
    dsimp only at hstep
    split at hstep
    · cases hstep
    · rename_i layer cell rest hqueue
      obtain rfl := Option.some.inj hstep
      by_cases hlayer : layer = k
      · subst hlayer
        rw [if_pos rfl]
        obtain ⟨cells, hcells⟩ := receive_delivered closeUnpaid outbufTooFull cell h.relayLayer
          h.relayGoes (hknown (layer, cell) (by rw [hqueue]; rfl) rfl) (h.outward.positive hqueue)
        have hshape := receive_sameShape closeUnpaid outbufTooFull cell h.relayLayer
        exact ⟨h.outward.receiver_delivered hqueue hcells, h.inward.sender_delivered hqueue hcells, h.originFaults,
          hcells.faults h.relayFaults, h.originLayer, hshape.layers.symm ▸ h.relayLayer, h.originGoes,
          not_cut_of_sameShape hshape h.relayGoes⟩
      · rw [if_neg hlayer]
        exact ⟨h.outward.of_queues (by rw [hqueue, dataTo_other hlayer]) rfl,
          h.inward.of_queues rfl (by rw [hqueue, sendmesTo_other hlayer]), h.originFaults, h.relayFaults,
          h.originLayer, h.relayLayer, h.originGoes, h.relayGoes⟩
  | toOrigin outbufTooFull =>
    unfold step at hstep
    dsimp only at hstep
    split at hstep
    · cases hstep
    · rename_i layer cell rest hqueue
      obtain rfl := Option.some.inj hstep
      by_cases hlayer : layer = 0
      · subst hlayer
        rw [if_pos rfl]
        obtain ⟨cells, hcells⟩ := receive_delivered closeUnpaid outbufTooFull cell h.originLayer
          h.originGoes (hknown (0, cell) (by rw [hqueue]; rfl) rfl) (h.inward.positive hqueue)
        have hshape := receive_sameShape closeUnpaid outbufTooFull cell h.originLayer
        exact ⟨h.outward.sender_delivered hqueue hcells, h.inward.receiver_delivered hqueue hcells,
          hcells.faults h.originFaults, h.relayFaults, hshape.layers.symm ▸ h.originLayer, h.relayLayer,
          not_cut_of_sameShape hshape h.originGoes, h.relayGoes⟩
      · rw [if_neg hlayer]
        exact ⟨h.outward.of_queues rfl (by rw [hqueue, sendmesTo_other hlayer]),
          h.inward.of_queues (by rw [hqueue, dataTo_other hlayer]) rfl, h.originFaults, h.relayFaults,
          h.originLayer, h.relayLayer, h.originGoes, h.relayGoes⟩

end

/-- A receiver's window is what is left of the sender's, the data in flight and the SENDMEs in
flight, each for as many cells as it allows. -/
structure Equal (k : Nat) (hop : Hop) : Prop where
  outward : (hop.relay.windowsAt 0).deliverWindow = (hop.origin.windowsAt k).packageWindow +
    dataTo k hop.origin.cellQueue + CIRCWINDOW_INCREMENT * sendmesTo 0 hop.relay.cellQueue
  inward : (hop.origin.windowsAt k).deliverWindow = (hop.relay.windowsAt 0).packageWindow +
    dataTo 0 hop.relay.cellQueue + CIRCWINDOW_INCREMENT * sendmesTo k hop.origin.cellQueue

/-- The windows are never more than at the start or less than nothing, and neither an assertion nor
the test for a negative window ever failed. -/
structure InBounds (k : Nat) (hop : Hop) : Prop where
  windows : ∀ windows ∈ [hop.origin.windowsAt k, hop.relay.windowsAt 0],
    0 ≤ windows.packageWindow ∧ windows.packageWindow ≤ CIRCWINDOW_START ∧
    0 ≤ windows.deliverWindow ∧ windows.deliverWindow ≤ CIRCWINDOW_START
  origin : k ∉ hop.origin.faults
  relay : 0 ∉ hop.relay.faults

/-- As long as no SENDME comes for an unknown stream, the windows of a hop are in their bounds, and
they are balanced until one of its ends is closed. -/
theorem windows_consistent (closeUnpaid : Bool) (k : Nat) {start hop : Hop} {actions : List HopAction}
    (hfresh : start.Fresh k) (hrun : Run (step closeUnpaid k) (KnownStreams k) start actions hop) :
    (hop.origin.circ.markedForClose = none → hop.relay.circ.markedForClose = none → hop.Equal k) ∧
      hop.InBounds k := by
  have hbalanced : hop.Balanced k :=
    hrun.invariant (fun h hknown hstep => step_balanced h hknown hstep) hfresh.balanced
  have houtward := hbalanced.outward.within
  have hinward := hbalanced.inward.within
  refine ⟨fun horigin hrelay => ?_, ?_, hbalanced.originFaults, hbalanced.relayFaults⟩
  · exact ⟨hbalanced.outward.exact horigin hrelay, hbalanced.inward.exact hrelay horigin⟩
  · intro windows hwindows
    rw [List.mem_cons, List.mem_singleton] at hwindows
    rcases hwindows with rfl | rfl
    · exact ⟨hbalanced.outward.nonneg, houtward.1, hinward.2, hbalanced.inward.bounded⟩
    · exact ⟨hbalanced.inward.nonneg, hinward.1, houtward.2, hbalanced.outward.bounded⟩

def exampleHop : Hop where
  origin := {
    circ := Circuit.initCircuitBase true 5 (some ⟨1, []⟩) 0 none 1
    layers := [⟨CIRCWINDOW_START, CIRCWINDOW_START⟩], streams := [], cellQueue := [], faults := [] }
  relay := {
    circ := Circuit.initCircuitBase false 0 none 5 (some ⟨0, []⟩) 0
    layers := [⟨CIRCWINDOW_START, CIRCWINDOW_START⟩], streams := [], cellQueue := [], faults := [] }

theorem exampleHop_fresh : exampleHop.Fresh 0 := ⟨rfl, rfl, rfl, rfl, rfl, rfl, rfl, rfl, rfl⟩

/-- The relay sends so much data that a SENDME for the stream comes back. -/
def streamSendme : List HopAction :=
  [.atOrigin (.attach 1 0), .atRelay (.attach 1 0), .atRelay (.addtokens 1000 1000), .atRelay (.read 0 (51 * 498))] ++
    List.replicate 51 (.toOrigin false)

theorem example_windows_consistent : ∃ hop,
    Run (step true 0) (KnownStreams 0) exampleHop (streamSendme ++ [.toRelay false]) hop ∧
      hop.Equal 0 ∧ hop.InBounds 0 := by
  have hend : (exec (step true 0) exampleHop (streamSendme ++ [.toRelay false])).any (fun hop => decide
      (hop.origin.circ.markedForClose = none ∧ hop.relay.circ.markedForClose = none)) = true := by
    decide
  have hknown : EachStep (step true 0) (KnownStreams 0) exampleHop (streamSendme ++ [.toRelay false]) := by
    decide
  obtain ⟨hop, hrun, hopen⟩ := exists_run hend hknown
  obtain ⟨horigin, hrelay⟩ := of_decide_eq_true hopen
  obtain ⟨hequal, hbounds⟩ := windows_consistent true 0 exampleHop_fresh hrun
  exact ⟨hop, hrun, hequal horigin hrelay, hbounds⟩

/-- The stream is closed when its SENDME arrives, which then counts as one for the circuit. -/
theorem stray_sendme_widens_window : ∃ hop,
    Run (step true 0) (fun _ _ => True) exampleHop
        (streamSendme ++ [.atRelay (.endStream 0), .toRelay false]) hop ∧
      hop.origin.circ.markedForClose = none ∧ hop.relay.circ.markedForClose = none ∧
      ¬hop.Equal 0 ∧ ¬hop.InBounds 0 := by
  have hend : (exec (step true 0) exampleHop (streamSendme ++ [.atRelay (.endStream 0), .toRelay false])).any
      (fun hop => decide (hop.origin.circ.markedForClose = none ∧ hop.relay.circ.markedForClose = none ∧
        (hop.relay.windowsAt 0).packageWindow = 1049 ∧ (hop.origin.windowsAt 0).deliverWindow = 949)) = true := by
    decide
  obtain ⟨hop, hrun, hwindows⟩ := exists_run hend (eachStep_true _ _)
  obtain ⟨horigin, hrelay, hpackage, hdeliver⟩ := of_decide_eq_true hwindows
  refine ⟨hop, hrun, horigin, hrelay, fun hequal => ?_, fun hbounds => ?_⟩
  · have hinward := hequal.inward
    rw [hpackage, hdeliver] at hinward
    unfold CIRCWINDOW_INCREMENT at hinward
    omega
  · have hwithin := hbounds.windows (hop.relay.windowsAt 0) (List.mem_cons_of_mem _ List.mem_cons_self)
    rw [hpackage] at hwithin
    exact absurd hwithin.2.1 (by decide)

end Hop

end BitBlinder.Innomitor
