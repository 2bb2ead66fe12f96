import BitBlinder.Innomitor.FlowControl
import BitBlinder.Innomitor.WakeUps

/-!
# Data for streams that are not there

The case of DATA in `connection_edge_process_relay_cell` counts the cell in the
window of its layer before it looks whether there is a stream, and ends the
stream when the window falls below zero. `receiveEnds` is the pointer that
`connection_edge_end` and `connection_mark_for_close` get from it.
-/

namespace BitBlinder.Innomitor

set_option autoImplicit false

namespace EdgeCircuit

/-- What the case of DATA hands to `connection_edge_end`, when it calls it; `none` is NULL. -/
def dataEnds (layer : Nat) (conn : Option Nat) (edge : EdgeCircuit) : Option (Option Nat) :=
  let edge := edge.modifyLayer layer fun windows => { windows with deliverWindow := windows.deliverWindow - 1 }
  if (edge.windowsAt layer).deliverWindow < 0 then some conn else none

/-- The cell gets to `connection_edge_process_relay_cell`. -/
def Processed (closeUnpaid : Bool) (edge : EdgeCircuit) : Prop :=
  edge.circ.markedForClose = none ∧ ¬(edge.circ.charge closeUnpaid edge.receiveDirection).Unpaid

instance (closeUnpaid : Bool) (edge : EdgeCircuit) : Decidable (edge.Processed closeUnpaid) :=
  inferInstanceAs (Decidable (_ ∧ _))

/-- The circuit as the cell finds it there. -/
def delivering (closeUnpaid : Bool) (edge : EdgeCircuit) : EdgeCircuit :=
  edge.putCircuit ((edge.circ.charge closeUnpaid edge.receiveDirection).record (.delivered edge.receiveDirection))

/-- The same for a cell that arrives. -/
def receiveEnds (closeUnpaid : Bool) (layer : Nat) (cell : RelayCell) (edge : EdgeCircuit) : Option (Option Nat) :=
  if edge.Processed closeUnpaid ∧ cell.command = .data then
    let edge := edge.delivering closeUnpaid
    edge.dataEnds layer (edge.relayLookupConn layer cell.streamId)
  else none

/-- No NULL pointer is used, and a cell that is counted leaves a window that is not negative. -/
def DataSafe (closeUnpaid : Bool) (edge : EdgeCircuit) : EdgeAction → Prop
  | .receive outbufTooFull layer cell =>
    edge.receiveEnds closeUnpaid layer cell ≠ some none ∧
      (edge.Processed closeUnpaid → cell.command = .data →
        0 ≤ ((edge.receiveRelayCell closeUnpaid outbufTooFull layer cell).windowsAt layer).deliverWindow)
  | _ => True

/-- A data cell for a stream that is not there finds room in the window. -/
def Spare (closeUnpaid : Bool) (edge : EdgeCircuit) : EdgeAction → Prop
  | .receive _ layer cell =>
    cell.command = .data → edge.Processed closeUnpaid → edge.relayLookupConn layer cell.streamId = none →
      0 < (edge.windowsAt layer).deliverWindow
  | _ => True

instance (closeUnpaid : Bool) (edge : EdgeCircuit) (action : EdgeAction) : Decidable (edge.Spare closeUnpaid action) :=
  match action with
  | .receive _ _ _ => inferInstanceAs (Decidable (_ → _ → _ → _))
  | .read _ _ | .flushed _ _ | .addtokens _ _ | .send _ _ | .pass _ | .attach _ _ | .endStream _ | .close _ =>
    isTrue trivial

section
variable {closeUnpaid : Bool} {layer : Nat} {edge after : EdgeCircuit}

/-! ### The window of a layer -/

theorem deliverWindow_modifyLayer_le (edge : EdgeCircuit) (target layer : Nat) {f : Windows → Windows}
    (hf : ∀ windows, windows.deliverWindow ≤ (f windows).deliverWindow) :
    (edge.windowsAt layer).deliverWindow ≤ ((edge.modifyLayer target f).windowsAt layer).deliverWindow := by
  unfold windowsAt modifyLayer
  rw [List.getElem?_modify]
  cases edge.layers[layer]? with
  | none => exact le_rfl
  | some windows =>
    dsimp only [Option.map_eq_map, Option.map_some, Option.getD_some]
    split
    · exact hf windows
    · exact le_rfl

theorem windowsAt_relaySend (closeUnpaid : Bool) (edge : EdgeCircuit) (target layer : Nat) (cell : RelayCell) :
    (edge.relaySendCommandFromEdge closeUnpaid target cell).1.windowsAt layer = edge.windowsAt layer := by
  obtain ⟨circ, -, -, ⟨-, hsend⟩ | ⟨-, hsend⟩⟩ := relaySend_cases closeUnpaid edge target cell
  · rw [hsend]
    rfl
  · rw [hsend]
    rfl

theorem deliverWindow_packaged_le (edge : EdgeCircuit) (target layer : Nat) :
    (edge.windowsAt layer).deliverWindow ≤ ((edge.packaged target).windowsAt layer).deliverWindow := by
  unfold packaged
  dsimp only
  split
  · exact deliverWindow_modifyLayer_le edge target layer fun _ => le_rfl
  · exact deliverWindow_modifyLayer_le { edge with faults := edge.faults ++ [target] } target layer fun _ => le_rfl

/-- What an end does by itself takes nothing from a window. -/
theorem Moves.deliverWindow_le (h : Moves closeUnpaid edge after) (layer : Nat) :
    (edge.windowsAt layer).deliverWindow ≤ (after.windowsAt layer).deliverWindow := by
  induction h with
  | refl edge => exact le_rfl
  | trans _ _ ih ih' => exact ih.trans ih'
  | stop edge target =>
    unfold considerStopEdgeReading
    split
    · exact le_rfl
    · exact le_rfl
  | stream edge j f _ => exact le_rfl
  | circuit edge circ _ => exact le_rfl
  | send edge target cell _ => rw [windowsAt_relaySend]
  | sendme edge target _ =>
    unfold sendSendme
    rw [windowsAt_relaySend]
    apply deliverWindow_modifyLayer_le
    intro windows
    unfold CIRCWINDOW_INCREMENT
    dsimp only
    omega
  | data edge target streamId _ =>
    have hsend := windowsAt_relaySend closeUnpaid edge target layer { command := .data, streamId }
    unfold sendData
    split
    rename_i sent result heq
    rw [heq] at hsend
    split
    · rw [hsend]
    · rw [← hsend]
      exact deliverWindow_packaged_le sent target layer

/-- The layer of a data cell is not left with a negative window, whatever it was before. -/
theorem processData_nonneg (closeUnpaid outbufTooFull : Bool) (conn : Option Nat) (hlayer : layer < edge.layers.length) :
    0 ≤ ((edge.processData closeUnpaid outbufTooFull layer conn).1.windowsAt layer).deliverWindow := by
  unfold processData
  generalize htaken : (edge.modifyLayer layer fun windows =>
    { windows with deliverWindow := windows.deliverWindow - 1 }) = taken
  have hlayer' : layer < taken.layers.length := by
    rw [← htaken, (modifyLayer_sameShape edge layer _).layers]
    exact hlayer
  dsimp only
  split
  · have hreset : ((({ taken.modifyLayer layer (fun windows => { windows with deliverWindow := 0 }) with
        faults := taken.faults ++ [layer] } : EdgeCircuit)).windowsAt layer).deliverWindow = 0 := by
      have hwindow := windowsAt_modifyLayer taken layer layer (fun windows => { windows with deliverWindow := 0 }) hlayer'
      rw [if_pos rfl] at hwindow
      exact congrArg Windows.deliverWindow hwindow
    split
    · exact hreset.ge
    · exact hreset.ge.trans ((moves_endStream closeUnpaid _ _).deliverWindow_le layer)
  · rename_i hroom
    have hsent := (moves_considerSendingSendme closeUnpaid layer taken).deliverWindow_le layer
    have hnonneg : 0 ≤ (taken.windowsAt layer).deliverWindow := by omega
    split
    · exact hnonneg.trans hsent
    · split
      · exact hnonneg.trans hsent
      · refine (hnonneg.trans hsent).trans ?_
        exact ((moves_streamDeliver closeUnpaid _ _).trans
          (moves_edgeConsiderSendingSendme closeUnpaid outbufTooFull _ _)).deliverWindow_le layer

theorem processRelayCell_nonneg (closeUnpaid outbufTooFull : Bool) (cell : RelayCell) (hlayer : layer < edge.layers.length)
    (hcount : cell.command = .data ∨ 0 ≤ (edge.windowsAt layer).deliverWindow) :
    0 ≤ ((edge.processRelayCell closeUnpaid outbufTooFull layer cell).1.windowsAt layer).deliverWindow := by
  obtain ⟨command, streamId⟩ := cell
  cases command with
  | data => exact processData_nonneg closeUnpaid outbufTooFull _ hlayer
  | other => exact hcount.resolve_left nofun
  | sendme =>
    have hnonneg := hcount.resolve_left nofun
    change 0 ≤ ((edge.processSendme closeUnpaid layer _).windowsAt layer).deliverWindow
    unfold processSendme
    split
    · refine (hnonneg.trans (deliverWindow_modifyLayer_le edge layer layer fun _ => ?_)).trans
        ((moves_resumeEdgeReading closeUnpaid layer _).deliverWindow_le layer)
      exact le_rfl
    · exact hnonneg.trans ((moves_streamSendme closeUnpaid _ edge).deliverWindow_le layer)

theorem receive_processed (outbufTooFull : Bool) (cell : RelayCell) (h : edge.Processed closeUnpaid) :
    Moves closeUnpaid ((edge.delivering closeUnpaid).processRelayCell closeUnpaid outbufTooFull layer cell).1
      (edge.receiveRelayCell closeUnpaid outbufTooFull layer cell) := by
  unfold receiveRelayCell
  rw [if_neg (by rw [h.1]; exact Bool.false_ne_true)]
  dsimp only
  rw [if_neg h.2]
  unfold delivering
  generalize processRelayCell closeUnpaid outbufTooFull layer cell _ = processed
  obtain ⟨middle, reason⟩ := processed
  dsimp only
  split
  · exact .circuit middle _ (spent_markForClose closeUnpaid _ _)
  · exact .refl middle

theorem receive_counted (outbufTooFull : Bool) {cell : RelayCell} (h : edge.Processed closeUnpaid)
    (hdata : cell.command = .data) (hlayer : layer < edge.layers.length) :
    0 ≤ ((edge.receiveRelayCell closeUnpaid outbufTooFull layer cell).windowsAt layer).deliverWindow := by
  have hlayer' : layer < (edge.delivering closeUnpaid).layers.length := hlayer
  have hcounted := processRelayCell_nonneg closeUnpaid outbufTooFull cell hlayer' (Or.inl hdata)
  exact hcounted.trans ((receive_processed outbufTooFull cell h).deliverWindow_le layer)

/-- No window of an end is negative. -/
def Nonneg (edge : EdgeCircuit) : Prop := ∀ layer, 0 ≤ (edge.windowsAt layer).deliverWindow

theorem Moves.nonneg (h : Moves closeUnpaid edge after) (hnonneg : edge.Nonneg) : after.Nonneg :=
  fun layer => (hnonneg layer).trans (h.deliverWindow_le layer)

theorem receive_nonneg (outbufTooFull : Bool) (cell : RelayCell) (hlayer : layer < edge.layers.length)
    (h : edge.Nonneg) : (edge.receiveRelayCell closeUnpaid outbufTooFull layer cell).Nonneg := by
  rcases receive_cases closeUnpaid outbufTooFull layer cell edge with ⟨hmoves, -⟩ | ⟨circ, hspent, -, -, hmoves⟩
  · exact hmoves.nonneg h
  · refine hmoves.nonneg fun other => ?_
    by_cases hsame : other = layer
    · subst hsame
      exact processRelayCell_nonneg closeUnpaid outbufTooFull cell hlayer (Or.inr (h other))
    · have hlayer' : layer < (edge.putCircuit circ).layers.length := hlayer
      obtain ⟨middle, harrival, hprocess, -⟩ := process_moves closeUnpaid outbufTooFull cell hlayer'
      have hother := harrival.others other hsame
      exact ((h other).trans_eq (congrArg Windows.deliverWindow hother.symm)).trans (hprocess.deliverWindow_le other)

theorem step_nonneg {action : EdgeAction} (h : edge.Nonneg) (hstep : edge.step closeUnpaid action = some after) :
    after.Nonneg := by
  rcases step_cases closeUnpaid hstep with hmoves | ⟨outbufTooFull, layer, cell, rfl, hlayer, rfl⟩ |
    ⟨streamId, layer, numbered, rfl, rfl⟩ | ⟨r, w, rfl, hr, hopen, hdone⟩
  · exact hmoves.nonneg h
  · exact receive_nonneg outbufTooFull cell hlayer h
  · exact h
  · exact (moves_resumeLayers closeUnpaid _ hdone).nonneg h

/-! ### The stream of a data cell -/

theorem dataEnds_eq_null (hlayer : layer < edge.layers.length) (conn : Option Nat) :
    edge.dataEnds layer conn = some none ↔ (edge.windowsAt layer).deliverWindow ≤ 0 ∧ conn = none := by
  have hwindow := windowsAt_modifyLayer edge layer layer (fun windows =>
    { windows with deliverWindow := windows.deliverWindow - 1 }) hlayer
  rw [if_pos rfl] at hwindow
  unfold dataEnds
  dsimp only
  rw [hwindow, Option.ite_none_right_eq_some, Option.some.injEq]
  dsimp only
  constructor
  · rintro ⟨hbelow, hconn⟩
    exact ⟨by omega, hconn⟩
  · rintro ⟨hbelow, hconn⟩
    exact ⟨by omega, hconn⟩

theorem delivering_eq (closeUnpaid : Bool) (edge : EdgeCircuit) : edge.delivering closeUnpaid =
    { edge with circ := (edge.circ.charge closeUnpaid edge.receiveDirection).record (.delivered edge.receiveDirection) } :=
  putCircuit_of_same (charge_markedForClose_eq closeUnpaid _ edge.circ)

/-- What the case of DATA does when it ends a stream. -/
theorem processData_of_ends (outbufTooFull : Bool) {conn ended : Option Nat} (h : edge.dataEnds layer conn = some ended) :
    ended = conn ∧ (edge.processData closeUnpaid outbufTooFull layer conn).2 = -END_CIRC_REASON_TORPROTOCOL := by
  obtain ⟨hbelow, hconn⟩ := Option.ite_none_right_eq_some.mp h
  refine ⟨(Option.some.inj hconn).symm, ?_⟩
  unfold processData
  dsimp only at hbelow ⊢
  rw [if_pos hbelow]
  cases conn with
  | none => rfl
  | some j => rfl

theorem receiveEnds_eq_null (cell : RelayCell) (hlayer : layer < edge.layers.length) :
    edge.receiveEnds closeUnpaid layer cell = some none ↔
      cell.command = .data ∧ edge.Processed closeUnpaid ∧ edge.relayLookupConn layer cell.streamId = none ∧
        (edge.windowsAt layer).deliverWindow ≤ 0 := by
  unfold receiveEnds
  rw [Option.ite_none_right_eq_some]
  constructor
  · rintro ⟨⟨hprocessed, hdata⟩, hends⟩
    rw [delivering_eq] at hends
    obtain ⟨hwindow, hconn⟩ := (dataEnds_eq_null hlayer _).mp hends
    exact ⟨hdata, hprocessed, hconn, hwindow⟩
  · rintro ⟨hdata, hprocessed, hconn, hwindow⟩
    refine ⟨⟨hprocessed, hdata⟩, ?_⟩
    rw [delivering_eq]
    exact (dataEnds_eq_null hlayer _).mpr ⟨hwindow, hconn⟩

theorem dataSafe_iff_spare {action : EdgeAction} (hstep : edge.step closeUnpaid action = some after) :
    edge.DataSafe closeUnpaid action ↔ edge.Spare closeUnpaid action := by
  cases action with
  | receive outbufTooFull layer cell =>
    obtain ⟨hlayer, -⟩ := Option.ite_none_right_eq_some.mp hstep
    simp only [DataSafe, Spare, ne_eq, receiveEnds_eq_null cell hlayer]
    constructor
    · rintro ⟨hnull, -⟩ hdata hprocessed hconn
      by_contra hwindow
      exact hnull ⟨hdata, hprocessed, hconn, by omega⟩
    · intro hspare
      refine ⟨?_, fun hprocessed hdata => receive_counted outbufTooFull hprocessed hdata hlayer⟩
      rintro ⟨hdata, hprocessed, hconn, hwindow⟩
      have hroom := hspare hdata hprocessed hconn
      omega
  | read _ _ | flushed _ _ | addtokens _ _ | send _ _ | pass _ | attach _ _ | endStream _ | close _ => exact Iff.rfl

end

/-- Data cells are safe in a run exactly when those for absent streams come while there is room in
the window of their layer. No window becomes negative in any case. -/
theorem dataSafe_iff (closeUnpaid : Bool) {start edge : EdgeCircuit} {actions : List EdgeAction}
    (hrun : Run (step closeUnpaid) (fun _ _ => True) start actions edge) :
    (EachStep (step closeUnpaid) (DataSafe closeUnpaid) start actions ↔
      EachStep (step closeUnpaid) (Spare closeUnpaid) start actions) ∧
    (start.Nonneg → edge.Nonneg) := by
  refine ⟨?_, hrun.invariant fun h _ hstep => step_nonneg h hstep⟩
  exact hrun.eachStep_iff (I := fun _ => True) (fun _ hstep => dataSafe_iff_spare hstep) (fun _ _ => trivial) trivial

/-- A relay on a new circuit, and a cell for a stream that it does not have. -/
def exampleRelay : EdgeCircuit := initial false 0 none 5 (some ⟨0, []⟩) 0

def strayData : EdgeAction := .receive false 0 { command := .data, streamId := 7 }

theorem example_dataSafe : ∃ edge, Run (step true) (fun _ _ => True) exampleRelay
      [strayData, .attach 7 0, strayData, .addtokens 1000 1000, strayData] edge ∧
    EachStep (step true) (DataSafe true) exampleRelay
      [strayData, .attach 7 0, strayData, .addtokens 1000 1000, strayData] := by
  have hend : (exec (step true) exampleRelay
      [strayData, .attach 7 0, strayData, .addtokens 1000 1000, strayData]).any (fun _ => true) = true := by
    decide
  obtain ⟨edge, hrun, -⟩ := exists_run hend (eachStep_true _ _)
  exact ⟨edge, hrun, (dataSafe_iff true hrun).1.mpr (by decide)⟩

/-- The window and the tokens go down together, so no SENDME is sent, and the tokens last for one
cell more than the window. -/
theorem stray_data_ends_null : ∃ edge, Run (step true) (fun _ _ => True) exampleRelay (List.replicate 1000 strayData) edge ∧
    edge.circ.markedForClose = none ∧ edge.receiveEnds true 0 { command := .data, streamId := 7 } = some none ∧
    ¬edge.DataSafe true strayData := by
  have hend : (exec (step true) exampleRelay (List.replicate 1000 strayData)).any (fun edge => decide
      (edge.circ.markedForClose = none ∧ edge.receiveEnds true 0 { command := .data, streamId := 7 } = some none)) =
        true := by
    decide +kernel
  obtain ⟨edge, hrun, hnull⟩ := exists_run hend (eachStep_true _ _)
  obtain ⟨hopen, hends⟩ := of_decide_eq_true hnull
  exact ⟨edge, hrun, hopen, hends, fun hsafe => hsafe.1 hends⟩

end EdgeCircuit

end BitBlinder.Innomitor
