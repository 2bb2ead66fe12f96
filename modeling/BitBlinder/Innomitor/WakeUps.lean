import BitBlinder.Innomitor.EdgeStreams

/-!
# Wake-ups

The streams of a layer stop reading when its window is empty or no tokens are
left, and are resumed by SENDMEs and by ADDTOKENS. `Awake` says that no stream
is forgotten: as long as a layer has a window and is paid for, its streams read.
-/

namespace BitBlinder.Innomitor

set_option autoImplicit false

namespace EdgeCircuit

/-- The layer has a window, and tokens for all of it. Where payments are not tracked, no cell takes
tokens from the counter. -/
structure Paid (closeUnpaid : Bool) (layer : Nat) (edge : EdgeCircuit) : Prop where
  window : 0 < (edge.windowsAt layer).packageWindow
  reserve : CIRCWINDOW_INCREMENT < edge.payedToSend
  covered : closeUnpaid = true → (edge.windowsAt layer).packageWindow < edge.payedToSend

/-- A stream with a window of its own that belongs to a layer. -/
structure Ready (layer : Nat) (conn : EdgeConnection) : Prop where
  opened : conn.markedForClose = false
  layer_eq : conn.cpathLayer = layer
  window : 0 < conn.packageWindow

/-- As long as the layer is paid, those of its streams whose places are in `P` are reading. -/
def AwakeOn (closeUnpaid : Bool) (P : Nat → Prop) (layer : Nat) (edge : EdgeCircuit) : Prop :=
  edge.Paid closeUnpaid layer → ∀ j conn, P j → edge.streams[j]? = some conn → Ready layer conn → conn.reading = true

section
variable {closeUnpaid : Bool} {P : Nat → Prop} {layer : Nat} {edge after : EdgeCircuit}

theorem AwakeOn.mono {Q : Nat → Prop} (h : AwakeOn closeUnpaid P layer edge) (hsub : ∀ j, Q j → P j) :
    AwakeOn closeUnpaid Q layer edge :=
  fun hpaid j conn hj => h hpaid j conn (hsub j hj)

theorem awakeOn_of_not_paid (h : ¬edge.Paid closeUnpaid layer) : AwakeOn closeUnpaid P layer edge :=
  fun hpaid => absurd hpaid h

/-- The streams stay awake if the layer does not come to be paid and no stream is stopped. -/
theorem AwakeOn.of_streams (h : AwakeOn closeUnpaid P layer edge)
    (hpaid : after.Paid closeUnpaid layer → edge.Paid closeUnpaid layer)
    (hstreams : ∀ (j : Nat) (conn : EdgeConnection), after.streams[j]? = some conn → Ready layer conn →
      (∀ other, edge.streams[j]? = some other → Ready layer other → other.reading = true) → conn.reading = true) :
    AwakeOn closeUnpaid P layer after :=
  fun hafter j conn hj hconn hready =>
    hstreams j conn hconn hready fun other hother hwas => h (hpaid hafter) j other hj hother hwas

theorem AwakeOn.of_same_streams (h : AwakeOn closeUnpaid P layer edge)
    (hpaid : after.Paid closeUnpaid layer → edge.Paid closeUnpaid layer) (hstreams : after.streams = edge.streams) :
    AwakeOn closeUnpaid P layer after :=
  h.of_streams hpaid fun _ conn hconn hready hwas => hwas conn (hstreams ▸ hconn) hready

theorem Paid.of_payed_le (hwindow : after.windowsAt layer = edge.windowsAt layer)
    (hpayed : after.payedToSend ≤ edge.payedToSend) (h : after.Paid closeUnpaid layer) :
    edge.Paid closeUnpaid layer := by
  obtain ⟨hpositive, hreserve, hcovered⟩ := h
  rw [hwindow] at hpositive hcovered
  exact ⟨hpositive, lt_of_lt_of_le hreserve hpayed, fun htracked => lt_of_lt_of_le (hcovered htracked) hpayed⟩

theorem payedToSend_putCircuit {circ : Circuit} (h : Spent closeUnpaid edge.circ circ) :
    (edge.putCircuit circ).payedToSend ≤ edge.payedToSend := by
  unfold payedToSend putCircuit
  dsimp only
  rw [h.isOrigin]
  split
  · exact h.writes
  · exact h.reads

theorem awakeOn_putCircuit {circ : Circuit} (hspent : Spent closeUnpaid edge.circ circ)
    (h : AwakeOn closeUnpaid P layer edge) : AwakeOn closeUnpaid P layer (edge.putCircuit circ) := by
  refine h.of_streams (Paid.of_payed_le rfl (payedToSend_putCircuit hspent)) fun j conn hconn hready hwas => ?_
  unfold putCircuit at hconn
  dsimp only at hconn
  split at hconn
  · -- The circuit was closed with this.
    rw [List.getElem?_map] at hconn
    obtain ⟨other, -, rfl⟩ := Option.map_eq_some_iff.mp hconn
    exact absurd hready.opened Bool.noConfusion
  · exact hwas conn hconn hready

theorem awakeOn_relaySend (target : Nat) (cell : RelayCell) (h : AwakeOn closeUnpaid P layer edge) :
    AwakeOn closeUnpaid P layer (edge.relaySendCommandFromEdge closeUnpaid target cell).1 := by
  obtain ⟨circ, hspent, hcounters, ⟨-, hsend⟩ | ⟨-, hsend⟩⟩ := relaySend_cases closeUnpaid edge target cell
  · rw [hsend]
    exact awakeOn_putCircuit hspent h
  · rw [hsend]
    refine h.of_same_streams (Paid.of_payed_le rfl ?_) rfl
    rw [payedToSend_charge closeUnpaid edge _ hspent hcounters]
    split
    · omega
    · omega

/-- Sending data takes as much from the window of its layer as from the tokens. -/
theorem awakeOn_sendData (target streamId : Nat) (hpositive : 0 < (edge.windowsAt target).packageWindow)
    (h : AwakeOn closeUnpaid P layer edge) : AwakeOn closeUnpaid P layer (edge.sendData closeUnpaid target streamId) := by
  unfold sendData
  obtain ⟨circ, hspent, hcounters, ⟨-, hsend⟩ | ⟨-, hsend⟩⟩ :=
    relaySend_cases closeUnpaid edge target { command := .data, streamId }
  · rw [hsend]
    dsimp only
    rw [if_pos (by decide)]
    exact awakeOn_putCircuit hspent h
  · rw [hsend]
    dsimp only
    have hpayed := payedToSend_charge closeUnpaid edge (edge.cellQueue ++
      if Cut circ then [] else [(target, { command := .data, streamId })]) hspent hcounters
    rw [if_neg (by decide)]
    generalize hsent : ({ edge with
      circ := circ
      cellQueue := edge.cellQueue ++ if Cut circ then [] else [(target, { command := .data, streamId })] } :
        EdgeCircuit) = sent at hpayed ⊢
    have hwindows : ∀ other, sent.windowsAt other = edge.windowsAt other := by
      rw [← hsent]
      exact fun _ => rfl
    have hpositive' : 0 < (sent.windowsAt target).packageWindow := by rw [hwindows]; exact hpositive
    refine h.of_same_streams (fun hpaid => ?_) (by rw [packaged_streams, ← hsent])
    rw [packaged_of_positive hpositive'] at hpaid
    obtain ⟨hwindow, hreserve, hcovered⟩ := hpaid
    rw [windowsAt_modifyLayer _ _ _ _ (layer_of_positive hpositive'), hwindows, hwindows] at hwindow hcovered
    have hpayed' : (sent.modifyLayer target fun windows =>
        { windows with packageWindow := windows.packageWindow - 1 }).payedToSend = sent.payedToSend := rfl
    rw [hpayed', hpayed] at hreserve hcovered
    by_cases hsame : layer = target
    · subst hsame
      rw [if_pos rfl] at hwindow hcovered
      dsimp only at hwindow hcovered
      refine ⟨hpositive, ?_, fun htracked => ?_⟩
      · split at hreserve
        · omega
        · omega
      · have hless := hcovered htracked
        rw [if_pos htracked] at hless
        omega
    · rw [if_neg hsame] at hwindow hcovered
      refine ⟨hwindow, ?_, fun htracked => ?_⟩
      · split at hreserve
        · omega
        · omega
      · have hless := hcovered htracked
        rw [if_pos htracked] at hless
        omega

/-- The deliver windows have nothing to do with it. -/
theorem awakeOn_modifyLayer (target : Nat) {f : Windows → Windows}
    (hf : ∀ windows, (f windows).packageWindow = windows.packageWindow) (h : AwakeOn closeUnpaid P layer edge) :
    AwakeOn closeUnpaid P layer (edge.modifyLayer target f) := by
  refine h.of_same_streams (fun hpaid => ?_) rfl
  obtain ⟨hwindow, hreserve, hcovered⟩ := hpaid
  rw [packageWindow_modifyLayer edge target hf] at hwindow hcovered
  exact ⟨hwindow, hreserve, hcovered⟩

/-- No move puts a stream to sleep. -/
theorem Moves.awakeOn (h : Moves closeUnpaid edge after) (hawake : AwakeOn closeUnpaid P layer edge) :
    AwakeOn closeUnpaid P layer after := by
  induction h with
  | refl edge => exact hawake
  | trans _ _ ih ih' => exact ih' (ih hawake)
  | stop edge target =>
    unfold considerStopEdgeReading
    split
    · rename_i hstopped
      by_cases hsame : target = layer
      · subst hsame
        refine awakeOn_of_not_paid fun hpaid => ?_
        have hwindow : 0 < (edge.windowsAt target).packageWindow := hpaid.window
        have hreserve : CIRCWINDOW_INCREMENT < edge.payedToSend := hpaid.reserve
        rcases hstopped with hempty | hunpaid
        · omega
        · omega
      · refine hawake.of_streams (Paid.of_payed_le rfl le_rfl) fun j conn hconn hready hwas => ?_
        rw [List.getElem?_map] at hconn
        obtain ⟨other, hother, rfl⟩ := Option.map_eq_some_iff.mp hconn
        split at hready
        · rename_i htarget
          exact absurd (htarget.symm.trans hready.layer_eq) hsame
        · rename_i htarget
          rw [if_neg htarget]
          exact hwas other hother hready
    · exact hawake
  | stream edge i f eased =>
    refine hawake.of_streams (Paid.of_payed_le rfl le_rfl) fun j conn hconn hready hwas => ?_
    by_cases hsame : i = j
    · subst hsame
      rw [modifyStream_at] at hconn
      obtain ⟨other, hother, rfl⟩ := Option.map_eq_some_iff.mp hconn
      have hease := eased other hother
      refine hease.reading hready.opened hready.window fun hwindow => hwas other hother ⟨?_, ?_, hwindow⟩
      · by_contra hclosed
        rw [Bool.not_eq_false] at hclosed
        have hmarked := hease.closed hclosed
        rw [hready.opened] at hmarked
        cases hmarked
      · rw [← hease.cpathLayer]
        exact hready.layer_eq
    · have hother : (edge.modifyStream i f).streams[j]? = edge.streams[j]? := by
        simp [modifyStream, hsame]
      rw [hother] at hconn
      exact hwas conn hconn hready
  | circuit edge circ spent => exact awakeOn_putCircuit spent hawake
  | send edge target cell _ => exact awakeOn_relaySend target cell hawake
  | sendme edge target _ =>
    exact awakeOn_relaySend target _ (awakeOn_modifyLayer target (fun _ => rfl) hawake)
  | data edge target streamId positive => exact awakeOn_sendData target streamId positive hawake

/-! ### Resuming -/

theorem stopped_considerStop (edge : EdgeCircuit) (layer : Nat) (h : edge.Stopped layer) :
    ¬(edge.considerStopEdgeReading layer).Paid closeUnpaid layer := by
  unfold considerStopEdgeReading
  rw [if_pos h]
  rintro ⟨hwindow, hreserve, -⟩
  have hpositive : 0 < (edge.windowsAt layer).packageWindow := hwindow
  have htokens : CIRCWINDOW_INCREMENT < edge.payedToSend := hreserve
  rcases h with hempty | hunpaid
  · omega
  · omega

/-- The streams that are gone through are woken up; where this ends early, the layer is not paid. -/
theorem awakeOn_resumeStreams (js : List Nat) (h : AwakeOn closeUnpaid P layer edge) :
    AwakeOn closeUnpaid (fun j => P j ∨ j ∈ js) layer (resumeStreams closeUnpaid layer js edge) := by
  induction js generalizing edge P with
  | nil => exact h.mono fun j hj => hj.resolve_right List.not_mem_nil
  | cons j js ih =>
    have hrest : ∀ {after : EdgeCircuit}, AwakeOn closeUnpaid (fun i => P i ∨ i = j) layer after →
        AwakeOn closeUnpaid (fun i => P i ∨ i ∈ j :: js) layer (resumeStreams closeUnpaid layer js after) :=
      fun hafter => (ih hafter).mono fun i hi => by
        rw [List.mem_cons] at hi
        rcases hi with hi | hi | hi
        · exact Or.inl (Or.inl hi)
        · exact Or.inl (Or.inr hi)
        · exact Or.inr hi
    rw [resumeStreams]
    split
    · rename_i hnone
      refine hrest fun hpaid i conn hi hconn hready => ?_
      rcases hi with hi | rfl
      · exact h hpaid i conn hi hconn hready
      · rw [hnone] at hconn
        cases hconn
    · rename_i conn hconn
      split
      · have hstarted : AwakeOn closeUnpaid (fun i => P i ∨ i = j) layer (edge.startReading j) := by
          intro hpaid i other hi hother hready
          by_cases hsame : i = j
          · subst hsame
            rw [startReading, modifyStream_at, hconn] at hother
            obtain rfl := Option.some.inj hother
            rfl
          · exact (moves_startReading closeUnpaid edge j).awakeOn h hpaid i other (hi.resolve_right hsame) hother hready
        dsimp only
        split
        · rename_i hstopped
          exact awakeOn_of_not_paid (stopped_considerStop _ layer hstopped)
        · exact hrest ((moves_packageRawInbuf closeUnpaid true j _).awakeOn hstarted)
      · rename_i hskip
        refine hrest fun hpaid i other hi hother hready => ?_
        rcases hi with hi | rfl
        · exact h hpaid i other hi hother hready
        · obtain rfl := Option.some.inj (hconn.symm.trans hother)
          exact absurd ⟨hready.opened, hready.window, hready.layer_eq⟩ hskip

/-- As long as the layer is paid, its streams are reading. -/
def Awake (closeUnpaid : Bool) (layer : Nat) (edge : EdgeCircuit) : Prop :=
  AwakeOn closeUnpaid (fun _ => True) layer edge

/-- Resuming wakes a layer up; where it does nothing for want of tokens, untracked payments need a
reason of their own. -/
theorem awake_resumeEdgeReading
    (h : closeUnpaid = false → edge.payedToSend ≤ (edge.windowsAt layer).packageWindow →
      Awake closeUnpaid layer edge) :
    Awake closeUnpaid layer (edge.resumeEdgeReading closeUnpaid layer) := by
  unfold resumeEdgeReading
  split
  · rename_i hshort
    cases hfree : closeUnpaid with
    | false => exact hfree ▸ h hfree hshort
    | true =>
      refine awakeOn_of_not_paid fun hpaid => ?_
      have hcovered := hpaid.covered rfl
      omega
  · split
    · rename_i hempty
      exact awakeOn_of_not_paid fun hpaid => absurd hpaid.window (by omega)
    · have hall : AwakeOn closeUnpaid (fun j => edge.streams.length ≤ j) layer edge := by
        intro _ j conn hj hconn _
        rw [List.getElem?_eq_none hj] at hconn
        cases hconn
      refine (awakeOn_resumeStreams (List.range edge.streams.length) hall).mono fun j _ => ?_
      rw [List.mem_range]
      omega

/-! ### Whole runs -/

/-- All layers are awake. Where payments are not tracked the counters never get low. -/
structure Alert (closeUnpaid : Bool) (edge : EdgeCircuit) : Prop where
  awake : ∀ layer, Awake closeUnpaid layer edge
  untracked : closeUnpaid = false →
    CIRCWINDOW_START ≤ edge.circ.payedReads ∧ CIRCWINDOW_START ≤ edge.circ.payedWrites
  single : edge.circ.isOrigin = false → edge.layers.length = 1

theorem Moves.alert (h : Moves closeUnpaid edge after) (halert : edge.Alert closeUnpaid) :
    after.Alert closeUnpaid where
  awake := fun layer => h.awakeOn (halert.awake layer)
  untracked := by
    rintro rfl
    have hsame := h.untracked
    rw [hsame.reads, hsame.writes]
    exact halert.untracked rfl
  single := fun hrelay => by
    have hshape := h.sameShape
    rw [hshape.layers]
    exact halert.single (hshape.isOrigin.symm.trans hrelay)

theorem Alert.modifyLayer (h : edge.Alert closeUnpaid) (target : Nat) {f : Windows → Windows}
    (hf : ∀ windows, (f windows).packageWindow = windows.packageWindow) :
    (edge.modifyLayer target f).Alert closeUnpaid where
  awake := fun layer => awakeOn_modifyLayer target hf (h.awake layer)
  untracked := h.untracked
  single := fun hrelay => (modifyLayer_sameShape edge target f).layers.trans (h.single hrelay)

theorem Alert.withFaults (h : edge.Alert closeUnpaid) (faults : List Nat) :
    ({ edge with faults := faults } : EdgeCircuit).Alert closeUnpaid where
  awake := fun layer => (h.awake layer).of_same_streams (Paid.of_payed_le rfl le_rfl) rfl
  untracked := h.untracked
  single := h.single

theorem Alert.payed_untracked (h : edge.Alert false) : CIRCWINDOW_START ≤ edge.payedToSend := by
  obtain ⟨hreads, hwrites⟩ := h.untracked rfl
  unfold payedToSend
  split
  · exact hwrites
  · exact hreads

theorem alert_processData (outbufTooFull : Bool) (layer : Nat) (conn : Option Nat) (h : edge.Alert closeUnpaid) :
    (edge.processData closeUnpaid outbufTooFull layer conn).1.Alert closeUnpaid := by
  unfold processData
  generalize htaken : (edge.modifyLayer layer fun windows =>
    { windows with deliverWindow := windows.deliverWindow - 1 }) = taken
  have htake : taken.Alert closeUnpaid := htaken ▸ h.modifyLayer layer fun _ => rfl
  dsimp only
  split
  · have hkilled := (htake.modifyLayer layer (f := fun windows => { windows with deliverWindow := 0 })
      fun _ => rfl).withFaults (taken.faults ++ [layer])
    split
    · exact hkilled
    · rename_i j
      exact (moves_endStream closeUnpaid j _).alert hkilled
  · have hsent := (moves_considerSendingSendme closeUnpaid layer taken).alert htake
    split
    · exact hsent
    · rename_i j
      generalize taken.considerSendingSendme closeUnpaid layer = sent at hsent ⊢
      have hcounted := (moves_streamDeliver closeUnpaid j sent).alert hsent
      split
      · exact hcounted
      · exact (moves_edgeConsiderSendingSendme closeUnpaid outbufTooFull j _).alert hcounted

/-- A SENDME for the circuit adds to the window of its layer, and the layer is resumed. -/
theorem alert_processSendme (layer : Nat) (conn : Option Nat) (h : edge.Alert closeUnpaid) :
    (edge.processSendme closeUnpaid layer conn).Alert closeUnpaid := by
  unfold processSendme
  cases conn with
  | some j =>
    exact (moves_streamSendme closeUnpaid j edge).alert h
  | none =>
    dsimp only
    generalize hgrown : (edge.modifyLayer layer fun windows =>
      { windows with packageWindow := windows.packageWindow + CIRCWINDOW_INCREMENT }) = grown
    have hshape : SameShape edge grown := hgrown ▸ modifyLayer_sameShape edge layer _
    have hcirc : grown.circ = edge.circ := hgrown ▸ rfl
    have hpayed : grown.payedToSend = edge.payedToSend := hgrown ▸ rfl
    have hstreams : grown.streams = edge.streams := hgrown ▸ rfl
    have hmoves := moves_resumeEdgeReading closeUnpaid layer grown
    refine ⟨fun other => ?_, ?_, fun hrelay => ?_⟩
    · by_cases hsame : other = layer
      · subst hsame
        refine awake_resumeEdgeReading fun hfree hshort => ?_
        subst hfree
        -- There are tokens for the first window, so that this was not the first one.
        have hwindow : 0 < (edge.windowsAt other).packageWindow := by
          have htokens := h.payed_untracked
          by_cases hlayer : other < edge.layers.length
          · rw [← hgrown, windowsAt_modifyLayer edge other other _ hlayer, if_pos rfl] at hshort
            rw [hgrown, hpayed] at hshort
            unfold CIRCWINDOW_START CIRCWINDOW_INCREMENT at *
            dsimp only at hshort
            omega
          · have hout : (grown.windowsAt other).packageWindow ≤ 0 := by
              by_contra hpositive
              exact hlayer (hshape.layers ▸ layer_of_positive (by omega))
            unfold CIRCWINDOW_START at htokens
            omega
        refine (h.awake other).of_same_streams (fun hpaid => ⟨hwindow, ?_, nofun⟩) hstreams
        rw [← hpayed]
        exact hpaid.reserve
      · have hother : grown.windowsAt other = edge.windowsAt other := by
          by_cases hlayer : layer < edge.layers.length
          · rw [← hgrown, windowsAt_modifyLayer edge layer other _ hlayer, if_neg hsame]
          · rw [← hgrown]
            unfold windowsAt modifyLayer
            rw [List.modify_eq_self (by omega)]
        exact hmoves.awakeOn ((h.awake other).of_same_streams (Paid.of_payed_le hother hpayed.le) hstreams)
    · rintro rfl
      have hsame := hmoves.untracked
      rw [hsame.reads, hsame.writes, hcirc]
      exact h.untracked rfl
    · have hafter := hshape.trans hmoves.sameShape
      rw [hafter.layers]
      exact h.single (hafter.isOrigin.symm.trans hrelay)

theorem alert_processRelayCell (outbufTooFull : Bool) (layer : Nat) (cell : RelayCell) (h : edge.Alert closeUnpaid) :
    (edge.processRelayCell closeUnpaid outbufTooFull layer cell).1.Alert closeUnpaid := by
  unfold processRelayCell
  dsimp only
  cases cell.command with
  | data => exact alert_processData outbufTooFull layer _ h
  | sendme => exact alert_processSendme layer _ h
  | other => exact h

theorem alert_receiveRelayCell (outbufTooFull : Bool) (layer : Nat) (cell : RelayCell) (h : edge.Alert closeUnpaid) :
    (edge.receiveRelayCell closeUnpaid outbufTooFull layer cell).Alert closeUnpaid := by
  rcases receive_cases closeUnpaid outbufTooFull layer cell edge with ⟨hmoves, -⟩ | ⟨circ, hspent, -, -, hmoves⟩
  · exact hmoves.alert h
  · have hcharged := (Moves.circuit edge circ hspent).alert h
    exact hmoves.alert (alert_processRelayCell outbufTooFull layer cell hcharged)

theorem alert_attachStream (streamId layer : Nat) (numbered : streamId ≠ 0) (h : edge.Alert closeUnpaid) :
    (edge.attachStream streamId layer numbered).Alert closeUnpaid where
  awake := fun other hpaid j conn hj hconn hready => by
    cases j with
    | zero =>
      obtain rfl := Option.some.inj hconn
      rfl
    | succ j =>
      have hbefore : edge.Paid closeUnpaid other := ⟨hpaid.window, hpaid.reserve, hpaid.covered⟩
      exact h.awake other hbefore j conn hj hconn hready
  untracked := h.untracked
  single := h.single

/-- After a row of layers was gone through, these are awake, and so are those that were before. -/
theorem awake_resumeAll (layers : List Nat) {V : Nat → Prop} (hawake : ∀ layer, V layer → Awake closeUnpaid layer edge)
    (hfree : closeUnpaid = false → ∀ layer, Awake closeUnpaid layer edge) (layer : Nat) (h : V layer ∨ layer ∈ layers) :
    Awake closeUnpaid layer (layers.foldl (fun edge layer => edge.resumeLayer closeUnpaid layer) edge) := by
  induction layers generalizing edge V with
  | nil => exact hawake layer (h.resolve_right List.not_mem_nil)
  | cons first layers ih =>
    have hsent := moves_considerSendingSendme closeUnpaid first edge
    have hmoves : Moves closeUnpaid edge (edge.resumeLayer closeUnpaid first) := moves_resumeLayer closeUnpaid first edge
    have hfirst : Awake closeUnpaid first (edge.resumeLayer closeUnpaid first) :=
      awake_resumeEdgeReading fun huntracked _ => hsent.awakeOn (hfree huntracked first)
    apply ih (V := fun layer => V layer ∨ layer = first)
    · rintro other (hother | rfl)
      · exact hmoves.awakeOn (hawake other hother)
      · exact hfirst
    · exact fun huntracked other => hmoves.awakeOn (hfree huntracked other)
    · rcases h with h | h
      · exact Or.inl (Or.inl h)
      · rcases List.mem_cons.mp h with rfl | h
        · exact Or.inl (Or.inr rfl)
        · exact Or.inr h

theorem awake_of_no_layer (h : edge.layers.length ≤ layer) : Awake closeUnpaid layer edge := by
  refine awakeOn_of_not_paid fun hpaid => ?_
  have hlayer := layer_of_positive hpaid.window
  omega

/-- Where payments are not tracked, the controller sends no numbers but those of its protocol. -/
def Granted (closeUnpaid : Bool) (action : EdgeAction) : Prop :=
  closeUnpaid = false → ∀ r w, action = .addtokens r w → InProtocol r w

theorem alert_addtokens {r w : Int} (hr : 0 < r) (hgranted : Granted closeUnpaid (.addtokens r w))
    (hdone : (edge.putCircuit (edge.circ.granted r w)).resumeLayers closeUnpaid edge.layers.length = some after)
    (h : edge.Alert closeUnpaid) : after.Alert closeUnpaid := by
  rw [show edge.putCircuit (edge.circ.granted r w) = { edge with circ := edge.circ.granted r w } from
    putCircuit_of_same rfl] at hdone
  generalize hstart : ({ edge with circ := edge.circ.granted r w } : EdgeCircuit) = start at hdone
  have hlayers : start.layers = edge.layers := hstart ▸ rfl
  have horigin : start.circ.isOrigin = edge.circ.isOrigin := hstart ▸ rfl
  have hmoves := moves_resumeLayers closeUnpaid _ hdone
  have hshape := hmoves.sameShape
  have hw : closeUnpaid = false → 0 ≤ w := fun hfree => by
    rcases hgranted hfree r w rfl with ⟨-, hw⟩ | ⟨hr', -⟩
    · exact hw.1
    · omega
  have hfree : closeUnpaid = false → ∀ layer, Awake closeUnpaid layer start := by
    rintro rfl layer
    refine (h.awake layer).of_same_streams (fun hpaid => ⟨?_, ?_, nofun⟩) (hstart ▸ rfl)
    · rw [← hstart] at hpaid
      exact hpaid.window
    · have htokens := h.payed_untracked
      unfold CIRCWINDOW_START at htokens
      unfold CIRCWINDOW_INCREMENT
      omega
  refine ⟨fun layer => ?_, ?_, fun hrelay => ?_⟩
  · have hout : ∀ layer, edge.layers.length ≤ layer → Awake closeUnpaid layer start :=
      fun layer hlayer => awake_of_no_layer (hlayers ▸ hlayer)
    cases hside : edge.circ.isOrigin with
    | true =>
      by_cases hpath : 0 < edge.layers.length
      · rw [← hlayers] at hdone hpath
        rw [resumeLayers_origin closeUnpaid (horigin.trans hside) hpath le_rfl] at hdone
        obtain rfl := Option.some.inj hdone
        apply awake_resumeAll _ hout hfree
        rw [List.mem_reverse, List.mem_range, hlayers]
        omega
      · apply awake_of_no_layer
        rw [hshape.layers, hlayers]
        omega
    | false =>
      unfold resumeLayers at hdone
      rw [horigin, hside, if_neg Bool.noConfusion] at hdone
      obtain rfl := Option.some.inj hdone
      have hsingle := h.single hside
      apply awake_resumeAll [0] hout hfree
      rw [List.mem_singleton]
      omega
  · rintro rfl
    have hsame := hmoves.untracked
    obtain ⟨hreads, hwrites⟩ := h.untracked rfl
    have hnonneg := hw rfl
    rw [hsame.reads, hsame.writes, ← hstart]
    unfold Circuit.granted
    dsimp only
    exact ⟨by omega, by omega⟩
  · rw [hshape.layers, hlayers]
    exact h.single ((horigin.symm.trans hshape.isOrigin.symm).trans hrelay)

theorem step_alert {action : EdgeAction} (h : edge.Alert closeUnpaid) (hgranted : Granted closeUnpaid action)
    (hstep : edge.step closeUnpaid action = some after) : after.Alert closeUnpaid := by
  rcases step_cases closeUnpaid hstep with
    hmoves | ⟨full, layer, cell, rfl, -, rfl⟩ | ⟨streamId, layer, numbered, rfl, rfl⟩ | ⟨r, w, rfl, hr, -, hdone⟩
  · exact hmoves.alert h
  · exact alert_receiveRelayCell full layer cell h
  · exact alert_attachStream streamId layer numbered h
  · exact alert_addtokens hr hgranted hdone h

end

/-- A new circuit with this many hops, if it is an origin circuit. -/
def initial (isOrigin : Bool) (nCircId : UInt16) (nConn : Option OrConnection) (pCircId : UInt16)
    (pConn : Option OrConnection) (hops : Nat) : EdgeCircuit where
  circ := Circuit.initCircuitBase isOrigin nCircId nConn pCircId pConn hops
  layers := List.replicate (if isOrigin then hops else 1) ⟨CIRCWINDOW_START, CIRCWINDOW_START⟩
  streams := []
  cellQueue := []
  faults := []

section
variable (closeUnpaid isOrigin : Bool) (nCircId pCircId : UInt16) (nConn pConn : Option OrConnection) (hops : Nat)

theorem initial_alert : (initial isOrigin nCircId nConn pCircId pConn hops).Alert closeUnpaid where
  awake := fun layer _ j conn _ hconn => by cases hconn
  untracked := fun _ => ⟨le_rfl, le_rfl⟩
  single := fun hrelay => by
    unfold initial at hrelay ⊢
    dsimp only [Circuit.initCircuitBase] at hrelay
    rw [hrelay]
    rfl

end

/-- Two streams use up the first tokens, until reading stops. Then the window of the layer grows, and
tokens for it are added. -/
def exampleWakeUp : List EdgeAction :=
  [.attach 1 0, .read 0 (450 * 498), .attach 2 0, .read 0 (460 * 498), .receive false 0 { command := .sendme, streamId := 0 },
    .addtokens 1000 1000]

def exampleOrigin : EdgeCircuit := initial true 5 (some ⟨1, []⟩) 0 none 1

end EdgeCircuit

end BitBlinder.Innomitor
