import BitBlinder.Innomitor.Control
import BitBlinder.Runs

/-!
# The payment gate

With `CloseUnpaid` every relay cell is charged to its direction before it is
delivered, forwarded or sent. `Gated` says what this leaves of a circuit in the
course of a run: the cells that passed and the credit that is left add up to no
more than the first grant and the tokens that were added.
-/

namespace BitBlinder.Innomitor

set_option autoImplicit false

namespace Event

/-- A cell that was delivered, forwarded or sent in a direction. -/
def relays (direction : CellDirection) : Event → Bool
  | delivered d => d = direction
  | forwarded d => d = direction
  | sent d => d = direction
  | refused _ => false
  | added _ _ => false

def isRefusal : Event → Bool
  | refused _ => true
  | _ => false

/-- The tokens of a direction that a command added; a number below zero adds none. -/
def tokens (direction : CellDirection) : Event → Nat
  | added numReadCells numWriteCells =>
    match direction with
    | .inward => numReadCells.toNat
    | .outward => numWriteCells.toNat
  | _ => 0

end Event

namespace Circuit

def payed (direction : CellDirection) (circ : Circuit) : Int :=
  match direction with
  | .inward => circ.payedReads
  | .outward => circ.payedWrites

/-- The relay cells that were delivered, forwarded or sent. -/
def relayed (direction : CellDirection) (circ : Circuit) : Nat := circ.history.countP (Event.relays direction)

/-- The tokens that were added so far. -/
def tokensAdded (direction : CellDirection) (circ : Circuit) : Nat :=
  (circ.history.map (Event.tokens direction)).sum

structure Gated (circ : Circuit) : Prop where
  credit : ∀ direction, (circ.relayed direction : Int) + circ.payed direction ≤
    CIRCWINDOW_START + circ.tokensAdded direction
  bound : ∀ direction, (circ.relayed direction : Int) ≤
    CIRCWINDOW_START + circ.tokensAdded direction + CIRCWINDOW_INCREMENT
  refused : ∀ event ∈ circ.history, event.isRefusal = true →
    circ.Unpaid ∧ circ.markedForClose = some (circ.closeReason END_CIRC_REASON_UNPAID)
  quiet : circ.history.Pairwise fun event later =>
    event.isRefusal = true → ∀ direction, later.relays direction = false

/-! ### Single operations -/

section
variable {circ : Circuit}

theorem relayed_record (circ : Circuit) (event : Event) (direction : CellDirection) :
    (circ.record event).relayed direction = circ.relayed direction + if event.relays direction then 1 else 0 := by
  simp [relayed, record, List.countP_append, List.countP_cons]

theorem tokensAdded_record (circ : Circuit) (event : Event) (direction : CellDirection) :
    (circ.record event).tokensAdded direction = circ.tokensAdded direction + event.tokens direction := by
  simp [tokensAdded, record]

theorem payed_charge (direction other : CellDirection) (circ : Circuit) :
    (circ.charge true direction).payed other = circ.payed other - if direction = other then 1 else 0 := by
  cases direction with
  | inward => cases other with
    | inward => rfl
    | outward => simp [charge, payed]
  | outward => cases other with
    | inward => simp [charge, payed]
    | outward => rfl

@[simp] theorem charge_history (closeUnpaid : Bool) (direction : CellDirection) (circ : Circuit) :
    (circ.charge closeUnpaid direction).history = circ.history := by
  unfold charge
  split
  · cases direction with
    | inward => rfl
    | outward => rfl
  · rfl

@[simp] theorem charge_markedForClose (closeUnpaid : Bool) (direction : CellDirection) (circ : Circuit) :
    (circ.charge closeUnpaid direction).markedForClose = circ.markedForClose := by
  unfold charge
  split
  · cases direction with
    | inward => rfl
    | outward => rfl
  · rfl

@[simp] theorem charge_isOrigin (closeUnpaid : Bool) (direction : CellDirection) (circ : Circuit) :
    (circ.charge closeUnpaid direction).isOrigin = circ.isOrigin := by
  unfold charge
  split
  · cases direction with
    | inward => rfl
    | outward => rfl
  · rfl

theorem unpaid_iff (circ : Circuit) : circ.Unpaid ↔ ∃ direction, circ.payed direction < -CIRCWINDOW_INCREMENT := by
  constructor
  · rintro (h | h)
    · exact ⟨.inward, h⟩
    · exact ⟨.outward, h⟩
  · rintro ⟨direction, h⟩
    cases direction with
    | inward => exact Or.inl h
    | outward => exact Or.inr h

@[simp] theorem markForClose_history (circ : Circuit) (reason : Int) :
    (circ.markForClose reason).history = circ.history := by
  unfold markForClose
  split
  · rfl
  · rfl

@[simp] theorem markForClose_isOrigin (circ : Circuit) (reason : Int) :
    (circ.markForClose reason).isOrigin = circ.isOrigin := by
  unfold markForClose
  split
  · rfl
  · rfl

theorem payed_markForClose (circ : Circuit) (reason : Int) (direction : CellDirection) :
    (circ.markForClose reason).payed direction = circ.payed direction := by
  unfold markForClose
  split
  · rfl
  · rfl

theorem relayed_markForClose (circ : Circuit) (reason : Int) (direction : CellDirection) :
    (circ.markForClose reason).relayed direction = circ.relayed direction := by
  rw [relayed, markForClose_history, relayed]

theorem tokensAdded_markForClose (circ : Circuit) (reason : Int) (direction : CellDirection) :
    (circ.markForClose reason).tokensAdded direction = circ.tokensAdded direction := by
  rw [tokensAdded, markForClose_history, tokensAdded]

theorem markForClose_of_some {reason closed : Int} (h : circ.markedForClose = some closed) :
    circ.markForClose reason = circ := by
  unfold markForClose
  rw [h]

theorem markForClose_of_none {reason : Int} (h : circ.markedForClose = none) :
    (circ.markForClose reason).markedForClose = some (circ.closeReason reason) := by
  unfold markForClose
  rw [h]

theorem closeReason_congr {other : Circuit} (h : other.isOrigin = circ.isOrigin) (reason : Int) :
    other.closeReason reason = circ.closeReason reason := by
  unfold closeReason
  rw [h]

theorem closeReason_unpaid (h : circ.isOrigin = false) :
    circ.closeReason END_CIRC_REASON_UNPAID = END_CIRC_REASON_UNPAID := by
  unfold closeReason
  rw [h]
  decide

/-- An unpaid circuit does not become a paid one by another cell. -/
theorem unpaid_charge (h : circ.Unpaid) (direction : CellDirection) : (circ.charge true direction).Unpaid := by
  rw [unpaid_iff] at h ⊢
  obtain ⟨other, hother⟩ := h
  refine ⟨other, ?_⟩
  rw [payed_charge]
  split
  · omega
  · omega

namespace Gated

/-- As long as no cell was refused, only the amounts matter. -/
theorem of_no_refusal (hcredit : ∀ direction, (circ.relayed direction : Int) + circ.payed direction ≤
      CIRCWINDOW_START + circ.tokensAdded direction)
    (hbound : ∀ direction, (circ.relayed direction : Int) ≤
      CIRCWINDOW_START + circ.tokensAdded direction + CIRCWINDOW_INCREMENT)
    (hnone : ∀ event ∈ circ.history, event.isRefusal = false) : circ.Gated := by
  refine ⟨hcredit, hbound, fun event hevent hrefusal => ?_, ?_⟩
  · rw [hnone event hevent] at hrefusal
    cases hrefusal
  · apply List.pairwise_of_forall_mem_list
    intro event hevent later _ hrefusal
    rw [hnone event hevent] at hrefusal
    cases hrefusal

/-- The first grant. -/
theorem initCircuitBase (isOrigin : Bool) (nCircId : UInt16) (nConn : Option OrConnection) (pCircId : UInt16)
    (pConn : Option OrConnection) (cpathLength : Nat) :
    (Circuit.initCircuitBase isOrigin nCircId nConn pCircId pConn cpathLength).Gated := by
  refine of_no_refusal (fun direction => ?_) (fun direction => ?_) fun event hevent => by cases hevent
  · cases direction with
    | inward => exact Int.le_of_eq (Int.add_comm 0 CIRCWINDOW_START)
    | outward => exact Int.le_of_eq (Int.add_comm 0 CIRCWINDOW_START)
  · change (0 : Int) ≤ CIRCWINDOW_START + 0 + CIRCWINDOW_INCREMENT
    decide

theorem none_refused_of_open (h : circ.Gated) (hopen : circ.markedForClose = none) :
    ∀ event ∈ circ.history, event.isRefusal = false := by
  intro event hevent
  by_contra hrefusal
  have hclosed := (h.refused event hevent (by simpa using hrefusal)).2
  rw [hopen] at hclosed
  cases hclosed

theorem none_refused_of_paid (h : circ.Gated) (hpaid : ¬circ.Unpaid) :
    ∀ event ∈ circ.history, event.isRefusal = false := by
  intro event hevent
  by_contra hrefusal
  exact hpaid (h.refused event hevent (by simpa using hrefusal)).1

theorem none_refused_concat {history : List Event} {event : Event}
    (hnone : ∀ e ∈ history, e.isRefusal = false) (hevent : event.isRefusal = false) :
    ∀ e ∈ history ++ [event], e.isRefusal = false := by
  intro e he
  rcases List.mem_append.mp he with he | he
  · exact hnone e he
  · rwa [List.mem_singleton.mp he]

/-- A cell is charged, and nothing is done with it. -/
theorem charge (h : circ.Gated) (direction : CellDirection) : (circ.charge true direction).Gated := by
  have hhistory := charge_history true direction circ
  refine ⟨fun other => ?_, fun other => ?_, fun event hevent hrefusal => ?_, ?_⟩
  · have hcredit := h.credit other
    rw [relayed, tokensAdded, hhistory, payed_charge]
    change (circ.relayed other : Int) + _ ≤ CIRCWINDOW_START + circ.tokensAdded other
    split
    · omega
    · omega
  · have hbound := h.bound other
    rw [relayed, tokensAdded, hhistory]
    exact hbound
  · rw [hhistory] at hevent
    obtain ⟨hunpaid, hclosed⟩ := h.refused event hevent hrefusal
    refine ⟨unpaid_charge hunpaid direction, ?_⟩
    rw [charge_markedForClose, closeReason_congr (charge_isOrigin true direction circ), hclosed]
  · rw [hhistory]
    exact h.quiet

/-- A cell that is charged and passes. -/
theorem pass (h : circ.Gated) {direction : CellDirection} (hpaid : ¬(circ.charge true direction).Unpaid)
    {event : Event} (hrelays : ∀ other, event.relays other = decide (direction = other))
    (htokens : ∀ other, event.tokens other = 0) (hevent : event.isRefusal = false) :
    ((circ.charge true direction).record event).Gated := by
  have hnone := h.none_refused_of_paid fun hunpaid => hpaid (unpaid_charge hunpaid direction)
  have hrelayed : ∀ other, ((circ.charge true direction).record event).relayed other =
      circ.relayed other + if direction = other then 1 else 0 := by
    intro other
    rw [relayed_record, hrelays, relayed, charge_history]
    simp only [decide_eq_true_eq]
    rfl
  have hadded : ∀ other, ((circ.charge true direction).record event).tokensAdded other = circ.tokensAdded other := by
    intro other
    rw [tokensAdded_record, htokens, tokensAdded, charge_history]
    rfl
  have hcredit : ∀ other, (((circ.charge true direction).record event).relayed other : Int) +
      (circ.charge true direction).payed other ≤ CIRCWINDOW_START + circ.tokensAdded other := by
    intro other
    have hold := h.credit other
    rw [hrelayed, payed_charge]
    split
    · omega
    · omega
  refine of_no_refusal (fun other => ?_) (fun other => ?_) ?_
  · rw [hadded]
    exact hcredit other
  · have hpayed : -CIRCWINDOW_INCREMENT ≤ (circ.charge true direction).payed other := by
      by_contra hless
      exact hpaid ((unpaid_iff _).mpr ⟨other, by omega⟩)
    have hother := hcredit other
    rw [hadded]
    omega
  · rw [record, charge_history]
    exact none_refused_concat hnone hevent

theorem mark (h : circ.Gated) (reason : Int) : (circ.markForClose reason).Gated := by
  unfold markForClose
  split
  · exact h
  · rename_i hopen
    exact of_no_refusal h.credit h.bound (h.none_refused_of_open hopen)

/-- A cell that is refused closes the circuit as unpaid. -/
theorem refuse (h : circ.Gated) (htakes : circ.TakesCells) {direction : CellDirection}
    (hunpaid : (circ.charge true direction).Unpaid) :
    (((circ.charge true direction).record (.refused direction)).markForClose END_CIRC_REASON_UNPAID).Gated := by
  have hcharged := h.charge direction
  have hmarked := charge_markedForClose true direction circ
  have hcloseReason := closeReason_congr (charge_isOrigin true direction circ) END_CIRC_REASON_UNPAID
  generalize circ.charge true direction = charged at hunpaid hcharged hmarked hcloseReason
  generalize hevent : Event.refused direction = event
  have hhistory : ((charged.record event).markForClose END_CIRC_REASON_UNPAID).history = charged.history ++ [event] :=
    markForClose_history _ _
  have hrelayed : ∀ other, ((charged.record event).markForClose END_CIRC_REASON_UNPAID).relayed other =
      charged.relayed other := by
    intro other
    rw [relayed_markForClose, relayed_record, ← hevent]
    rfl
  have hadded : ∀ other, ((charged.record event).markForClose END_CIRC_REASON_UNPAID).tokensAdded other =
      charged.tokensAdded other := by
    intro other
    rw [tokensAdded_markForClose, tokensAdded_record, ← hevent]
    rfl
  have hclosed : ((charged.record event).markForClose END_CIRC_REASON_UNPAID).markedForClose =
      some (charged.closeReason END_CIRC_REASON_UNPAID) := by
    rcases htakes with hopen | hrefused
    · have hrecorded : (charged.record event).markedForClose = none := hmarked.trans hopen
      rw [markForClose_of_none hrecorded]
      rfl
    · have hrecorded : (charged.record event).markedForClose =
          some (charged.closeReason END_CIRC_REASON_UNPAID) := by
        rw [hcloseReason]
        exact hmarked.trans hrefused
      rw [markForClose_of_some hrecorded, hrecorded]
  refine ⟨fun other => ?_, fun other => ?_, fun e _ _ => ⟨?_, ?_⟩, ?_⟩
  · rw [hrelayed, hadded, payed_markForClose]
    exact hcharged.credit other
  · rw [hrelayed, hadded]
    exact hcharged.bound other
  · rw [unpaid_iff] at hunpaid ⊢
    obtain ⟨other, hother⟩ := hunpaid
    exact ⟨other, by rwa [payed_markForClose]⟩
  · have hsame : ((charged.record event).markForClose END_CIRC_REASON_UNPAID).isOrigin = charged.isOrigin :=
      markForClose_isOrigin _ _
    rw [hclosed, closeReason_congr hsame]
  · rw [hhistory]
    refine List.pairwise_append.mpr ⟨hcharged.quiet, List.pairwise_singleton _ _, fun _ _ later hlater _ other => ?_⟩
    rw [List.mem_singleton.mp hlater, ← hevent]
    rfl

/-- A cell from the edge, in the direction that was chosen for it. -/
theorem sendFromEdge (h : circ.Gated) (htakes : circ.TakesCells) (crypted : Bool) (direction : CellDirection) :
    (circ.sendFromEdge true crypted direction).1.Gated := by
  unfold Circuit.sendFromEdge
  dsimp only
  split
  · rename_i hunpaid
    exact h.refuse htakes hunpaid
  · rename_i hpaid
    have hpackage : ((circ.charge true direction).packageRelayCell crypted direction).1.Gated := by
      cases direction with
      | inward =>
        unfold packageRelayCell
        dsimp only
        split
        · exact h.charge .inward
        · split
          · exact h.charge .inward
          · exact h.pass hpaid (fun _ => rfl) (fun _ => rfl) rfl
      | outward =>
        unfold packageRelayCell
        dsimp only
        split
        · exact h.charge .outward
        · split
          · exact h.charge .outward
          · exact h.pass hpaid (fun _ => rfl) (fun _ => rfl) rfl
    split
    · exact hpackage.mark _
    · exact hpackage

theorem relaySendCommandFromEdge (h : circ.Gated) (htakes : circ.TakesCells) (layered crypted : Bool) :
    (circ.relaySendCommandFromEdge true layered crypted).1.Gated := by
  unfold Circuit.relaySendCommandFromEdge
  split
  · exact h.sendFromEdge htakes crypted .outward
  · split
    · exact h.sendFromEdge htakes crypted .inward
    · exact h

theorem edgeCall (h : circ.Gated) (call : EdgeCall) : (circ.edgeCall true call).Gated := by
  cases call with
  | send layered crypted =>
    by_cases htakes : circ.TakesCells
    · have hsent := h.relaySendCommandFromEdge htakes layered crypted
      rwa [Circuit.edgeCall, if_pos htakes]
    · rwa [Circuit.edgeCall, if_neg htakes]
  | close reason => exact h.mark reason

theorem edgeCalls (h : circ.Gated) (calls : List EdgeCall) : (calls.foldl (Circuit.edgeCall true) circ).Gated := by
  induction calls generalizing circ with
  | nil => exact h
  | cons call calls ih => exact ih (h.edgeCall call)

/-- A cell that passes and is not recognized. -/
theorem passOn (h : circ.Gated) {direction : CellDirection} (hpaid : ¬(circ.charge true direction).Unpaid)
    (splice : Option Int) : ((circ.charge true direction).passOn direction splice).1.Gated := by
  cases direction with
  | inward =>
    unfold Circuit.passOn
    dsimp only
    split
    · exact h.charge .inward
    · split
      · exact h.charge .inward
      · exact h.pass hpaid (fun _ => rfl) (fun _ => rfl) rfl
  | outward =>
    unfold Circuit.passOn
    dsimp only
    split
    · split
      · split
        · exact (h.charge .outward).mark _
        · exact h.pass hpaid (fun _ => rfl) (fun _ => rfl) rfl
      · exact h.charge .outward
    · exact h.pass hpaid (fun _ => rfl) (fun _ => rfl) rfl

/-- A cell that arrives, and a refusal that is still to close the circuit. -/
theorem receiveRelayCell (h : circ.Gated) (direction : CellDirection) (arrival : Arrival) :
    (circ.receiveRelayCell true direction arrival).1.Gated ∨
      (circ.receiveRelayCell true direction arrival).2 = -END_CIRC_REASON_UNPAID ∧
      ((circ.receiveRelayCell true direction arrival).1.markForClose END_CIRC_REASON_UNPAID).Gated := by
  unfold Circuit.receiveRelayCell
  by_cases hclosed : circ.markedForClose.isSome
  · rw [if_pos hclosed]
    exact Or.inl h
  · rw [if_neg hclosed]
    cases arrival.recognized with
    | none => exact Or.inl h
    | some recognized =>
      dsimp only
      by_cases hunpaid : (circ.charge true direction).Unpaid
      · rw [if_pos hunpaid]
        have htakes : circ.TakesCells := Or.inl (by simpa using hclosed)
        exact Or.inr ⟨rfl, h.refuse htakes hunpaid⟩
      · rw [if_neg hunpaid]
        cases recognized with
        | true => exact Or.inl (edgeCalls (h.pass hunpaid (fun _ => rfl) (fun _ => rfl) rfl) arrival.calls)
        | false => exact Or.inl (h.passOn hunpaid arrival.splice)

theorem processRelayCell (h : circ.Gated) (direction : CellDirection) (arrival : Arrival) :
    (circ.processRelayCell true direction arrival).Gated := by
  have hreceive := h.receiveRelayCell direction arrival
  unfold Circuit.processRelayCell
  generalize circ.receiveRelayCell true direction arrival = result at hreceive
  obtain ⟨after, reason⟩ := result
  rcases hreceive with hafter | ⟨hreason, hafter⟩
  · dsimp only
    split
    · exact hafter.mark _
    · exact hafter
  · obtain rfl : reason = -END_CIRC_REASON_UNPAID := hreason
    exact hafter

/-- Tokens are added only while the circuit is open. -/
theorem addTokens (h : circ.Gated) (hopen : circ.markedForClose = none) (numReadCells numWriteCells : Int)
    (calls : List EdgeCall) : (circ.addTokens true numReadCells numWriteCells calls).Gated := by
  unfold Circuit.addTokens
  split
  · exact h.mark _
  · split
    · exact h
    · rename_i hnegative hzero
      apply edgeCalls
      have hrelayed : ∀ other, (circ.record (.added numReadCells numWriteCells)).relayed other =
          circ.relayed other := fun other => relayed_record _ _ other
      have hadded := tokensAdded_record circ (.added numReadCells numWriteCells)
      refine of_no_refusal (fun other => ?_) (fun other => ?_) ?_
      · have hcredit := h.credit other
        change ((circ.record (.added numReadCells numWriteCells)).relayed other : Int) + _ ≤
          CIRCWINDOW_START + ((circ.record (.added numReadCells numWriteCells)).tokensAdded other : Nat)
        rw [hrelayed, hadded]
        cases other with
        | inward =>
          simp only [payed, Event.tokens] at hcredit ⊢
          omega
        | outward =>
          simp only [payed, Event.tokens] at hcredit ⊢
          omega
      · have hbound := h.bound other
        change ((circ.record (.added numReadCells numWriteCells)).relayed other : Int) ≤
          CIRCWINDOW_START + ((circ.record (.added numReadCells numWriteCells)).tokensAdded other : Nat) + _
        rw [hrelayed, hadded]
        omega
      · exact none_refused_concat (h.none_refused_of_open hopen) rfl

end Gated

end

end Circuit

/-! ### Runs -/

namespace OnionRouter

/-- Circuits that are made and freed, cells that arrive on them or come from the edge, changes of
their connections, and the commands of the controller. -/
inductive Action where
  | newCircuit (isOrigin : Bool) (nCircId : UInt16) (nConn : Option OrConnection) (pCircId : UInt16)
      (pConn : Option OrConnection) (cpathLength : Nat)
  | freeCircuit (k : Nat)
  | relayCell (k : Nat) (direction : CellDirection) (arrival : Circuit.Arrival)
  | edge (k : Nat) (call : Circuit.EdgeCall)
  | connections (k : Nat) (nCircId : UInt16) (nConn : Option OrConnection) (pCircId : UInt16)
      (pConn : Option OrConnection)
  | sendpayment (command : Sendpayment)
  | addtokens (command : Addtokens)

def step (closeUnpaid : Bool) (tor : OnionRouter) : Action → Option OnionRouter
  | .newCircuit isOrigin nCircId nConn pCircId pConn cpathLength => some { tor with
      globalCircuitlist := Circuit.initCircuitBase isOrigin nCircId nConn pCircId pConn cpathLength ::
        tor.globalCircuitlist }
  | .freeCircuit k => some { tor with globalCircuitlist := tor.globalCircuitlist.eraseIdx k }
  | .relayCell k direction arrival => some (tor.modifyCircuit k (Circuit.processRelayCell closeUnpaid direction arrival))
  | .edge k call => some (tor.modifyCircuit k fun circ => circ.edgeCall closeUnpaid call)
  | .connections k nCircId nConn pCircId pConn =>
    some (tor.modifyCircuit k fun circ => { circ with nCircId, nConn, pCircId, pConn })
  | .sendpayment command => some (tor.handleControlSendpayment closeUnpaid command).1
  | .addtokens command => some (tor.handleControlAddtokens closeUnpaid command).1

theorem answer_ok (tor after : OnionRouter) (k : Nat) : (tor.answer (.ok (after, k))).1 = after := by
  unfold answer
  dsimp only
  split
  · rfl
  · rfl

/-- A message goes over one open circuit, if over any. -/
theorem handleControlSendpayment_circuits (closeUnpaid : Bool) (tor : OnionRouter) (command : Sendpayment) :
    (tor.handleControlSendpayment closeUnpaid command).1.globalCircuitlist = tor.globalCircuitlist ∨
      ∃ k circ, tor.globalCircuitlist[k]? = some circ ∧ circ.markedForClose = none ∧
        (tor.handleControlSendpayment closeUnpaid command).1.globalCircuitlist = tor.globalCircuitlist.modify k
          fun circ => (circ.relaySendCommandFromEdge closeUnpaid circ.isOrigin command.crypted).1 := by
  unfold handleControlSendpayment
  cases hresult : tor.sendpayment closeUnpaid command with
  | error reply => exact Or.inl rfl
  | ok result =>
    rw [answer_ok]
    obtain ⟨⟨k, circ, nextCircId, conn⟩, htarget, hresult⟩ := bind_eq_ok hresult
    obtain ⟨numHops, -, hresult⟩ := bind_eq_ok hresult
    obtain ⟨overCircuit, -, hresult⟩ := bind_eq_ok hresult
    obtain ⟨hk, hopen⟩ := commandTarget_open htarget
    dsimp only at hresult
    split at hresult
    · obtain ⟨data, -, hresult⟩ := bind_eq_ok hresult
      cases hresult
      exact Or.inl rfl
    · obtain ⟨data, -, hresult⟩ := bind_eq_ok hresult
      split at hresult
      · cases hresult
      · cases hresult
        exact Or.inr ⟨k, circ, hk, hopen, rfl⟩

/-- Tokens are added to one open circuit, if to any. -/
theorem handleControlAddtokens_circuits (closeUnpaid : Bool) (tor : OnionRouter) (command : Addtokens) :
    (tor.handleControlAddtokens closeUnpaid command).1.globalCircuitlist = tor.globalCircuitlist ∨
      ∃ k circ numReadCells numWriteCells, tor.globalCircuitlist[k]? = some circ ∧ circ.markedForClose = none ∧
        (tor.handleControlAddtokens closeUnpaid command).1.globalCircuitlist = tor.globalCircuitlist.modify k
          (Circuit.addTokens closeUnpaid numReadCells numWriteCells command.calls) := by
  unfold handleControlAddtokens
  cases hresult : tor.addtokens closeUnpaid command with
  | error reply => exact Or.inl rfl
  | ok result =>
    rw [answer_ok]
    obtain ⟨⟨k, circ, nextCircId, conn⟩, htarget, hresult⟩ := bind_eq_ok hresult
    obtain ⟨numReadCells, -, hresult⟩ := bind_eq_ok hresult
    obtain ⟨numWriteCells, -, hresult⟩ := bind_eq_ok hresult
    obtain ⟨hk, hopen⟩ := commandTarget_open htarget
    cases hresult
    exact Or.inr ⟨k, circ, numReadCells, numWriteCells, hk, hopen, rfl⟩

/-- One circuit of the list changes. -/
theorem modify_at_gated {circs : List Circuit} (h : ∀ circ ∈ circs, circ.Gated) {k : Nat} {circ : Circuit}
    (hk : circs[k]? = some circ) {f : Circuit → Circuit} (hf : (f circ).Gated) :
    ∀ circ ∈ circs.modify k f, circ.Gated := by
  intro other hother
  rcases List.mem_cons.mp ((modify_perm hk f).mem_iff.mp hother) with rfl | hother
  · exact hf
  · exact h other (List.mem_of_mem_eraseIdx hother)

theorem modify_gated {circs : List Circuit} (h : ∀ circ ∈ circs, circ.Gated) (k : Nat) {f : Circuit → Circuit}
    (hf : ∀ circ, circ.Gated → (f circ).Gated) : ∀ circ ∈ circs.modify k f, circ.Gated := by
  intro circ hcirc
  rcases mem_modify hcirc with hcirc | ⟨old, hold, rfl⟩
  · exact h circ hcirc
  · exact hf old (h old hold)

theorem step_gated {tor after : OnionRouter} {action : Action} (h : ∀ circ ∈ tor.globalCircuitlist, circ.Gated)
    (hstep : tor.step true action = some after) : ∀ circ ∈ after.globalCircuitlist, circ.Gated := by
  cases action with
  | newCircuit isOrigin nCircId nConn pCircId pConn cpathLength =>
    cases hstep
    intro circ hcirc
    rcases List.mem_cons.mp hcirc with rfl | hcirc
    · exact Circuit.Gated.initCircuitBase isOrigin nCircId nConn pCircId pConn cpathLength
    · exact h circ hcirc
  | freeCircuit k =>
    cases hstep
    exact fun circ hcirc => h circ (List.mem_of_mem_eraseIdx hcirc)
  | relayCell k direction arrival =>
    cases hstep
    exact modify_gated h k fun circ hcirc => hcirc.processRelayCell direction arrival
  | edge k call =>
    cases hstep
    exact modify_gated h k fun circ hcirc => hcirc.edgeCall call
  | connections k nCircId nConn pCircId pConn =>
    cases hstep
    exact modify_gated h k fun circ hcirc => ⟨hcirc.credit, hcirc.bound, hcirc.refused, hcirc.quiet⟩
  | sendpayment command =>
    cases hstep
    rcases handleControlSendpayment_circuits true tor command with hsame | ⟨k, circ, hk, hopen, hmodify⟩
    · rwa [hsame]
    · rw [hmodify]
      apply modify_at_gated h hk
      exact (h circ (List.mem_of_getElem? hk)).relaySendCommandFromEdge (Or.inl hopen) circ.isOrigin command.crypted
  | addtokens command =>
    cases hstep
    rcases handleControlAddtokens_circuits true tor command with
      hsame | ⟨k, circ, numReadCells, numWriteCells, hk, hopen, hmodify⟩
    · rwa [hsame]
    · rw [hmodify]
      apply modify_at_gated h hk
      exact (h circ (List.mem_of_getElem? hk)).addTokens hopen numReadCells numWriteCells command.calls

/-- On every circuit of every run, the cells that pass in a direction are covered by the first
grant, the tokens of that direction and one increment; and a cell that is refused closes a
relay's circuit as unpaid, and is followed by none that passes. -/
theorem payment_gate {actions : List Action} {tor : OnionRouter}
    (h : Run (step true) (fun _ _ => True) { globalCircuitlist := [], written := [] } actions tor)
    {circ : Circuit} (hcirc : circ ∈ tor.globalCircuitlist) :
    (∀ direction, (circ.relayed direction : Int) ≤
      CIRCWINDOW_START + circ.tokensAdded direction + CIRCWINDOW_INCREMENT) ∧
    (circ.isOrigin = false → ∀ event ∈ circ.history, event.isRefusal = true →
      circ.markedForClose = some END_CIRC_REASON_UNPAID) ∧
    circ.history.Pairwise fun event later => event.isRefusal = true → ∀ direction, later.relays direction = false := by
  have hgated := h.invariant (I := fun tor => ∀ circ ∈ tor.globalCircuitlist, circ.Gated)
    (fun h _ hstep => step_gated h hstep) (fun _ h => by cases h) circ hcirc
  refine ⟨hgated.bound, fun horigin event hevent hrefusal => ?_, hgated.quiet⟩
  obtain ⟨-, hclosed⟩ := hgated.refused event hevent hrefusal
  rw [hclosed, Circuit.closeReason_unpaid horigin]

/-- Tokens for a circuit, two cells on it towards the origin, and one from the edge. -/
def exampleCells : List Action :=
  [.newCircuit false 5 (some exampleNext) 6 (some examplePrevious) 0,
    .addtokens {
      digest := { text := "", value := some (exampleDigest 1) }
      circId := { text := "6", value := some 6 }
      numReadCells := { text := "7", value := some 7 }
      numWriteCells := { text := "0", value := some 0 }
      calls := [] },
    .relayCell 0 .inward { recognized := some false, calls := [], reason := 0, splice := none },
    .edge 0 (.send false true),
    .relayCell 0 .inward { recognized := some true, calls := [], reason := 0, splice := none }]

theorem payment_gate_three_cells :
    ∃ tor circ, Run (step true) (fun _ _ => True) { globalCircuitlist := [], written := [] } exampleCells tor ∧
      circ ∈ tor.globalCircuitlist ∧ circ.relayed .inward = 3 ∧ circ.tokensAdded .inward = 7 ∧
      (circ.relayed .inward : Int) ≤ CIRCWINDOW_START + circ.tokensAdded .inward + CIRCWINDOW_INCREMENT := by
  have hend : (exec (step true) { globalCircuitlist := [], written := [] } exampleCells).any (fun tor =>
      tor.globalCircuitlist.any fun circ => decide (circ.relayed .inward = 3 ∧ circ.tokensAdded .inward = 7)) = true := by
    decide
  obtain ⟨tor, hrun, hany⟩ := exists_run hend (eachStep_true _ exampleCells)
  obtain ⟨circ, hcirc, hdecide⟩ := List.any_eq_true.mp hany
  obtain ⟨hrelayed, hadded⟩ := of_decide_eq_true hdecide
  exact ⟨tor, circ, hrun, hcirc, hrelayed, hadded, (payment_gate hrun hcirc).1 .inward⟩

end OnionRouter

end BitBlinder.Innomitor
