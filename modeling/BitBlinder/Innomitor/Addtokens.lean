import BitBlinder.Innomitor.Control

/-!
# What ADDTOKENS means

`add_tokens` of the client sends two numbers: how many tokens to add to either
bucket, twice 0 to query them, twice -1 to close the circuit. The numbers to add
come from a payment message, as unsigned 32-bit integers. `Agrees` is the
client's reading of the command, and `Regular` says where Tor has the same one.
-/

namespace BitBlinder.Innomitor

set_option autoImplicit false

namespace Circuit

/-- An open circuit with the tokens of a command. -/
def granted (numReadCells numWriteCells : Int) (circ : Circuit) : Circuit :=
  { circ with
    payedReads := circ.payedReads + numReadCells
    payedWrites := circ.payedWrites + numWriteCells
    payedReadsAdded := circ.payedReadsAdded + numReadCells
    payedWritesAdded := circ.payedWritesAdded + numWriteCells
    history := circ.history ++ [.added numReadCells numWriteCells] }

/-- The direction in which a call charges a cell, if it does. -/
def chargedBy (closeUnpaid : Bool) (circ : Circuit) : EdgeCall → Option CellDirection
  | .send layered _ =>
    if closeUnpaid ∧ circ.TakesCells then
      if layered then some .outward else if !circ.isOrigin then some .inward else none
    else none
  | .close _ => none

/-- The cells that a list of calls charges to a direction. -/
def charged (closeUnpaid : Bool) (direction : CellDirection) : List EdgeCall → Circuit → Nat
  | [], _ => 0
  | call :: calls, circ =>
    (if circ.chargedBy closeUnpaid call = some direction then 1 else 0) +
      charged closeUnpaid direction calls (circ.edgeCall closeUnpaid call)

structure SameCounters (circ other : Circuit) : Prop where
  reads : circ.payedReads = other.payedReads
  writes : circ.payedWrites = other.payedWrites
  readsAdded : circ.payedReadsAdded = other.payedReadsAdded
  writesAdded : circ.payedWritesAdded = other.payedWritesAdded

theorem SameCounters.trans {circ other third : Circuit} (h : circ.SameCounters other) (h' : other.SameCounters third) :
    circ.SameCounters third where
  reads := h.reads.trans h'.reads
  writes := h.writes.trans h'.writes
  readsAdded := h.readsAdded.trans h'.readsAdded
  writesAdded := h.writesAdded.trans h'.writesAdded

theorem markForClose_sameCounters (circ : Circuit) (reason : Int) : (circ.markForClose reason).SameCounters circ := by
  unfold markForClose
  split
  · exact ⟨rfl, rfl, rfl, rfl⟩
  · exact ⟨rfl, rfl, rfl, rfl⟩

theorem markForClose_isSome (circ : Circuit) (reason : Int) : (circ.markForClose reason).markedForClose.isSome := by
  unfold markForClose
  split
  · rename_i h
    rw [h]
    rfl
  · rfl

theorem record_sameCounters (circ : Circuit) (event : Event) : (circ.record event).SameCounters circ :=
  ⟨rfl, rfl, rfl, rfl⟩

theorem packageRelayCell_sameCounters (crypted : Bool) (direction : CellDirection) (circ : Circuit) :
    (circ.packageRelayCell crypted direction).1.SameCounters circ := by
  unfold packageRelayCell
  cases direction with
  | outward =>
    dsimp only
    split
    · exact ⟨rfl, rfl, rfl, rfl⟩
    · split
      · exact ⟨rfl, rfl, rfl, rfl⟩
      · exact record_sameCounters circ _
  | inward =>
    dsimp only
    split
    · exact ⟨rfl, rfl, rfl, rfl⟩
    · split
      · exact ⟨rfl, rfl, rfl, rfl⟩
      · exact record_sameCounters circ _

/-- Sending a cell changes the counters by the charge alone. -/
theorem sendFromEdge_sameCounters (closeUnpaid crypted : Bool) (direction : CellDirection) (circ : Circuit) :
    (circ.sendFromEdge closeUnpaid crypted direction).1.SameCounters (circ.charge closeUnpaid direction) := by
  unfold sendFromEdge
  dsimp only
  split
  · exact (markForClose_sameCounters _ _).trans (record_sameCounters _ _)
  · have hsame := packageRelayCell_sameCounters crypted direction (circ.charge closeUnpaid direction)
    split
    · exact (markForClose_sameCounters _ _).trans hsame
    · exact hsame

/-- The counter of a direction and the tokens added to it so far. -/
def counters (direction : CellDirection) (circ : Circuit) : Int × Int :=
  match direction with
  | .inward => (circ.payedReads, circ.payedReadsAdded)
  | .outward => (circ.payedWrites, circ.payedWritesAdded)

theorem SameCounters.counters {circ other : Circuit} (h : circ.SameCounters other) (direction : CellDirection) :
    circ.counters direction = other.counters direction := by
  cases direction with
  | inward => exact Prod.ext h.reads h.readsAdded
  | outward => exact Prod.ext h.writes h.writesAdded

theorem counters_charge (direction other : CellDirection) (circ : Circuit) :
    (circ.charge true direction).counters other =
      ((circ.counters other).1 - if direction = other then 1 else 0, (circ.counters other).2) := by
  cases direction with
  | inward => cases other with
    | inward => rfl
    | outward => simp [charge, Circuit.counters]
  | outward => cases other with
    | inward => simp [charge, Circuit.counters]
    | outward => rfl

/-- One call takes the cell that it charges from the counter of its direction. -/
theorem counters_edgeCall (closeUnpaid : Bool) (direction : CellDirection) (circ : Circuit) (call : EdgeCall) :
    (circ.edgeCall closeUnpaid call).counters direction =
      ((circ.counters direction).1 - if circ.chargedBy closeUnpaid call = some direction then 1 else 0,
        (circ.counters direction).2) := by
  cases call with
  | close reason =>
    rw [show circ.edgeCall closeUnpaid (.close reason) = circ.markForClose reason from rfl,
      (markForClose_sameCounters circ reason).counters direction]
    simp [chargedBy]
  | send layered crypted =>
    by_cases htakes : circ.TakesCells
    · have hsend : ∀ sent, ((circ.sendFromEdge closeUnpaid crypted sent).1).counters direction =
          ((circ.counters direction).1 - if closeUnpaid = true ∧ sent = direction then 1 else 0,
            (circ.counters direction).2) := by
        intro sent
        rw [(sendFromEdge_sameCounters closeUnpaid crypted sent circ).counters direction]
        cases closeUnpaid with
        | true =>
          rw [counters_charge]
          simp
        | false => simp [charge]
      rw [edgeCall, if_pos htakes, relaySendCommandFromEdge]
      cases layered with
      | true =>
        rw [if_pos rfl, hsend]
        simp [chargedBy, htakes]
      | false =>
        rw [if_neg (by decide)]
        cases horigin : circ.isOrigin with
        | false =>
          rw [Bool.not_false, if_pos rfl, hsend]
          simp [chargedBy, htakes, horigin]
        | true => simp [chargedBy, horigin]
    · rw [edgeCall, if_neg htakes]
      simp [chargedBy, htakes]

/-- What is left of a counter and the cells that were charged to it make up what was there. -/
theorem counters_calls (closeUnpaid : Bool) (direction : CellDirection) (calls : List EdgeCall) (circ : Circuit) :
    ((calls.foldl (edgeCall closeUnpaid) circ).counters direction).1 + charged closeUnpaid direction calls circ =
        (circ.counters direction).1 ∧
      ((calls.foldl (edgeCall closeUnpaid) circ).counters direction).2 = (circ.counters direction).2 := by
  induction calls generalizing circ with
  | nil => exact ⟨Int.add_zero _, rfl⟩
  | cons call calls ih =>
    obtain ⟨hleft, hadded⟩ := ih (circ.edgeCall closeUnpaid call)
    have hcall := counters_edgeCall closeUnpaid direction circ call
    rw [hcall] at hleft hadded
    refine ⟨?_, hadded⟩
    rw [List.foldl_cons, charged, Nat.cast_add, Nat.cast_ite]
    dsimp only at hleft
    push_cast
    omega

end Circuit

/-! ### Both sides of the control port -/

/-- A number of tokens as a payment message gives it. -/
def Payable (tokens : Int) : Prop := 0 ≤ tokens ∧ tokens ≤ UINT32_MAX

instance (tokens : Int) : Decidable (Payable tokens) := inferInstanceAs (Decidable (_ ∧ _))

/-- The pairs that `add_tokens` can send. -/
def InProtocol (r w : Int) : Prop := Payable r ∧ Payable w ∨ r = -1 ∧ w = -1

instance (r w : Int) : Decidable (InProtocol r w) := inferInstanceAs (Decidable (_ ∨ _))

/-- The two numbers of the command read as these. -/
def Addtokens.Asks (command : Addtokens) (r w : Int) : Prop :=
  command.numReadCells.value = some r ∧ command.numWriteCells.value = some w

namespace Circuit

/-- No counter gets too large for an `int`. -/
structure Fits (circ : Circuit) : Prop where
  reads : circ.payedReads ≤ INT32_MAX
  writes : circ.payedWrites ≤ INT32_MAX
  readsAdded : circ.payedReadsAdded ≤ INT32_MAX
  writesAdded : circ.payedWritesAdded ≤ INT32_MAX

/-- The counters have grown by the tokens, and the cells that were sent since are paid from them. -/
structure Grown (closeUnpaid : Bool) (r w : Int) (calls : List EdgeCall) (before after : Circuit) : Prop where
  reads : after.payedReads + charged closeUnpaid .inward calls (before.granted r w) = before.payedReads + r
  writes : after.payedWrites + charged closeUnpaid .outward calls (before.granted r w) = before.payedWrites + w
  readsAdded : after.payedReadsAdded = before.payedReadsAdded + r
  writesAdded : after.payedWritesAdded = before.payedWritesAdded + w
  fits : (before.granted r w).Fits

end Circuit

/-- The list with another circuit at the place that was found. -/
def OnionRouter.withCircuit (tor : OnionRouter) (k : Nat) (after : Circuit) : OnionRouter :=
  { tor with globalCircuitlist := tor.globalCircuitlist.set k after }

/-- Tor does with the circuit at `k` what the client means by the command. -/
structure OnionRouter.Agrees (closeUnpaid : Bool) (tor : OnionRouter) (command : Addtokens) (k : Nat) (circ : Circuit) :
    Prop where
  adds : ∀ r w, command.Asks r w → Payable r → Payable w → ¬(r = 0 ∧ w = 0) →
    ∃ after, (tor.handleControlAddtokens closeUnpaid command).1 = tor.withCircuit k after ∧
      circ.Grown closeUnpaid r w command.calls after
  queries : command.Asks 0 0 → (tor.handleControlAddtokens closeUnpaid command).1 = tor
  closes : command.Asks (-1) (-1) →
    ∃ after, (tor.handleControlAddtokens closeUnpaid command).1 = tor.withCircuit k after ∧
      after.markedForClose.isSome ∧ after.SameCounters circ
  refuses : (∀ r w, command.Asks r w → ¬InProtocol r w) →
    (tor.handleControlAddtokens closeUnpaid command).1 = tor ∧
      ((tor.handleControlAddtokens closeUnpaid command).2 =
          "552 bad value for numReadCells \"" ++ command.numReadCells.text ++ "\"\r\n" ∨
        (tor.handleControlAddtokens closeUnpaid command).2 =
          "552 bad value for numWriteCells \"" ++ command.numWriteCells.text ++ "\"\r\n")

/-- Tokens to write come with tokens to read, both and their sums are those of an `int`, and what
is not in the protocol is out of the limits that the arguments have. -/
structure Addtokens.Regular (command : Addtokens) (circ : Circuit) : Prop where
  adds : ∀ r w, command.Asks r w → Payable r → Payable w → ¬(r = 0 ∧ w = 0) →
    0 < r ∧ r ≤ INT32_MAX ∧ w ≤ INT32_MAX ∧ (circ.granted r w).Fits
  refuses : ∀ r w, command.Asks r w → ¬InProtocol r w → r < -1 ∨ INT32_MAX < r ∨ w < -1 ∨ INT32_MAX < w

/-- The result of ADDTOKENS once the circuit is found. -/
theorem addtokens_at {tor : OnionRouter} {command : Addtokens} {k : Nat} {circ : Circuit} {nextCircId : UInt16}
    {conn : OrConnection} (h : tor.commandTarget command.digest command.circId = .ok (k, circ, nextCircId, conn))
    (closeUnpaid : Bool) :
    tor.addtokens closeUnpaid command =
      (orReply (command.numReadCells.parse (-1) INT32_MAX)
        ("552 bad value for numReadCells \"" ++ command.numReadCells.text ++ "\"\r\n") >>= fun r =>
      orReply (command.numWriteCells.parse (-1) INT32_MAX)
        ("552 bad value for numWriteCells \"" ++ command.numWriteCells.text ++ "\"\r\n") >>= fun w =>
      .ok (tor.modifyCircuit k (Circuit.addTokens closeUnpaid r w command.calls), k)) := by
  unfold OnionRouter.addtokens
  rw [h]
  rfl

theorem Arg.parse_of_limits {arg : Arg Int} {n min max : Int} (h : arg.value = some n) (hmin : min ≤ n) (hmax : n ≤ max) :
    arg.parse min max = some n := by
  unfold Arg.parse
  rw [h]
  exact if_neg (by omega)

theorem Arg.parse_eq_none {arg : Arg Int} {n min max : Int} (h : arg.value = some n) (hout : n < min ∨ max < n) :
    arg.parse min max = none := by
  unfold Arg.parse
  rw [h]
  exact if_pos hout

section
variable {tor : OnionRouter} {command : Addtokens} {k : Nat} {circ : Circuit} {nextCircId : UInt16} {conn : OrConnection}
  {r w : Int}

theorem modifyCircuit_eq (h : tor.globalCircuitlist[k]? = some circ) (f : Circuit → Circuit) :
    tor.modifyCircuit k f = tor.withCircuit k (f circ) := by
  have hlist : tor.globalCircuitlist.modify k f = tor.globalCircuitlist.set k (f circ) := by
    apply List.ext_getElem?
    intro j
    rw [List.getElem?_modify, List.getElem?_set]
    by_cases hj : k = j
    · obtain ⟨hlt, rfl⟩ := List.getElem?_eq_some_iff.mp h
      subst hj
      simp [hlt]
    · simp [hj]
  unfold OnionRouter.modifyCircuit OnionRouter.withCircuit
  rw [hlist]

theorem withCircuit_self (h : tor.globalCircuitlist[k]? = some circ) : tor.withCircuit k circ = tor := by
  obtain ⟨hlt, rfl⟩ := List.getElem?_eq_some_iff.mp h
  unfold OnionRouter.withCircuit
  rw [List.set_getElem_self]

theorem withCircuit_inj (h : tor.globalCircuitlist[k]? = some circ) {after other : Circuit}
    (heq : tor.withCircuit k after = tor.withCircuit k other) : after = other := by
  obtain ⟨hlt, -⟩ := List.getElem?_eq_some_iff.mp h
  have hat := congrArg (fun tor => tor.globalCircuitlist[k]?) heq
  simpa [OnionRouter.withCircuit, hlt] using hat

/-- A command whose numbers are within the limits is carried out. -/
theorem addtokens_accepted (h : tor.commandTarget command.digest command.circId = .ok (k, circ, nextCircId, conn))
    (closeUnpaid : Bool) (hasks : command.Asks r w) (hr : -1 ≤ r ∧ r ≤ INT32_MAX) (hw : -1 ≤ w ∧ w ≤ INT32_MAX) :
    (tor.handleControlAddtokens closeUnpaid command).1 =
        tor.withCircuit k (circ.addTokens closeUnpaid r w command.calls) ∧
      ∃ numbers, (tor.handleControlAddtokens closeUnpaid command).2 = "250 " ++ numbers := by
  have hk := (commandTarget_open h).1
  obtain ⟨hlt, -⟩ := List.getElem?_eq_some_iff.mp hk
  unfold OnionRouter.handleControlAddtokens
  rw [addtokens_at h closeUnpaid, Arg.parse_of_limits hasks.1 hr.1 hr.2, Arg.parse_of_limits hasks.2 hw.1 hw.2,
    orReply_some, ok_bind, orReply_some, ok_bind, modifyCircuit_eq hk]
  simp only [OnionRouter.answer, OnionRouter.withCircuit, List.getElem?_set_self hlt, String.append_assoc]
  exact ⟨trivial, _, rfl⟩

/-- A command that has a number out of the limits, or none, is refused. -/
theorem addtokens_refused (h : tor.commandTarget command.digest command.circId = .ok (k, circ, nextCircId, conn))
    (closeUnpaid : Bool)
    (hout : command.numReadCells.parse (-1) INT32_MAX = none ∨ command.numWriteCells.parse (-1) INT32_MAX = none) :
    (tor.handleControlAddtokens closeUnpaid command).1 = tor ∧
      ((tor.handleControlAddtokens closeUnpaid command).2 =
          "552 bad value for numReadCells \"" ++ command.numReadCells.text ++ "\"\r\n" ∨
        (tor.handleControlAddtokens closeUnpaid command).2 =
          "552 bad value for numWriteCells \"" ++ command.numWriteCells.text ++ "\"\r\n") := by
  unfold OnionRouter.handleControlAddtokens
  rw [addtokens_at h closeUnpaid]
  cases hread : command.numReadCells.parse (-1) INT32_MAX with
  | none => exact ⟨rfl, Or.inl rfl⟩
  | some r =>
    cases hwrite : command.numWriteCells.parse (-1) INT32_MAX with
    | none => exact ⟨rfl, Or.inr rfl⟩
    | some w =>
      rcases hout with hnone | hnone
      · rw [hread] at hnone
        cases hnone
      · rw [hwrite] at hnone
        cases hnone

theorem Addtokens.Asks.parse_eq_none (h : command.Asks r w)
    (hout : r < -1 ∨ INT32_MAX < r ∨ w < -1 ∨ INT32_MAX < w) :
    command.numReadCells.parse (-1) INT32_MAX = none ∨ command.numWriteCells.parse (-1) INT32_MAX = none := by
  rcases hout with hlow | hhigh | hlow | hhigh
  · exact Or.inl (Arg.parse_eq_none h.1 (Or.inl hlow))
  · exact Or.inl (Arg.parse_eq_none h.1 (Or.inr hhigh))
  · exact Or.inr (Arg.parse_eq_none h.2 (Or.inl hlow))
  · exact Or.inr (Arg.parse_eq_none h.2 (Or.inr hhigh))

theorem Addtokens.Asks.unique (h : command.Asks r w) {r' w' : Int} (h' : command.Asks r' w') : r' = r ∧ w' = w :=
  ⟨Option.some.inj (h'.1.symm.trans h.1), Option.some.inj (h'.2.symm.trans h.2)⟩

/-- The circuit that ADDTOKENS leaves has the tokens, if there are any to read. -/
theorem grown_addTokens (closeUnpaid : Bool) (calls : List Circuit.EdgeCall) (hr : 0 < r)
    (hfits : (circ.granted r w).Fits) : circ.Grown closeUnpaid r w calls (circ.addTokens closeUnpaid r w calls) := by
  have hafter : circ.addTokens closeUnpaid r w calls =
      calls.foldl (Circuit.edgeCall closeUnpaid) (circ.granted r w) := by
    unfold Circuit.addTokens
    rw [if_neg (by omega), if_neg (by omega)]
    rfl
  obtain ⟨hreads, hreadsAdded⟩ := Circuit.counters_calls closeUnpaid .inward calls (circ.granted r w)
  obtain ⟨hwrites, hwritesAdded⟩ := Circuit.counters_calls closeUnpaid .outward calls (circ.granted r w)
  rw [hafter]
  exact ⟨hreads, hwrites, hreadsAdded, hwritesAdded, hfits⟩

/-- Tor and the client agree on ADDTOKENS exactly where the command is regular. -/
theorem addtokens_agrees_iff (closeUnpaid : Bool) (tor : OnionRouter) (command : Addtokens) (k : Nat) (circ : Circuit)
    (nextCircId : UInt16) (conn : OrConnection)
    (h : tor.commandTarget command.digest command.circId = .ok (k, circ, nextCircId, conn)) :
    tor.Agrees closeUnpaid command k circ ↔ command.Regular circ := by
  obtain ⟨hk, hopen⟩ := commandTarget_open h
  constructor
  · intro hagrees
    refine ⟨fun r w hasks hr hw hsome => ?_, fun r w hasks hnot => ?_⟩
    · obtain ⟨after, hafter, hgrown⟩ := hagrees.adds r w hasks hr hw hsome
      -- A circuit that is left alone has not grown by anything.
      have hchanged : after ≠ circ := by
        rintro rfl
        have hreads := hgrown.readsAdded
        have hwrites := hgrown.writesAdded
        exact hsome ⟨by omega, by omega⟩
      have hlimits : r ≤ INT32_MAX ∧ w ≤ INT32_MAX := by
        by_contra hlarge
        have hsame := (addtokens_refused h closeUnpaid (hasks.parse_eq_none (by omega))).1
        exact hchanged (withCircuit_inj hk (hafter.symm.trans (hsame.trans (withCircuit_self hk).symm)))
      have hr0 := hr.1
      have hw0 := hw.1
      obtain ⟨hdone, -⟩ :=
        addtokens_accepted h closeUnpaid hasks ⟨by omega, hlimits.1⟩ ⟨by omega, hlimits.2⟩
      have hresult : after = circ.addTokens closeUnpaid r w command.calls :=
        withCircuit_inj hk (hafter.symm.trans hdone)
      have hpositive : 0 < r := by
        by_contra hzero
        apply hchanged
        rw [hresult, Circuit.addTokens, if_neg (by omega), if_pos (by omega)]
      exact ⟨hpositive, hlimits.1, hlimits.2, hgrown.fits⟩
    · by_contra hwithin
      obtain ⟨-, numbers, hreply⟩ :=
        addtokens_accepted h closeUnpaid hasks (r := r) (w := w) ⟨by omega, by omega⟩ ⟨by omega, by omega⟩
      have hrefused := hagrees.refuses fun r' w' hasks' => by
        obtain ⟨rfl, rfl⟩ := hasks.unique hasks'
        exact hnot
      rw [hreply] at hrefused
      -- The answer begins with 250 and not with 552.
      rcases hrefused.2 with htext | htext
      · have hlist := congrArg String.toList htext
        simp at hlist
      · have hlist := congrArg String.toList htext
        simp at hlist
  · intro hregular
    refine ⟨fun r w hasks hr hw hsome => ?_, fun hasks => ?_, fun hasks => ?_, fun hnot => ?_⟩
    · obtain ⟨hpositive, hrmax, hwmax, hfits⟩ := hregular.adds r w hasks hr hw hsome
      have hw0 := hw.1
      obtain ⟨hdone, -⟩ := addtokens_accepted h closeUnpaid hasks ⟨by omega, hrmax⟩ ⟨by omega, hwmax⟩
      exact ⟨_, hdone, grown_addTokens closeUnpaid command.calls hpositive hfits⟩
    · obtain ⟨hdone, -⟩ := addtokens_accepted h closeUnpaid hasks (by decide) (by decide)
      rw [hdone]
      exact withCircuit_self hk
    · obtain ⟨hdone, -⟩ := addtokens_accepted h closeUnpaid hasks (by decide) (by decide)
      exact ⟨_, hdone, Circuit.markForClose_isSome circ _, Circuit.markForClose_sameCounters circ _⟩
    · apply addtokens_refused h closeUnpaid
      cases hread : command.numReadCells.value with
      | none => exact Or.inl (by rw [Arg.parse, hread])
      | some r =>
        cases hwrite : command.numWriteCells.value with
        | none => exact Or.inr (by rw [Arg.parse, hwrite])
        | some w =>
          have hasks : command.Asks r w := ⟨hread, hwrite⟩
          exact hasks.parse_eq_none (hregular.refuses r w hasks (hnot r w hasks))

end

def exampleTokens (r w : Int) : Addtokens where
  digest := { text := "", value := some (exampleDigest 1) }
  circId := { text := "5", value := some 5 }
  numReadCells := { text := toString r, value := some r }
  numWriteCells := { text := toString w, value := some w }
  calls := []

theorem exampleTokens_target (r w : Int) :
    exampleRouter.commandTarget (exampleTokens r w).digest (exampleTokens r w).circId =
      .ok (0, exampleCircuit, 5, exampleNext) := by
  unfold exampleTokens
  rfl

theorem exampleTokens_asks {r w r' w' : Int} (h : (exampleTokens r w).Asks r' w') : r = r' ∧ w = w' :=
  ⟨Option.some.inj h.1, Option.some.inj h.2⟩

theorem five_and_three_tokens_agree : exampleRouter.Agrees true (exampleTokens 5 3) 0 exampleCircuit := by
  refine (addtokens_agrees_iff true exampleRouter (exampleTokens 5 3) 0 exampleCircuit 5 exampleNext
    (exampleTokens_target 5 3)).mpr ⟨fun r w hasks _ _ _ => ?_, fun r w hasks hnot => ?_⟩
  · obtain ⟨rfl, rfl⟩ := exampleTokens_asks hasks
    exact ⟨by decide, by decide, by decide, by decide, by decide, by decide, by decide⟩
  · obtain ⟨rfl, rfl⟩ := exampleTokens_asks hasks
    exact absurd (by decide) hnot

/-- A payment for cells to write alone is lost: Tor answers it as a query. -/
theorem tokens_to_write_alone_are_lost :
    (exampleRouter.handleControlAddtokens true (exampleTokens 0 5)).1 = exampleRouter ∧
    ¬exampleRouter.Agrees true (exampleTokens 0 5) 0 exampleCircuit := by
  have hsame : (exampleRouter.handleControlAddtokens true (exampleTokens 0 5)).1 = exampleRouter := by
    decide
  refine ⟨hsame, fun h => ?_⟩
  obtain ⟨after, hafter, hgrown⟩ := h.adds 0 5 ⟨rfl, rfl⟩ (by decide) (by decide) (by decide)
  have hresult : after = exampleCircuit := by
    have hlist := congrArg OnionRouter.globalCircuitlist (hafter.symm.trans hsame)
    exact (List.cons.inj hlist).1
  have hadded := hgrown.writesAdded
  rw [hresult] at hadded
  exact absurd hadded (by decide)

end BitBlinder.Innomitor
