import BitBlinder.Innomitor.Addtokens
import BitBlinder.Tor.ClientPayment
import BitBlinder.Runs
import Mathlib.Tactic.Ring

/-!
# Token levels

Every second Tor reports the levels of the circuits that originate here and what
was added to them since its last report. `token_level_event` works out the traffic
from this and from the last levels that it heard of. `pending` is what Tor has
charged and not yet reported.
-/

namespace BitBlinder.Tor

set_option autoImplicit false

open Innomitor

structure TokenLevelEvent where
  reads : Int
  writes : Int
  readsAdded : Int
  writesAdded : Int

/-- What a `Circuit` of the client knows of its tokens, and the traffic that `handle_bw_event` got. -/
structure CircuitLevels where
  done : Bool
  lastPayedReads : Int
  lastPayedWrites : Int
  payedReadBytes : Int
  payedWriteBytes : Int
  traffic : List (Int × Int)

namespace CircuitLevels

def new : CircuitLevels where
  done := false
  lastPayedReads := 0
  lastPayedWrites := 0
  payedReadBytes := 0
  payedWriteBytes := 0
  traffic := []

def handleTokenResponse (c : CircuitLevels) (read write : Int) : CircuitLevels :=
  { c with payedReadBytes := read * BYTES_PER_CELL, payedWriteBytes := write * BYTES_PER_CELL }

def handleBwEvent (c : CircuitLevels) (dataRead dataWritten : Int) : CircuitLevels :=
  { c with traffic := c.traffic ++ [(dataRead, dataWritten)] }

/-- `token_level_event`. -/
def tokenLevelEvent (c : CircuitLevels) (event : TokenLevelEvent) : CircuitLevels :=
  if c.done then c
  else
    let readTraffic := BYTES_PER_CELL * (c.lastPayedReads - (event.reads - event.readsAdded))
    let writeTraffic := BYTES_PER_CELL * (c.lastPayedWrites - (event.writes - event.writesAdded))
    let c := { c with lastPayedReads := event.reads, lastPayedWrites := event.writes }
    (c.handleTokenResponse event.reads event.writes).handleBwEvent readTraffic writeTraffic

end CircuitLevels

/-- `control_event_circuit_token_levels` for a circuit that is reported. -/
def controlEventCircuitTokenLevels (circ : Circuit) : Circuit × TokenLevelEvent :=
  ({ circ with payedReadsAdded := 0, payedWritesAdded := 0 },
    { reads := circ.payedReads
      writes := circ.payedWrites
      readsAdded := circ.payedReadsAdded
      writesAdded := circ.payedWritesAdded })

/-- A circuit as Tor and as the client has it. -/
structure Metered where
  circ : Circuit
  levels : CircuitLevels

inductive TrafficAction where
  | cell (direction : CellDirection) (arrival : Circuit.Arrival)
  | call (edge : Circuit.EdgeCall)
  | addtokens (numReadCells numWriteCells : Int) (calls : List Circuit.EdgeCall)
  | tokenLevels

namespace Metered

/-- A new circuit of this client. -/
def start (cpathLength : Nat) : Metered where
  circ := .initCircuitBase true 0 none 0 none cpathLength
  levels := .new

/-- A circuit that is marked for close takes no tokens and is not reported. -/
def step (closeUnpaid : Bool) (s : Metered) : TrafficAction → Option Metered
  | .cell direction arrival => some { s with circ := s.circ.processRelayCell closeUnpaid direction arrival }
  | .call edge => some { s with circ := s.circ.edgeCall closeUnpaid edge }
  | .addtokens numReadCells numWriteCells calls =>
    if s.circ.markedForClose = none then
      some { s with circ := s.circ.addTokens closeUnpaid numReadCells numWriteCells calls }
    else none
  | .tokenLevels =>
    if s.circ.markedForClose = none ∧ s.circ.isOrigin then
      let (circ, event) := controlEventCircuitTokenLevels s.circ
      some { circ, levels := s.levels.tokenLevelEvent event }
    else none

end Metered

namespace TrafficAction

def isEvent : TrafficAction → Bool
  | tokenLevels => true
  | _ => false

/-- The actions before the last event, if there is one. -/
def beforeLastEvent (actions : List TrafficAction) : List TrafficAction :=
  (actions.reverse.dropWhile fun action => !action.isEvent).tail.reverse

theorem beforeLastEvent_concat_event (actions : List TrafficAction) :
    beforeLastEvent (actions ++ [tokenLevels]) = actions := by
  simp [beforeLastEvent, isEvent]

theorem beforeLastEvent_concat (actions : List TrafficAction) {action : TrafficAction} (h : action.isEvent = false) :
    beforeLastEvent (actions ++ [action]) = beforeLastEvent actions := by
  simp [beforeLastEvent, h]

theorem isEvent_iff {action : TrafficAction} : action.isEvent = true ↔ action = tokenLevels := by
  cases action with
  | tokenLevels => exact ⟨fun _ => rfl, fun _ => rfl⟩
  | cell direction arrival => exact ⟨nofun, nofun⟩
  | call edge => exact ⟨nofun, nofun⟩
  | addtokens r w calls => exact ⟨nofun, nofun⟩

/-- The cells that an action charges to a direction. -/
def decrements (closeUnpaid : Bool) (direction : CellDirection) (s : Metered) : TrafficAction → Nat
  | cell from_ arrival =>
    if s.circ.markedForClose.isSome then 0
    else
      match arrival.recognized with
      | none => 0
      | some recognized =>
        (if closeUnpaid ∧ from_ = direction then 1 else 0) +
          if recognized ∧ ¬(s.circ.charge closeUnpaid from_).Unpaid then
            Circuit.charged closeUnpaid direction arrival.calls
              ((s.circ.charge closeUnpaid from_).record (.delivered from_))
          else 0
  | call edge => if s.circ.chargedBy closeUnpaid edge = some direction then 1 else 0
  | addtokens numReadCells numWriteCells calls =>
    if 0 < numReadCells then Circuit.charged closeUnpaid direction calls (s.circ.granted numReadCells numWriteCells)
    else 0
  | tokenLevels => 0

end TrafficAction

/-! ### What an action does to the counters -/

section
variable (closeUnpaid : Bool) (direction : CellDirection)

theorem passOn_sameCounters (sent : CellDirection) (splice : Option Int) (circ : Circuit) :
    (circ.passOn sent splice).1.SameCounters circ := by
  unfold Circuit.passOn
  cases sent with
  | outward =>
    dsimp only
    split
    · split
      · split
        · exact Circuit.markForClose_sameCounters circ _
        · exact Circuit.record_sameCounters circ _
      · exact ⟨rfl, rfl, rfl, rfl⟩
    · exact Circuit.record_sameCounters circ _
  | inward =>
    dsimp only
    split
    · exact ⟨rfl, rfl, rfl, rfl⟩
    · split
      · exact ⟨rfl, rfl, rfl, rfl⟩
      · exact Circuit.record_sameCounters circ _

theorem counters_charge_any (sent : CellDirection) (circ : Circuit) :
    (circ.charge closeUnpaid sent).counters direction =
      ((circ.counters direction).1 - (if closeUnpaid = true ∧ sent = direction then 1 else 0 : Nat),
        (circ.counters direction).2) := by
  cases closeUnpaid with
  | true =>
    rw [Circuit.counters_charge]
    simp
  | false => simp [Circuit.charge]

/-- A cell that arrives takes what it is charged from the counter of the direction. -/
theorem counters_processRelayCell (s : Metered) (from_ : CellDirection) (arrival : Circuit.Arrival) :
    (s.circ.processRelayCell closeUnpaid from_ arrival).counters direction =
      ((s.circ.counters direction).1 - TrafficAction.decrements closeUnpaid direction s (.cell from_ arrival),
        (s.circ.counters direction).2) := by
  have hprocess : (s.circ.processRelayCell closeUnpaid from_ arrival).SameCounters
      (s.circ.receiveRelayCell closeUnpaid from_ arrival).1 := by
    unfold Circuit.processRelayCell
    dsimp only
    split
    · exact Circuit.markForClose_sameCounters _ _
    · exact ⟨rfl, rfl, rfl, rfl⟩
  rw [hprocess.counters direction]
  by_cases hmarked : s.circ.markedForClose.isSome
  · simp [Circuit.receiveRelayCell, TrafficAction.decrements, hmarked]
  · cases hrecognized : arrival.recognized with
    | none => simp [Circuit.receiveRelayCell, TrafficAction.decrements, hmarked, hrecognized]
    | some recognized =>
      simp only [Circuit.receiveRelayCell, TrafficAction.decrements, hmarked, hrecognized]
      have hcharge := counters_charge_any closeUnpaid direction from_ s.circ
      by_cases hunpaid : (s.circ.charge closeUnpaid from_).Unpaid
      · rw [if_neg Bool.false_ne_true, if_pos hunpaid, (Circuit.record_sameCounters _ _).counters direction, hcharge]
        simp [hunpaid]
      · rw [if_neg Bool.false_ne_true, if_neg hunpaid]
        cases recognized with
        | true =>
          obtain ⟨hleft, hadded⟩ := Circuit.counters_calls closeUnpaid direction arrival.calls
            ((s.circ.charge closeUnpaid from_).record (.delivered from_))
          rw [(Circuit.record_sameCounters _ _).counters direction, hcharge] at hleft hadded
          rw [if_pos rfl]
          refine Prod.ext ?_ hadded
          simp only [hunpaid, not_false_eq_true, and_self, if_true, if_false, Bool.false_eq_true, Nat.cast_add]
          dsimp only at hleft
          omega
        | false =>
          rw [if_neg Bool.false_ne_true, (passOn_sameCounters from_ arrival.splice _).counters direction, hcharge]
          simp

end

namespace Metered

/-- What was charged to a direction and is not reported yet. -/
def pending (direction : CellDirection) (s : Metered) : Int :=
  match direction with
  | .inward => s.levels.lastPayedReads - (s.circ.payedReads - s.circ.payedReadsAdded)
  | .outward => s.levels.lastPayedWrites - (s.circ.payedWrites - s.circ.payedWritesAdded)

/-- The amounts of a direction that were passed to `handle_bw_event`. -/
def traffic (direction : CellDirection) (s : Metered) : List Int :=
  match direction with
  | .inward => s.levels.traffic.map Prod.fst
  | .outward => s.levels.traffic.map Prod.snd

/-- Tokens that are added do not count. -/
theorem pending_of_counters {s t : Metered} {direction : CellDirection} {n : Nat} (g : Int)
    (hlevels : t.levels = s.levels)
    (hcounters : t.circ.counters direction =
      ((s.circ.counters direction).1 + g - n, (s.circ.counters direction).2 + g)) :
    t.pending direction = s.pending direction + n := by
  cases direction with
  | inward =>
    obtain ⟨hpayed, hadded⟩ := Prod.mk.inj hcounters
    unfold pending
    rw [hlevels]
    dsimp only [Circuit.counters] at hpayed hadded ⊢
    omega
  | outward =>
    obtain ⟨hpayed, hadded⟩ := Prod.mk.inj hcounters
    unfold pending
    rw [hlevels]
    dsimp only [Circuit.counters] at hpayed hadded ⊢
    omega

/-- An action that is not an event adds to what is pending. -/
theorem pending_step {closeUnpaid : Bool} {s t : Metered} {action : TrafficAction} (direction : CellDirection)
    (hstep : step closeUnpaid s action = some t) (hevent : action.isEvent = false) :
    t.levels = s.levels ∧ t.pending direction = s.pending direction + action.decrements closeUnpaid direction s := by
  cases action with
  | cell from_ arrival =>
    cases hstep
    refine ⟨rfl, pending_of_counters 0 rfl ?_⟩
    rw [counters_processRelayCell]
    simp
  | call edge =>
    cases hstep
    refine ⟨rfl, pending_of_counters 0 rfl ?_⟩
    rw [Circuit.counters_edgeCall]
    simp [TrafficAction.decrements]
  | addtokens numReadCells numWriteCells calls =>
    simp only [step] at hstep
    split at hstep
    · cases hstep
      refine ⟨rfl, ?_⟩
      by_cases hpos : 0 < numReadCells
      · have hafter : s.circ.addTokens closeUnpaid numReadCells numWriteCells calls =
            calls.foldl (Circuit.edgeCall closeUnpaid) (s.circ.granted numReadCells numWriteCells) := by
          unfold Circuit.addTokens
          rw [if_neg (by omega), if_neg (by omega)]
          rfl
        obtain ⟨hleft, hadded⟩ := Circuit.counters_calls closeUnpaid direction calls
          (s.circ.granted numReadCells numWriteCells)
        have hgranted : (s.circ.granted numReadCells numWriteCells).counters direction =
            ((s.circ.counters direction).1 + (if direction = .inward then numReadCells else numWriteCells),
              (s.circ.counters direction).2 + if direction = .inward then numReadCells else numWriteCells) := by
          cases direction with
          | inward => rfl
          | outward => rfl
        rw [hgranted] at hleft hadded
        refine pending_of_counters (if direction = .inward then numReadCells else numWriteCells) rfl ?_
        rw [hafter, TrafficAction.decrements, if_pos hpos]
        refine Prod.ext ?_ hadded
        dsimp only at hleft ⊢
        omega
      · have hsame : (s.circ.addTokens closeUnpaid numReadCells numWriteCells calls).SameCounters s.circ := by
          unfold Circuit.addTokens
          split
          · exact Circuit.markForClose_sameCounters _ _
          · split
            · exact ⟨rfl, rfl, rfl, rfl⟩
            · omega
        refine pending_of_counters 0 rfl ?_
        rw [hsame.counters direction, TrafficAction.decrements, if_neg hpos]
        simp
    · cases hstep
  | tokenLevels => cases hevent

/-- An event passes on what is pending, and leaves nothing. -/
theorem event_step {closeUnpaid : Bool} {s t : Metered} (direction : CellDirection) (hdone : s.levels.done = false)
    (hstep : step closeUnpaid s .tokenLevels = some t) :
    t.traffic direction = s.traffic direction ++ [BYTES_PER_CELL * s.pending direction] ∧ t.pending direction = 0 := by
  simp only [step] at hstep
  split at hstep
  · cases hstep
    unfold traffic pending CircuitLevels.tokenLevelEvent
    rw [if_neg (by rw [hdone]; decide)]
    cases direction with
    | inward =>
      simp [controlEventCircuitTokenLevels, CircuitLevels.handleBwEvent, CircuitLevels.handleTokenResponse]
    | outward =>
      simp [controlEventCircuitTokenLevels, CircuitLevels.handleBwEvent, CircuitLevels.handleTokenResponse]
  · cases hstep

theorem done_step {closeUnpaid : Bool} {s t : Metered} {action : TrafficAction} (hdone : s.levels.done = false)
    (hstep : step closeUnpaid s action = some t) : t.levels.done = false := by
  cases hevent : action.isEvent with
  | false => rw [(pending_step .inward hstep hevent).1, hdone]
  | true =>
    rw [TrafficAction.isEvent_iff.mp hevent] at hstep
    simp only [step] at hstep
    split at hstep
    · cases hstep
      unfold CircuitLevels.tokenLevelEvent
      rw [if_neg (by rw [hdone]; decide)]
      exact hdone
    · cases hstep

/-- In a run the reported traffic and what is pending grow by the cells that are charged. -/
theorem traffic_run {closeUnpaid : Bool} {s t : Metered} {actions : List TrafficAction} (direction : CellDirection)
    (h : Run (step closeUnpaid) (fun _ _ => True) s actions t) (hdone : s.levels.done = false)
    (hpending : 0 ≤ s.pending direction) (htraffic : ∀ amount ∈ s.traffic direction, 0 ≤ amount) :
    (t.traffic direction).sum + BYTES_PER_CELL * t.pending direction =
        (s.traffic direction).sum + BYTES_PER_CELL * s.pending direction +
          BYTES_PER_CELL * tally (step closeUnpaid) (fun s a => a.decrements closeUnpaid direction s) s actions ∧
      0 ≤ t.pending direction ∧ ∀ amount ∈ t.traffic direction, 0 ≤ amount := by
  induction h with
  | refl s => exact ⟨by simp [tally], hpending, htraffic⟩
  | @cons s t r action actions _ hstep _ ih =>
    have hdone' := done_step hdone hstep
    simp only [tally, hstep]
    cases hevent : action.isEvent with
    | false =>
      obtain ⟨hlevels, hadds⟩ := pending_step direction hstep hevent
      have hsame : t.traffic direction = s.traffic direction := by
        unfold traffic
        rw [hlevels]
      obtain ⟨hsum, hrest⟩ := ih hdone' (by omega) (by rwa [hsame])
      refine ⟨?_, hrest⟩
      rw [hsum, hsame, hadds]
      push_cast
      ring
    | true =>
      obtain rfl := TrafficAction.isEvent_iff.mp hevent
      obtain ⟨hreports, hzero⟩ := event_step direction hdone hstep
      obtain ⟨hsum, hrest⟩ := ih hdone' (Int.le_of_eq hzero.symm) fun amount hmem => by
        rw [hreports] at hmem
        rcases List.mem_append.mp hmem with hold | hnew
        · exact htraffic amount hold
        · rw [List.mem_singleton.mp hnew]
          exact Int.mul_nonneg (by decide) hpending
      refine ⟨?_, hrest⟩
      rw [hsum, hreports, hzero, List.sum_append, List.sum_singleton]
      simp [TrafficAction.decrements]

/-- Without an event no traffic is reported. -/
theorem traffic_quiet {closeUnpaid : Bool} {s t : Metered} {actions : List TrafficAction}
    (h : Run (step closeUnpaid) (fun _ _ => True) s actions t) (hquiet : ∀ action ∈ actions, action.isEvent = false)
    (direction : CellDirection) : t.traffic direction = s.traffic direction := by
  induction h with
  | refl s => rfl
  | @cons s t r action actions _ hstep _ ih =>
    rw [ih fun a ha => hquiet a (List.mem_cons_of_mem _ ha)]
    unfold traffic
    rw [(pending_step direction hstep (hquiet action List.mem_cons_self)).1]

theorem beforeLastEvent_cases (actions : List TrafficAction) :
    (∃ after, actions = TrafficAction.beforeLastEvent actions ++ .tokenLevels :: after ∧
      ∀ action ∈ after, action.isEvent = false) ∨
    (TrafficAction.beforeLastEvent actions = [] ∧ ∀ action ∈ actions, action.isEvent = false) := by
  induction actions using List.reverseRecOn with
  | nil => exact Or.inr ⟨rfl, nofun⟩
  | append_singleton actions action ih =>
    cases hevent : action.isEvent with
    | true =>
      obtain rfl := TrafficAction.isEvent_iff.mp hevent
      rw [TrafficAction.beforeLastEvent_concat_event]
      exact Or.inl ⟨[], rfl, nofun⟩
    | false =>
      rw [TrafficAction.beforeLastEvent_concat actions hevent]
      have hall : ∀ {as : List TrafficAction}, (∀ a ∈ as, a.isEvent = false) → ∀ a ∈ as ++ [action], a.isEvent = false := by
        intro as has a ha
        rcases List.mem_append.mp ha with hold | hnew
        · exact has a hold
        · rwa [List.mem_singleton.mp hnew]
      rcases ih with ⟨after, hsplit, hafter⟩ | ⟨hnone, hquiet⟩
      · refine Or.inl ⟨after ++ [action], ?_, hall hafter⟩
        conv => lhs; rw [hsplit]
        simp
      · exact Or.inr ⟨hnone, hall hquiet⟩

/-- The traffic of a direction is never negative, and all of it together is what was charged before
the last event. -/
theorem traffic_exact (closeUnpaid : Bool) (cpathLength : Nat) (actions : List TrafficAction) (s : Metered)
    (h : Run (step closeUnpaid) (fun _ _ => True) (start cpathLength) actions s) (direction : CellDirection) :
    (∀ amount ∈ s.traffic direction, 0 ≤ amount) ∧
    (s.traffic direction).sum = BYTES_PER_CELL *
      tally (step closeUnpaid) (fun s a => a.decrements closeUnpaid direction s) (start cpathLength)
        (TrafficAction.beforeLastEvent actions) := by
  have hstart : (start cpathLength).pending direction = 0 ∧ (start cpathLength).traffic direction = [] := by
    cases direction with
    | inward => exact ⟨rfl, rfl⟩
    | outward => exact ⟨rfl, rfl⟩
  have hnone : ∀ amount ∈ (start cpathLength).traffic direction, 0 ≤ amount := by
    rw [hstart.2]
    exact nofun
  have hpending := Int.le_of_eq hstart.1.symm
  refine ⟨(traffic_run direction h rfl hpending hnone).2.2, ?_⟩
  rcases beforeLastEvent_cases actions with ⟨after, hsplit, hafter⟩ | ⟨hbefore, hquiet⟩
  · rw [hsplit] at h
    obtain ⟨t, hfirst, hlast⟩ := h.split
    obtain ⟨hsum, -, -⟩ := traffic_run direction hfirst rfl hpending hnone
    cases hlast with
    | cons _ hevent hrest =>
      have hdone : t.levels.done = false := hfirst.invariant (fun hs _ hstep => done_step hs hstep) rfl
      obtain ⟨hreports, -⟩ := event_step direction hdone hevent
      rw [traffic_quiet hrest hafter direction, hreports, List.sum_append, List.sum_singleton, hsum, hstart.1, hstart.2]
      simp
  · rw [traffic_quiet h hquiet direction, hstart.2, hbefore]
    rfl

/-- Two cells arrive and one is sent, with a payment in between; another cell is not reported yet. -/
def exampleTraffic : List TrafficAction :=
  let arrival : Circuit.Arrival := { recognized := some true, calls := [.send true true], reason := 0, splice := none }
  [.cell .inward { arrival with calls := [] }, .tokenLevels, .addtokens 5 3 [], .cell .inward arrival, .tokenLevels,
    .cell .inward arrival]

theorem example_traffic_exact : ∃ s, Run (step true) (fun _ _ => True) (start 3) exampleTraffic s ∧
    s.levels.traffic = [(499, 0), (499, 499)] ∧
    (s.traffic .inward).sum = BYTES_PER_CELL * tally (step true) (fun s a => a.decrements true .inward s) (start 3)
      (TrafficAction.beforeLastEvent exampleTraffic) := by
  have hend : (exec (step true) (start 3) exampleTraffic).any
      (fun s => decide (s.levels.traffic = [(499, 0), (499, 499)])) = true := by
    decide
  obtain ⟨s, hrun, hs⟩ := exists_run hend (eachStep_true _ _)
  exact ⟨s, hrun, of_decide_eq_true hs, (traffic_exact true 3 exampleTraffic s hrun .inward).2⟩

end Metered

end BitBlinder.Tor
