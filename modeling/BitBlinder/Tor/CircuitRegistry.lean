import BitBlinder.Innomitor.PaymentCells
import BitBlinder.Runs

/-!
# Who handles the payment cells of a circuit

The client keeps a `BaseCircuit` for each circuit of Tor that sent it something,
in `orCircuits`, under the hex ids and the circuit ids of both neighbours. Entries
are made by PAYMENT events and by `ClientPaymentHandler.start`, and removed by
CLOSED events. Circuits are numbered in the order of their creation, and events are
handled in the order in which Tor sends them.
-/

namespace BitBlinder.Tor

set_option autoImplicit false

open Struct (Bytes)
open Innomitor

/-- What `ORCircuitEvent` makes of the hex id of an event: an unknown one is `None`. -/
def knownHexId (hexId : Option Bytes) : Option Bytes :=
  hexId.filter fun digest => digest ≠ List.replicate 20 0

/-- A `BaseCircuit` and the number of the circuit for which it was made. Only those made by
`make_or_circuit` have a serial number; the others belong to circuits of this client. -/
structure BaseCircuitEntry where
  serial : Option Nat
  owner : Nat
  prevHexId : Option Bytes
  nextHexId : Option Bytes
  prevCircId : UInt16
  nextCircId : UInt16

/-- The circuits of Tor that are not freed, the registry, the entries that were closed, and which
entry got the data of which circuit. -/
structure Relay where
  circuits : List (Option Circuit)
  orCircuits : Bytes → UInt16 → Option BaseCircuitEntry
  made : Nat
  closed : List BaseCircuitEntry
  received : List (Nat × BaseCircuitEntry)

namespace Relay

def start : Relay where
  circuits := []
  orCircuits := fun _ _ => none
  made := 0
  closed := []
  received := []

def circuit? (s : Relay) (n : Nat) : Option Circuit := s.circuits[n]?.join

def setCircuit (s : Relay) (n : Nat) (circ : Option Circuit) : Relay := { s with circuits := s.circuits.set n circ }

/-! ### The client -/

def getParHandler (s : Relay) (hexId : Bytes) (circId : UInt16) : Option BaseCircuitEntry := s.orCircuits hexId circId

def setParHandler (s : Relay) (hexId : Bytes) (circId : UInt16) (handler : BaseCircuitEntry) : Relay :=
  { s with orCircuits := fun hex id => if hex = hexId ∧ id = circId then some handler else s.orCircuits hex id }

def removeParHandler (s : Relay) (hexId : Bytes) (circId : UInt16) : Relay :=
  { s with
    orCircuits := fun hex id => if hex = hexId ∧ id = circId then none else s.orCircuits hex id
    closed := s.closed ++ (s.orCircuits hexId circId).toList }

def makeOrCircuit (s : Relay) (n : Nat) (event : OrcircuitEvent) : BaseCircuitEntry where
  serial := some s.made
  owner := n
  prevHexId := knownHexId event.prevHexId
  nextHexId := knownHexId event.nextHexId
  prevCircId := event.prevCircId
  nextCircId := event.nextCircId

/-- For the circuits whose hex id is known. -/
def setParHandler? (s : Relay) (hexId : Option Bytes) (circId : UInt16) (handler : BaseCircuitEntry) : Relay :=
  match hexId with
  | none => s
  | some hexId => s.setParHandler hexId circId handler

def removeParHandler? (s : Relay) (hexId : Option Bytes) (circId : UInt16) : Relay :=
  match hexId with
  | none => s
  | some hexId => s.removeParHandler hexId circId

/-- `orcircuit_event`, for an event of circuit `n`. -/
def orcircuitEvent (s : Relay) (n : Nat) (event : OrcircuitEvent) : Relay :=
  match event.message with
  | .payment _ =>
    match knownHexId event.prevHexId with
    | none => s
    | some prevHexId =>
      match s.getParHandler prevHexId event.prevCircId with
      | some entry => { s with received := s.received ++ [(n, entry)] }
      | none =>
        let entry := s.makeOrCircuit n event
        let t := (s.setParHandler prevHexId event.prevCircId entry).setParHandler?
          (knownHexId event.nextHexId) event.nextCircId entry
        { t with made := s.made + 1, received := s.received ++ [(n, entry)] }
  | .status text =>
    if text = "CLOSED" then
      (s.removeParHandler? (knownHexId event.prevHexId) event.prevCircId).removeParHandler?
        (knownHexId event.nextHexId) event.nextCircId
    else s

/-! ### Tor -/

/-- `circuit_id_in_use_on_orconn`. -/
def circuitIdInUseOnOrconn (s : Relay) (circId : UInt16) (conn : OrConnection) : Bool :=
  s.circuits.any fun circ => circ.any (Circuit.hasPair circId conn)

/-- `circuit_set_p_circid_orconn`. -/
def circuitSetPCircidOrconn (s : Relay) (n : Nat) (circ : Circuit) (circId : UInt16) (conn : Option OrConnection) : Relay :=
  let t := if circ.pConn.isSome then
      s.orcircuitEvent n (controlEventOrcircuit (.status "CLOSED") circ .outward)
    else s
  t.setCircuit n (some { circ with pCircId := circId, pConn := conn })

/-- `circuit_set_n_circid_orconn`. -/
def circuitSetNCircidOrconn (s : Relay) (n : Nat) (circ : Circuit) (circId : UInt16) (conn : Option OrConnection) : Relay :=
  let t := if !circ.isOrigin ∧ circ.nConn.isSome then
      s.orcircuitEvent n (controlEventOrcircuit (.status "CLOSED") circ .outward)
    else s
  t.setCircuit n (some { circ with nCircId := circId, nConn := conn })

end Relay

/-- What happens at a relay. A circuit loses its next hop when it is truncated, when the next hop
destroys it and when the connection is lost. -/
inductive RelayAction where
  | createRelay (circId : UInt16) (conn : OrConnection)
  | createOrigin (cpathLength : Nat)
  | deliverCreate (n : Nat) (circId : UInt16) (conn : OrConnection)
  | payment (n : Nat) (direction : CellDirection) (data : Bytes)
  | loseNext (n : Nat)
  | losePrevious (n : Nat)
  | markForClose (n : Nat) (reason : Int)
  | free (n : Nat)
  | register (n : Nat)

namespace Relay

/-- The connection that a cell of a direction comes from. -/
def arrivesOn (circ : Circuit) (direction : CellDirection) : Option OrConnection :=
  match direction with
  | .outward => if circ.isOrigin then none else circ.pConn
  | .inward => circ.nConn

def step (s : Relay) : RelayAction → Option Relay
  | .createRelay circId conn =>
    if s.circuitIdInUseOnOrconn circId conn then none
    else some { s with circuits := s.circuits ++ [some (.initCircuitBase false 0 none circId (some conn) 0)] }
  | .createOrigin cpathLength =>
    some { s with circuits := s.circuits ++ [some (.initCircuitBase true 0 none 0 none cpathLength)] }
  | .deliverCreate n circId conn =>
    (s.circuit? n).bind fun circ =>
      -- `circuit_extend` has set `n_conn` already, but not yet the id.
      if circ.markedForClose = none ∧ circ.nConn = none ∧ ¬s.circuitIdInUseOnOrconn circId conn ∧
          (circ.isOrigin ∨ ¬leadsTo circ.pConn conn.identityDigest) then
        some (s.circuitSetNCircidOrconn n { circ with nConn := some conn } circId (some conn))
      else none
  | .payment n direction data =>
    (s.circuit? n).bind fun circ =>
      if circ.markedForClose = none ∧ (arrivesOn circ direction).isSome then
        some (s.orcircuitEvent n (controlEventOrcircuit (.payment data) circ direction))
      else none
  | .loseNext n => (s.circuit? n).bind fun circ => some (s.circuitSetNCircidOrconn n circ 0 none)
  | .losePrevious n =>
    (s.circuit? n).bind fun circ =>
      if circ.isOrigin then none else some (s.circuitSetPCircidOrconn n circ 0 none)
  | .markForClose n reason => (s.circuit? n).bind fun circ => some (s.setCircuit n (some (circ.markForClose reason)))
  | .free n =>
    (s.circuit? n).bind fun circ =>
      if circ.markedForClose = none then none
      else
        let t := if circ.isOrigin then s else s.circuitSetPCircidOrconn n circ 0 none
        let u := match t.circuit? n with
          | none => t
          | some circ => t.circuitSetNCircidOrconn n circ 0 none
        some (u.setCircuit n none)
  | .register n =>
    -- CONVERTCIRCID finds the circuit, which is built; the client knows the relay's identity.
    (s.circuit? n).bind fun circ =>
      circ.nConn.bind fun conn =>
        if circ.isOrigin ∧ circ.markedForClose = none ∧ (knownHexId (some conn.identityDigest)).isSome then
          some (s.setParHandler conn.identityDigest circ.nCircId
            { serial := none, owner := n, prevHexId := none, nextHexId := some conn.identityDigest,
              prevCircId := 0, nextCircId := circ.nCircId })
        else none

end Relay

/-! ### Keys -/

/-- The circuit has this id with this neighbour. -/
def HasKey (circ : Circuit) (hexId : Bytes) (circId : UInt16) : Prop :=
  circ.PrevSide circId hexId ∨ circ.NextSide circId hexId

def KnownDigest (hexId : Bytes) : Prop := hexId ≠ List.replicate 20 0

/-- The event has this entry of the registry in one of its two places. -/
def Names (event : OrcircuitEvent) (hexId : Bytes) (circId : UInt16) : Prop :=
  knownHexId event.prevHexId = some hexId ∧ event.prevCircId = circId ∨
    knownHexId event.nextHexId = some hexId ∧ event.nextCircId = circId

theorem knownHexId_eq_some {hexId : Option Bytes} {digest : Bytes} :
    knownHexId hexId = some digest ↔ hexId = some digest ∧ KnownDigest digest := by
  unfold knownHexId KnownDigest
  rw [Option.filter_eq_some_iff]
  simp

theorem leadsTo_iff {conn : Option OrConnection} {digest : Bytes} :
    leadsTo conn digest = true ↔ conn.map OrConnection.identityDigest = some digest := by
  unfold leadsTo
  cases conn with
  | none => simp
  | some conn => simp

/-- An event about a circuit names the keys of the circuit that the client can know. -/
theorem names_iff (message : OrcircuitMessage) (circ : Circuit) (direction : CellDirection) (hexId : Bytes)
    (circId : UInt16) :
    Names (controlEventOrcircuit message circ direction) hexId circId ↔ KnownDigest hexId ∧ HasKey circ hexId circId := by
  have hprev : knownHexId ((if circ.isOrigin then none else circ.pConn).map OrConnection.identityDigest) = some hexId ↔
      (circ.isOrigin = false ∧ leadsTo circ.pConn hexId = true) ∧ KnownDigest hexId := by
    rw [knownHexId_eq_some, leadsTo_iff]
    cases circ.isOrigin with
    | true => simp
    | false => simp
  have hnext : knownHexId (circ.nConn.map OrConnection.identityDigest) = some hexId ↔
      leadsTo circ.nConn hexId = true ∧ KnownDigest hexId := by
    rw [knownHexId_eq_some, leadsTo_iff]
  have hprevId : leadsTo circ.pConn hexId = true → circ.isOrigin = false →
      (if (if circ.isOrigin then none else circ.pConn).isSome then circ.pCircId else 0) = circ.pCircId := by
    intro hleads horigin
    obtain ⟨conn, hconn⟩ := leadsTo_some hleads
    simp [horigin, hconn]
  have hnextId : leadsTo circ.nConn hexId = true → (if circ.nConn.isSome then circ.nCircId else 0) = circ.nCircId := by
    intro hleads
    obtain ⟨conn, hconn⟩ := leadsTo_some hleads
    simp [hconn]
  unfold Names HasKey Circuit.PrevSide Circuit.NextSide controlEventOrcircuit
  cases direction with
  | outward =>
    simp only [hprev, hnext]
    constructor
    · rintro (⟨⟨⟨horigin, hleads⟩, hknown⟩, hid⟩ | ⟨⟨hleads, hknown⟩, hid⟩)
      · exact ⟨hknown, Or.inl ⟨horigin, hleads, hid⟩⟩
      · exact ⟨hknown, Or.inr ⟨hleads, (hnextId hleads).symm.trans hid⟩⟩
    · rintro ⟨hknown, ⟨horigin, hleads, hid⟩ | ⟨hleads, hid⟩⟩
      · exact Or.inl ⟨⟨⟨horigin, hleads⟩, hknown⟩, hid⟩
      · exact Or.inr ⟨⟨hleads, hknown⟩, (hnextId hleads).trans hid⟩
  | inward =>
    simp only [hprev, hnext]
    constructor
    · rintro (⟨⟨hleads, hknown⟩, hid⟩ | ⟨⟨⟨horigin, hleads⟩, hknown⟩, hid⟩)
      · exact ⟨hknown, Or.inr ⟨hleads, (hnextId hleads).symm.trans hid⟩⟩
      · exact ⟨hknown, Or.inl ⟨horigin, hleads, (hprevId hleads horigin).symm.trans hid⟩⟩
    · rintro ⟨hknown, ⟨horigin, hleads, hid⟩ | ⟨hleads, hid⟩⟩
      · exact Or.inr ⟨⟨⟨horigin, hleads⟩, hknown⟩, (hprevId hleads horigin).trans hid⟩
      · exact Or.inl ⟨⟨hleads, hknown⟩, (hnextId hleads).trans hid⟩

namespace Relay

/-- The registry agrees with Tor: data was handled by an entry made for the circuit it came from,
a circuit has no two entries, and each entry stands under a key of a circuit that is not freed. -/
structure Consistent (s : Relay) : Prop where
  paired : ∀ n entry, (n, entry) ∈ s.received → entry.owner = n
  single : ∀ hexId circId entry hexId' circId' entry', s.orCircuits hexId circId = some entry →
    s.orCircuits hexId' circId' = some entry' → entry.owner = entry'.owner → entry = entry'
  owned : ∀ hexId circId entry, s.orCircuits hexId circId = some entry →
    ∃ circ, s.circuit? entry.owner = some circ ∧ HasKey circ hexId circId

/-- What makes it so: no two circuits have a key in common that the client can know. -/
structure Separated (s : Relay) : Prop extends Consistent s where
  known : ∀ hexId circId entry, s.orCircuits hexId circId = some entry → KnownDigest hexId
  separate : ∀ n m circ other hexId circId, KnownDigest hexId → s.circuit? n = some circ → s.circuit? m = some other →
    HasKey circ hexId circId → HasKey other hexId circId → n = m

/-- The new key is one that no circuit has with this neighbour, on whatever connection. -/
def FreshKey (s : Relay) (circId : UInt16) (conn : OrConnection) : Prop :=
  KnownDigest conn.identityDigest → ∀ n circ, s.circuit? n = some circ → ¬HasKey circ conn.identityDigest circId

/-- A circuit of this client that is disconnected is not in the registry. -/
def Unregistered (s : Relay) (n : Nat) : Prop :=
  ∀ circ, s.circuit? n = some circ → circ.isOrigin = true → ∀ hexId, leadsTo circ.nConn hexId = true →
    s.orCircuits hexId circ.nCircId = none

def Regular (s : Relay) : RelayAction → Prop
  | .createRelay circId conn => s.FreshKey circId conn
  | .deliverCreate _ circId conn => s.FreshKey circId conn
  | .loseNext n => s.Unregistered n
  | .free n => s.Unregistered n
  | _ => True

/-! ### Single changes -/

section
variable {s : Relay} {n : Nat} {circ : Circuit}

theorem circuit?_lt (h : s.circuit? n = some circ) : n < s.circuits.length := by
  unfold circuit? at h
  by_contra hge
  rw [List.getElem?_eq_none (Nat.not_lt.mp hge)] at h
  cases h

theorem circuit?_set_self (h : s.circuit? n = some circ) (other : Option Circuit) :
    (s.setCircuit n other).circuit? n = other := by
  unfold setCircuit circuit?
  rw [List.getElem?_set_self (circuit?_lt h)]
  rfl

theorem circuit?_set_ne {m : Nat} (h : n ≠ m) (other : Option Circuit) :
    (s.setCircuit n other).circuit? m = s.circuit? m := by
  unfold setCircuit circuit?
  rw [List.getElem?_set_ne h]

theorem orCircuits_remove? (s : Relay) (hexId : Option Bytes) (circId : UInt16) (hex : Bytes) (id : UInt16) :
    (s.removeParHandler? hexId circId).orCircuits hex id =
      if hexId = some hex ∧ circId = id then none else s.orCircuits hex id := by
  unfold removeParHandler?
  cases hexId with
  | none => simp
  | some hexId => simp [removeParHandler, eq_comm]

theorem orCircuits_set? (s : Relay) (hexId : Option Bytes) (circId : UInt16) (handler : BaseCircuitEntry) (hex : Bytes)
    (id : UInt16) :
    (s.setParHandler? hexId circId handler).orCircuits hex id =
      if hexId = some hex ∧ circId = id then some handler else s.orCircuits hex id := by
  unfold setParHandler?
  cases hexId with
  | none => simp
  | some hexId => simp [setParHandler, eq_comm]

@[simp] theorem remove?_circuits (s : Relay) (hexId : Option Bytes) (circId : UInt16) :
    (s.removeParHandler? hexId circId).circuits = s.circuits := by
  cases hexId with
  | none => rfl
  | some hexId => rfl

@[simp] theorem remove?_received (s : Relay) (hexId : Option Bytes) (circId : UInt16) :
    (s.removeParHandler? hexId circId).received = s.received := by
  cases hexId with
  | none => rfl
  | some hexId => rfl

@[simp] theorem set?_circuits (s : Relay) (hexId : Option Bytes) (circId : UInt16) (handler : BaseCircuitEntry) :
    (s.setParHandler? hexId circId handler).circuits = s.circuits := by
  cases hexId with
  | none => rfl
  | some hexId => rfl

/-- The event that a circuit sends when it is closed on one side. -/
def closedEvent (circ : Circuit) : OrcircuitEvent := controlEventOrcircuit (.status "CLOSED") circ .outward

theorem closed_eq (s : Relay) (n : Nat) (circ : Circuit) :
    s.orcircuitEvent n (closedEvent circ) =
      (s.removeParHandler? (knownHexId (closedEvent circ).prevHexId) (closedEvent circ).prevCircId).removeParHandler?
        (knownHexId (closedEvent circ).nextHexId) (closedEvent circ).nextCircId := by
  unfold orcircuitEvent
  rw [show (closedEvent circ).message = .status "CLOSED" from rfl]
  exact if_pos rfl

@[simp] theorem closed_circuits (s : Relay) (n : Nat) (circ : Circuit) :
    (s.orcircuitEvent n (closedEvent circ)).circuits = s.circuits := by
  rw [closed_eq]
  simp

@[simp] theorem closed_received (s : Relay) (n : Nat) (circ : Circuit) :
    (s.orcircuitEvent n (closedEvent circ)).received = s.received := by
  rw [closed_eq]
  simp

/-- A CLOSED event removes what stands under the keys of the circuit, and nothing else. -/
theorem closed_orCircuits {hexId : Bytes} {circId : UInt16} {entry : BaseCircuitEntry} :
    (s.orcircuitEvent n (closedEvent circ)).orCircuits hexId circId = some entry ↔
      s.orCircuits hexId circId = some entry ∧ ¬(KnownDigest hexId ∧ HasKey circ hexId circId) := by
  rw [← names_iff (.status "CLOSED") circ .outward hexId circId]
  rw [closed_eq, orCircuits_remove?, orCircuits_remove?, Names]
  change _ ↔ _ ∧ ¬(knownHexId (closedEvent circ).prevHexId = some hexId ∧ (closedEvent circ).prevCircId = circId ∨
    knownHexId (closedEvent circ).nextHexId = some hexId ∧ (closedEvent circ).nextCircId = circId)
  by_cases hnext : knownHexId (closedEvent circ).nextHexId = some hexId ∧ (closedEvent circ).nextCircId = circId
  · simp [hnext]
  · by_cases hprev : knownHexId (closedEvent circ).prevHexId = some hexId ∧ (closedEvent circ).prevCircId = circId
    · simp [hprev, hnext]
    · simp [hprev, hnext]

/-- Entries may be removed. -/
theorem Separated.remove (h : s.Separated) {t : Relay} (hcircuits : t.circuits = s.circuits)
    (hreceived : t.received = s.received)
    (hless : ∀ hexId circId entry, t.orCircuits hexId circId = some entry → s.orCircuits hexId circId = some entry) :
    t.Separated := by
  have hat : ∀ m, t.circuit? m = s.circuit? m := fun m => by rw [circuit?, hcircuits, circuit?]
  refine ⟨⟨fun m entry hmem => ?_, ?_, ?_⟩, ?_, ?_⟩
  · rw [hreceived] at hmem
    exact h.paired m entry hmem
  · intro hexId circId entry hexId' circId' entry' hentry hentry' howner
    exact h.single hexId circId entry hexId' circId' entry' (hless _ _ _ hentry) (hless _ _ _ hentry') howner
  · intro hexId circId entry hentry
    rw [hat]
    exact h.owned hexId circId entry (hless _ _ _ hentry)
  · intro hexId circId entry hentry
    exact h.known hexId circId entry (hless _ _ _ hentry)
  · intro m k circ other hexId circId hknown hm hk
    rw [hat] at hm hk
    exact h.separate m k circ other hexId circId hknown hm hk

/-- A circuit may change if its entries stay under its keys and its new keys are nobody's. -/
theorem Separated.set (h : s.Separated) (hcirc : s.circuit? n = some circ) {circ' : Circuit}
    (hkeeps : ∀ hexId circId entry, s.orCircuits hexId circId = some entry → entry.owner = n →
      HasKey circ' hexId circId)
    (hfresh : ∀ hexId circId, KnownDigest hexId → HasKey circ' hexId circId →
      HasKey circ hexId circId ∨ ∀ m other, s.circuit? m = some other → ¬HasKey other hexId circId) :
    (s.setCircuit n (some circ')).Separated := by
  have hat : ∀ m other, (s.setCircuit n (some circ')).circuit? m = some other →
      n = m ∧ other = circ' ∨ n ≠ m ∧ s.circuit? m = some other := by
    intro m other hm
    by_cases hnm : n = m
    · subst hnm
      rw [circuit?_set_self hcirc] at hm
      exact Or.inl ⟨rfl, (Option.some.inj hm).symm⟩
    · rw [circuit?_set_ne hnm] at hm
      exact Or.inr ⟨hnm, hm⟩
  have hnone : ∀ m other hexId circId, n ≠ m → KnownDigest hexId → s.circuit? m = some other →
      HasKey circ' hexId circId → ¬HasKey other hexId circId := by
    intro m other hexId circId hnm hknown hm hkey hother
    rcases hfresh hexId circId hknown hkey with hold | hnew
    · exact hnm (h.separate n m circ other hexId circId hknown hcirc hm hold hother)
    · exact hnew m other hm hother
  refine ⟨⟨h.paired, h.single, ?_⟩, h.known, ?_⟩
  · intro hexId circId entry hentry
    by_cases howner : n = entry.owner
    · refine ⟨circ', ?_, hkeeps hexId circId entry hentry howner.symm⟩
      rw [← howner]
      exact circuit?_set_self hcirc _
    · obtain ⟨other, hother, hkey⟩ := h.owned hexId circId entry hentry
      exact ⟨other, by rw [circuit?_set_ne howner, hother], hkey⟩
  · intro m k first second hexId circId hknown hm hk hfirst hsecond
    rcases hat m first hm with ⟨rfl, rfl⟩ | ⟨hnm, hold⟩
    · rcases hat k second hk with ⟨hnk, -⟩ | ⟨hnk, hold'⟩
      · exact hnk
      · exact absurd hsecond (hnone k second hexId circId hnk hknown hold' hfirst)
    · rcases hat k second hk with ⟨rfl, rfl⟩ | ⟨-, hold'⟩
      · exact absurd hfirst (hnone m first hexId circId hnm hknown hold hsecond)
      · exact h.separate m k first second hexId circId hknown hold hold' hfirst hsecond

/-- A circuit that has no entries may be freed. -/
theorem Separated.drop (h : s.Separated)
    (hnone : ∀ hexId circId entry, s.orCircuits hexId circId = some entry → entry.owner ≠ n) :
    (s.setCircuit n none).Separated := by
  have hat : ∀ m other, (s.setCircuit n none).circuit? m = some other → s.circuit? m = some other := by
    intro m other hm
    by_cases hnm : n = m
    · subst hnm
      unfold setCircuit circuit? at hm
      rw [List.getElem?_set] at hm
      split at hm
      · split at hm
        · cases hm
        · cases hm
      · exact hm
    · rwa [circuit?_set_ne hnm] at hm
  refine ⟨⟨h.paired, h.single, ?_⟩, h.known, ?_⟩
  · intro hexId circId entry hentry
    obtain ⟨other, hother, hkey⟩ := h.owned hexId circId entry hentry
    exact ⟨other, by rw [circuit?_set_ne (hnone hexId circId entry hentry).symm, hother], hkey⟩
  · intro m k first second hexId circId hknown hm hk
    exact h.separate m k first second hexId circId hknown (hat m first hm) (hat k second hk)

/-! ### Steps -/

theorem Separated.closed (h : s.Separated) (n : Nat) (circ : Circuit) :
    (s.orcircuitEvent n (closedEvent circ)).Separated :=
  h.remove (closed_circuits s n circ) (closed_received s n circ) fun _ _ _ hentry => (closed_orCircuits.mp hentry).1

/-- A circuit that tells the client that it is closed has no entries afterwards. -/
theorem Separated.none_left (h : s.Separated) (hcirc : s.circuit? n = some circ) {hexId : Bytes} {circId : UInt16}
    {entry : BaseCircuitEntry} (hentry : (s.orcircuitEvent n (closedEvent circ)).orCircuits hexId circId = some entry) :
    entry.owner ≠ n := by
  intro howner
  obtain ⟨hbefore, hnot⟩ := closed_orCircuits.mp hentry
  obtain ⟨owner, hat, hkey⟩ := h.owned hexId circId entry hbefore
  rw [howner, hcirc] at hat
  obtain rfl := Option.some.inj hat
  exact hnot ⟨h.known hexId circId entry hbefore, hkey⟩

theorem closed_circuit? (s : Relay) (n m : Nat) (circ : Circuit) :
    (s.orcircuitEvent n (closedEvent circ)).circuit? m = s.circuit? m := by
  rw [circuit?, closed_circuits, circuit?]

/-- What loses a neighbour has no other keys than before. -/
theorem hasKey_lose_next {hexId : Bytes} {circId : UInt16}
    (h : HasKey { circ with nCircId := 0, nConn := none } hexId circId) : HasKey circ hexId circId := by
  rcases h with hprev | ⟨hleads, -⟩
  · exact Or.inl hprev
  · cases hleads

theorem hasKey_lose_previous {hexId : Bytes} {circId : UInt16}
    (h : HasKey { circ with pCircId := 0, pConn := none } hexId circId) : HasKey circ hexId circId := by
  rcases h with ⟨-, hleads, -⟩ | hnext
  · cases hleads
  · exact Or.inr hnext

/-- The next hop goes: a relay tells the client, an origin is not registered. -/
theorem Separated.lose_next (h : s.Separated) (hcirc : s.circuit? n = some circ) (hunregistered : s.Unregistered n) :
    (s.circuitSetNCircidOrconn n circ 0 none).Separated := by
  unfold circuitSetNCircidOrconn
  dsimp only
  split
  · have hclosed := h.closed n circ
    refine hclosed.set ((closed_circuit? s n n circ).trans hcirc) ?_ fun _ _ _ hkey => Or.inl (hasKey_lose_next hkey)
    exact fun _ _ _ hentry howner => absurd howner (h.none_left hcirc hentry)
  · rename_i hsilent
    refine h.set hcirc ?_ fun _ _ _ hkey => Or.inl (hasKey_lose_next hkey)
    intro hexId circId entry hentry howner
    obtain ⟨owner, hat, hkey⟩ := h.owned hexId circId entry hentry
    rw [howner, hcirc] at hat
    obtain rfl := Option.some.inj hat
    rcases hkey with hprev | ⟨hleads, hid⟩
    · exact Or.inl hprev
    · obtain ⟨conn, hconn⟩ := leadsTo_some hleads
      have horigin : circ.isOrigin = true := by
        cases horigin : circ.isOrigin with
        | true => rfl
        | false => exact absurd ⟨by rw [horigin]; rfl, by rw [hconn]; rfl⟩ hsilent
      have hnone := hunregistered circ hcirc horigin hexId hleads
      rw [hid, hentry] at hnone
      cases hnone

theorem Separated.lose_previous (h : s.Separated) (hcirc : s.circuit? n = some circ) :
    (s.circuitSetPCircidOrconn n circ 0 none).Separated := by
  unfold circuitSetPCircidOrconn
  dsimp only
  split
  · have hclosed := h.closed n circ
    refine hclosed.set ((closed_circuit? s n n circ).trans hcirc) ?_ fun _ _ _ hkey => Or.inl (hasKey_lose_previous hkey)
    exact fun _ _ _ hentry howner => absurd howner (h.none_left hcirc hentry)
  · rename_i hsilent
    refine h.set hcirc ?_ fun _ _ _ hkey => Or.inl (hasKey_lose_previous hkey)
    intro hexId circId entry hentry howner
    obtain ⟨owner, hat, hkey⟩ := h.owned hexId circId entry hentry
    rw [howner, hcirc] at hat
    obtain rfl := Option.some.inj hat
    rcases hkey with ⟨-, hleads, -⟩ | hnext
    · obtain ⟨conn, hconn⟩ := leadsTo_some hleads
      exact absurd (by rw [hconn]; rfl) hsilent
    · exact Or.inr hnext

theorem lose_next_at (hcirc : s.circuit? n = some circ) :
    (s.circuitSetNCircidOrconn n circ 0 none).circuit? n = some { circ with nCircId := 0, nConn := none } := by
  unfold circuitSetNCircidOrconn
  dsimp only
  split
  · exact circuit?_set_self ((closed_circuit? s n n circ).trans hcirc) _
  · exact circuit?_set_self hcirc _

theorem lose_previous_at (hcirc : s.circuit? n = some circ) :
    (s.circuitSetPCircidOrconn n circ 0 none).circuit? n = some { circ with pCircId := 0, pConn := none } := by
  unfold circuitSetPCircidOrconn
  dsimp only
  split
  · exact circuit?_set_self ((closed_circuit? s n n circ).trans hcirc) _
  · exact circuit?_set_self hcirc _

theorem Separated.free (h : s.Separated) (hcirc : s.circuit? n = some circ) (hunregistered : s.Unregistered n)
    {t u : Relay} (ht : t = if circ.isOrigin then s else s.circuitSetPCircidOrconn n circ 0 none)
    {circ' : Circuit} (hcirc' : t.circuit? n = some circ') (hu : u = t.circuitSetNCircidOrconn n circ' 0 none) :
    (u.setCircuit n none).Separated := by
  have hprev : t.Separated ∧ t.Unregistered n ∧ ∀ hexId circId, ¬circ'.PrevSide circId hexId := by
    cases horigin : circ.isOrigin with
    | true =>
      rw [horigin, if_pos rfl] at ht
      subst ht
      rw [hcirc] at hcirc'
      obtain rfl := Option.some.inj hcirc'
      refine ⟨h, hunregistered, fun hexId circId hprev => ?_⟩
      rw [hprev.1] at horigin
      cases horigin
    | false =>
      rw [horigin, if_neg (by decide)] at ht
      subst ht
      rw [lose_previous_at hcirc] at hcirc'
      obtain rfl := Option.some.inj hcirc'
      refine ⟨h.lose_previous hcirc, fun other hother htrue => ?_, fun hexId circId hprev => ?_⟩
      · rw [lose_previous_at hcirc] at hother
        obtain rfl := Option.some.inj hother
        rw [horigin] at htrue
        cases htrue
      · cases hprev.2.1
  obtain ⟨ht', hunregistered', hnoprev⟩ := hprev
  subst hu
  have hlast := ht'.lose_next hcirc' hunregistered'
  refine hlast.drop fun hexId circId entry hentry howner => ?_
  obtain ⟨owner, hat, hkey⟩ := hlast.owned hexId circId entry hentry
  rw [howner, lose_next_at hcirc'] at hat
  obtain rfl := Option.some.inj hat
  rcases hkey with hprev | ⟨hleads, -⟩
  · exact hnoprev hexId circId hprev
  · cases hleads

/-- A new circuit has no entries yet. -/
theorem Separated.create (h : s.Separated) {circ : Circuit}
    (hfresh : ∀ hexId circId, KnownDigest hexId → HasKey circ hexId circId →
      ∀ m other, s.circuit? m = some other → ¬HasKey other hexId circId) :
    ({ s with circuits := s.circuits ++ [some circ] } : Relay).Separated := by
  have hold : ∀ m, m < s.circuits.length →
      ({ s with circuits := s.circuits ++ [some circ] } : Relay).circuit? m = s.circuit? m := by
    intro m hm
    unfold circuit?
    rw [List.getElem?_append_left hm]
  have hat : ∀ m other, ({ s with circuits := s.circuits ++ [some circ] } : Relay).circuit? m = some other →
      s.circuit? m = some other ∨ m = s.circuits.length ∧ other = circ := by
    intro m other hm
    rcases Nat.lt_trichotomy m s.circuits.length with hlt | heq | hgt
    · rw [hold m hlt] at hm
      exact Or.inl hm
    · refine Or.inr ⟨heq, ?_⟩
      unfold circuit? at hm
      rw [heq, List.getElem?_concat_length] at hm
      exact (Option.some.inj hm).symm
    · unfold circuit? at hm
      rw [List.getElem?_eq_none (by simp; omega)] at hm
      cases hm
  refine ⟨⟨h.paired, h.single, fun hexId circId entry hentry => ?_⟩, h.known, ?_⟩
  · obtain ⟨other, hother, hkey⟩ := h.owned hexId circId entry hentry
    exact ⟨other, by rw [hold _ (circuit?_lt hother), hother], hkey⟩
  · intro m k first second hexId circId hknown hm hk hfirst hsecond
    rcases hat m first hm with hm' | ⟨hm', rfl⟩
    · rcases hat k second hk with hk' | ⟨-, rfl⟩
      · exact h.separate m k first second hexId circId hknown hm' hk' hfirst hsecond
      · exact absurd hfirst (hfresh hexId circId hknown hsecond m first hm')
    · rcases hat k second hk with hk' | ⟨hk', -⟩
      · exact absurd hsecond (hfresh hexId circId hknown hfirst k second hk')
      · rw [hm', hk']

/-- An entry of a circuit takes the place of all that it had. -/
theorem Separated.enter (h : s.Separated) (hcirc : s.circuit? n = some circ) {entry : BaseCircuitEntry}
    (howner : entry.owner = n) {t : Relay} (hcircuits : t.circuits = s.circuits)
    (hreceived : ∀ m other, (m, other) ∈ t.received → (m, other) ∈ s.received ∨ m = n ∧ other = entry)
    (hentries : ∀ hexId circId other, t.orCircuits hexId circId = some other →
      other = entry ∧ KnownDigest hexId ∧ HasKey circ hexId circId ∨
        s.orCircuits hexId circId = some other ∧ ¬(KnownDigest hexId ∧ HasKey circ hexId circId)) :
    t.Separated := by
  have hat : ∀ m, t.circuit? m = s.circuit? m := fun m => by rw [circuit?, hcircuits, circuit?]
  have hothers : ∀ hexId circId other, s.orCircuits hexId circId = some other →
      ¬(KnownDigest hexId ∧ HasKey circ hexId circId) → other.owner ≠ n := by
    intro hexId circId other hother hnot hsame
    obtain ⟨owner, howns, hkey⟩ := h.owned hexId circId other hother
    rw [hsame, hcirc] at howns
    obtain rfl := Option.some.inj howns
    exact hnot ⟨h.known hexId circId other hother, hkey⟩
  refine ⟨⟨fun m other hmem => ?_, ?_, ?_⟩, ?_, ?_⟩
  · rcases hreceived m other hmem with hold | ⟨rfl, rfl⟩
    · exact h.paired m other hold
    · exact howner
  · intro hexId circId first hexId' circId' second hfirst hsecond hsame
    rcases hentries hexId circId first hfirst with ⟨rfl, -, -⟩ | ⟨hfirst', hnot⟩
    · rcases hentries hexId' circId' second hsecond with ⟨rfl, -, -⟩ | ⟨hsecond', hnot'⟩
      · rfl
      · exact absurd (hsame.symm.trans howner) (hothers hexId' circId' second hsecond' hnot')
    · rcases hentries hexId' circId' second hsecond with ⟨rfl, -, -⟩ | ⟨hsecond', -⟩
      · exact absurd (hsame.trans howner) (hothers hexId circId first hfirst' hnot)
      · exact h.single hexId circId first hexId' circId' second hfirst' hsecond' hsame
  · intro hexId circId other hother
    rw [hat]
    rcases hentries hexId circId other hother with ⟨rfl, -, hkey⟩ | ⟨hother', -⟩
    · exact ⟨circ, by rw [howner, hcirc], hkey⟩
    · exact h.owned hexId circId other hother'
  · intro hexId circId other hother
    rcases hentries hexId circId other hother with ⟨-, hknown, -⟩ | ⟨hother', -⟩
    · exact hknown
    · exact h.known hexId circId other hother'
  · intro m k first second hexId circId hknown hm hk
    rw [hat] at hm hk
    exact h.separate m k first second hexId circId hknown hm hk

/-- An event about a circuit finds an entry of this circuit, or makes one for it. -/
theorem Separated.payment (h : s.Separated) (hcirc : s.circuit? n = some circ) (direction : CellDirection) (data : Bytes) :
    (s.orcircuitEvent n (controlEventOrcircuit (.payment data) circ direction)).Separated := by
  have hmessage : (controlEventOrcircuit (.payment data) circ direction).message = .payment data := by
    cases direction with
    | inward => rfl
    | outward => rfl
  have hnames := names_iff (.payment data) circ direction
  revert hmessage hnames
  generalize controlEventOrcircuit (.payment data) circ direction = event
  intro hmessage hnames
  unfold orcircuitEvent
  rw [hmessage]
  dsimp only
  cases hprev : knownHexId event.prevHexId with
  | none => exact h
  | some prevHexId =>
    have hkey := (hnames prevHexId event.prevCircId).mp (Or.inl ⟨hprev, rfl⟩)
    dsimp only
    cases hget : s.getParHandler prevHexId event.prevCircId with
    | some entry =>
      dsimp only
      obtain ⟨owner, howner, hkey'⟩ := h.owned _ _ _ hget
      have hsame : entry.owner = n := h.separate _ _ owner circ _ _ hkey.1 howner hcirc hkey' hkey.2
      refine ⟨⟨fun m other hmem => ?_, h.single, h.owned⟩, h.known, h.separate⟩
      rcases List.mem_append.mp hmem with hold | hnew
      · exact h.paired m other hold
      · obtain ⟨rfl, rfl⟩ := Prod.mk.inj (List.mem_singleton.mp hnew)
        exact hsame
    | none =>
      dsimp only
      have howner : (s.makeOrCircuit n event).owner = n := rfl
      refine h.enter hcirc howner ?_ (fun m other hmem => ?_) ?_
      · rw [set?_circuits]
        rfl
      · rcases List.mem_append.mp hmem with hold | hnew
        · exact Or.inl hold
        · exact Or.inr (Prod.mk.inj (List.mem_singleton.mp hnew))
      · intro hexId circId other hother
        rw [orCircuits_set?] at hother
        rw [← hnames hexId circId]
        by_cases hnext : knownHexId event.nextHexId = some hexId ∧ event.nextCircId = circId
        · rw [if_pos hnext] at hother
          exact Or.inl ⟨(Option.some.inj hother).symm, Or.inr hnext⟩
        · rw [if_neg hnext] at hother
          by_cases hat : hexId = prevHexId ∧ circId = event.prevCircId
          · have hput : (s.setParHandler prevHexId event.prevCircId (s.makeOrCircuit n event)).orCircuits hexId circId =
                some (s.makeOrCircuit n event) := if_pos hat
            rw [hput] at hother
            obtain ⟨rfl, rfl⟩ := hat
            exact Or.inl ⟨(Option.some.inj hother).symm, Or.inl ⟨hprev, rfl⟩⟩
          · have hput : (s.setParHandler prevHexId event.prevCircId (s.makeOrCircuit n event)).orCircuits hexId circId =
                s.orCircuits hexId circId := if_neg hat
            rw [hput] at hother
            refine Or.inr ⟨hother, ?_⟩
            rintro (⟨hhex, hid⟩ | hnext')
            · rw [hprev] at hhex
              exact hat ⟨(Option.some.inj hhex).symm, hid.symm⟩
            · exact hnext hnext'

/-- `ClientPaymentHandler.start` registers a circuit of this client under its one key. -/
theorem Separated.register (h : s.Separated) (hcirc : s.circuit? n = some circ) (horigin : circ.isOrigin = true)
    {conn : OrConnection} (hconn : circ.nConn = some conn) (hknown : KnownDigest conn.identityDigest)
    {entry : BaseCircuitEntry} (howner : entry.owner = n) :
    (s.setParHandler conn.identityDigest circ.nCircId entry).Separated := by
  have hkey : ∀ hexId circId, HasKey circ hexId circId ↔ hexId = conn.identityDigest ∧ circId = circ.nCircId := by
    intro hexId circId
    constructor
    · rintro (⟨hrelay, -⟩ | ⟨hleads, hid⟩)
      · rw [horigin] at hrelay
        cases hrelay
      · rw [hconn, leadsTo_iff] at hleads
        exact ⟨(Option.some.inj hleads).symm, hid.symm⟩
    · rintro ⟨rfl, rfl⟩
      exact Or.inr ⟨by rw [hconn, leadsTo_iff]; rfl, rfl⟩
  refine h.enter hcirc howner rfl (fun m other hmem => Or.inl hmem) fun hexId circId other hother => ?_
  by_cases hat : hexId = conn.identityDigest ∧ circId = circ.nCircId
  · have hput : (s.setParHandler conn.identityDigest circ.nCircId entry).orCircuits hexId circId = some entry := if_pos hat
    rw [hput] at hother
    refine Or.inl ⟨(Option.some.inj hother).symm, ?_, (hkey hexId circId).mpr hat⟩
    rw [hat.1]
    exact hknown
  · have hput : (s.setParHandler conn.identityDigest circ.nCircId entry).orCircuits hexId circId =
        s.orCircuits hexId circId := if_neg hat
    rw [hput] at hother
    exact Or.inr ⟨hother, fun hk => hat ((hkey hexId circId).mp hk.2)⟩

/-- A circuit is extended, with an id that nobody has with the next hop. -/
theorem Separated.deliver_create (h : s.Separated) (hcirc : s.circuit? n = some circ) (hnone : circ.nConn = none)
    {circId : UInt16} {conn : OrConnection} (hfresh : s.FreshKey circId conn) :
    (s.circuitSetNCircidOrconn n { circ with nConn := some conn } circId (some conn)).Separated := by
  have hkeeps : ∀ {t : Relay} hexId id entry, t.Separated → t.circuit? n = some circ →
      t.orCircuits hexId id = some entry → entry.owner = n →
      HasKey { circ with nCircId := circId, nConn := some conn } hexId id := by
    intro t hexId id entry ht hat hentry howner
    obtain ⟨owner, howns, hkey⟩ := ht.owned hexId id entry hentry
    rw [howner, hat] at howns
    obtain rfl := Option.some.inj howns
    rcases hkey with hprev | ⟨hleads, -⟩
    · exact Or.inl hprev
    · rw [hnone] at hleads
      cases hleads
  have hnew : ∀ {t : Relay}, (∀ m, t.circuit? m = s.circuit? m) → ∀ hexId id, KnownDigest hexId →
      HasKey { circ with nCircId := circId, nConn := some conn } hexId id →
      HasKey circ hexId id ∨ ∀ m other, t.circuit? m = some other → ¬HasKey other hexId id := by
    intro t hsame hexId id hknown hkey
    rcases hkey with hprev | ⟨hleads, hid⟩
    · exact Or.inl (Or.inl hprev)
    · rw [leadsTo_iff] at hleads
      obtain rfl := Option.some.inj hleads
      obtain rfl : circId = id := hid
      exact Or.inr fun m other hother => hfresh hknown m other (by rw [← hsame, hother])
  unfold circuitSetNCircidOrconn
  dsimp only
  split
  · have hat := closed_circuit? s n n { circ with nConn := some conn }
    have hclosed := h.closed n { circ with nConn := some conn }
    exact hclosed.set (hat.trans hcirc) (fun hexId id entry => hkeeps hexId id entry hclosed (hat.trans hcirc))
      (hnew fun m => closed_circuit? s n m _)
  · exact h.set hcirc (fun hexId id entry => hkeeps hexId id entry h hcirc) (hnew fun m => rfl)

end

/-! ### Runs -/

theorem separated_start : start.Separated where
  paired _ _ hmem := by cases hmem
  single _ _ _ _ _ _ hentry := by cases hentry
  owned _ _ _ hentry := by cases hentry
  known _ _ _ hentry := by cases hentry
  separate _ _ _ _ _ _ _ hm := by cases hm

theorem Separated.mark {s : Relay} (h : s.Separated) {n : Nat} {circ : Circuit} (hcirc : s.circuit? n = some circ)
    (reason : Int) : (s.setCircuit n (some (circ.markForClose reason))).Separated := by
  have hkey : ∀ hexId circId, HasKey (circ.markForClose reason) hexId circId ↔ HasKey circ hexId circId := by
    intro hexId circId
    unfold Circuit.markForClose
    split
    · exact Iff.rfl
    · exact Iff.rfl
  refine h.set hcirc (fun hexId circId entry hentry howner => ?_) fun hexId circId _ hk => Or.inl ((hkey hexId circId).mp hk)
  obtain ⟨owner, hat, hk⟩ := h.owned hexId circId entry hentry
  rw [howner, hcirc] at hat
  obtain rfl := Option.some.inj hat
  exact (hkey hexId circId).mpr hk

/-- A regular step keeps the circuits apart and the registry consistent. -/
theorem separated_step {s t : Relay} {action : RelayAction} (h : s.Separated) (hregular : s.Regular action)
    (hstep : s.step action = some t) : t.Separated := by
  cases action with
  | createRelay circId conn =>
    simp only [step] at hstep
    split at hstep
    · cases hstep
    · cases hstep
      refine h.create fun hexId id hknown hkey => ?_
      rcases hkey with ⟨-, hleads, hid⟩ | ⟨hleads, -⟩
      · obtain rfl := Option.some.inj (leadsTo_iff.mp hleads)
        obtain rfl : circId = id := hid
        exact hregular hknown
      · cases hleads
  | createOrigin cpathLength =>
    cases hstep
    refine h.create fun hexId id hknown hkey => ?_
    rcases hkey with ⟨-, hleads, -⟩ | ⟨hleads, -⟩
    · cases hleads
    · cases hleads
  | deliverCreate n circId conn =>
    obtain ⟨circ, hcirc, hstep⟩ := Option.bind_eq_some_iff.mp hstep
    split at hstep
    · rename_i hguard
      cases hstep
      exact h.deliver_create hcirc hguard.2.1 hregular
    · cases hstep
  | payment n direction data =>
    obtain ⟨circ, hcirc, hstep⟩ := Option.bind_eq_some_iff.mp hstep
    split at hstep
    · cases hstep
      exact h.payment hcirc direction data
    · cases hstep
  | loseNext n =>
    obtain ⟨circ, hcirc, hstep⟩ := Option.bind_eq_some_iff.mp hstep
    cases hstep
    exact h.lose_next hcirc hregular
  | losePrevious n =>
    obtain ⟨circ, hcirc, hstep⟩ := Option.bind_eq_some_iff.mp hstep
    split at hstep
    · cases hstep
    · cases hstep
      exact h.lose_previous hcirc
  | markForClose n reason =>
    obtain ⟨circ, hcirc, hstep⟩ := Option.bind_eq_some_iff.mp hstep
    cases hstep
    exact h.mark hcirc reason
  | free n =>
    obtain ⟨circ, hcirc, hstep⟩ := Option.bind_eq_some_iff.mp hstep
    split at hstep
    · cases hstep
    · have hat : ∃ circ', (if circ.isOrigin then s else s.circuitSetPCircidOrconn n circ 0 none).circuit? n = some circ' := by
        cases circ.isOrigin with
        | true => exact ⟨circ, hcirc⟩
        | false => exact ⟨_, lose_previous_at hcirc⟩
      obtain ⟨circ', hcirc'⟩ := hat
      simp only [hcirc'] at hstep
      cases hstep
      exact h.free hcirc hregular rfl hcirc' rfl
  | register n =>
    obtain ⟨circ, hcirc, hstep⟩ := Option.bind_eq_some_iff.mp hstep
    obtain ⟨conn, hconn, hstep⟩ := Option.bind_eq_some_iff.mp hstep
    split at hstep
    · rename_i hguard
      cases hstep
      obtain ⟨digest, hdigest⟩ := Option.isSome_iff_exists.mp hguard.2.2
      obtain ⟨heq, hknown⟩ := knownHexId_eq_some.mp hdigest
      exact h.register hcirc hguard.1 hconn (Option.some.inj heq ▸ hknown) rfl
    · cases hstep

/-- The registry agrees with Tor in every state of a run whose steps are regular. -/
theorem registry_consistent (actions : List RelayAction) (s : Relay) (h : Run step Regular start actions s) :
    s.Consistent :=
  (h.invariant (fun hs hok hstep => separated_step hs hok hstep) separated_start).toConsistent

def exampleServed : List RelayAction :=
  [.createRelay 3 examplePrevious, .payment 0 .outward [7], .markForClose 0 0, .free 0]

/-- A circuit of somebody else is served and closed. -/
theorem served_circuit_consistent :
    ∃ s, Run step Regular start exampleServed s ∧
      (s.received.length = 1 ∧ s.orCircuits (exampleDigest 1) 3 = none) ∧ s.Consistent := by
  have hok : EachStep step Regular start exampleServed := by
    refine ⟨fun _ n circ hn => ?_, trivial, trivial, fun circ hcirc horigin => ?_, trivial⟩
    · cases hn
    · obtain rfl := Option.some.inj hcirc
      cases horigin
  have hend : (exec step start exampleServed).any
      (fun s => decide (s.received.length = 1 ∧ s.orCircuits (exampleDigest 1) 3 = none)) = true := by
    decide
  obtain ⟨s, hrun, hs⟩ := exists_run hend hok
  exact ⟨s, hrun, of_decide_eq_true hs, registry_consistent exampleServed s hrun⟩

def exampleClosedOrigin : List RelayAction :=
  [.createOrigin 2, .deliverCreate 0 7 exampleNext, .register 0, .markForClose 0 0, .free 0]

def exampleReused : List RelayAction :=
  exampleClosedOrigin ++ [.createRelay 3 examplePrevious, .deliverCreate 1 7 exampleNext, .payment 1 .inward [7]]

/-- A closed circuit of this client stays in the registry, and gets the data of a circuit that
takes over its id. -/
theorem closed_origin_stays_registered :
    (∃ s, Run step (fun _ _ => True) start exampleClosedOrigin s ∧
      s.circuit? 0 = none ∧ (s.orCircuits (exampleDigest 2) 7).any (fun entry => entry.owner = 0) = true) ∧
    ∃ s, Run step (fun _ _ => True) start exampleReused s ∧
      s.received.map (fun p => (p.1, p.2.owner)) = [(1, 0)] ∧ ¬s.Consistent := by
  constructor
  · have hend : (exec step start exampleClosedOrigin).any (fun s => decide (s.circuit? 0 = none ∧
        (s.orCircuits (exampleDigest 2) 7).any (fun entry => entry.owner = 0) = true)) = true := by
      decide
    obtain ⟨s, hrun, hs⟩ := exists_run hend (eachStep_true _ _)
    exact ⟨s, hrun, of_decide_eq_true hs⟩
  · have hend : (exec step start exampleReused).any
        (fun s => decide (s.received.map (fun p => (p.1, p.2.owner)) = [(1, 0)])) = true := by
      decide
    obtain ⟨s, hrun, hs⟩ := exists_run hend (eachStep_true _ _)
    have hreceived := of_decide_eq_true hs
    refine ⟨s, hrun, hreceived, fun h => ?_⟩
    have hmem : (1, 0) ∈ s.received.map (fun p => (p.1, p.2.owner)) := by
      rw [hreceived]
      exact List.mem_singleton_self _
    obtain ⟨⟨n, entry⟩, hp, heq⟩ := List.mem_map.mp hmem
    obtain ⟨rfl, howner⟩ := Prod.mk.inj heq
    rw [h.paired _ entry hp] at howner
    cases howner

end Relay

end BitBlinder.Tor
