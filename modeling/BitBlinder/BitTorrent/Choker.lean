import BitBlinder.Runs
import Mathlib.Algebra.Order.Ring.Unbundled.Rat
import Mathlib.Data.List.Nodup
import Mathlib.Data.List.Perm.Subperm
import Mathlib.Logic.Function.Basic

/-!
# Which peers are uploaded to

`Choker.py`, without super-seeding, and what it reads of `Uploader.py`. A connection is
named by the address of its object, which no other object has while the connection is
referenced and by which equal rates are sorted. `rechokes` counts the calls of `_rechoke`
that did not find the choker paused, and no function reads it.
-/

namespace BitBlinder.BitTorrent

set_option autoImplicit false

structure ChokerConfig where
  maxUploads : Nat
  useSocks : Bool
  maxInitiate : Nat
  maxInactiveTime : Rat

/-- A connection with its upload and its download; `circuit` is that of the stream it was made on. -/
structure ChokerConnection where
  circuit : Option Nat
  interested : Bool
  choked : Bool
  snubbed : Bool
  uploadRate : Rat
  downloadRate : Rat
  peerCompletion : Rat
  lastActive : Rat

structure Choker where
  connections : List Nat
  objects : Nat → ChokerConnection
  perCircuit : List (Nat × Nat)
  paused : Bool
  done : Bool
  lastPreferred : Nat
  lastRoundRobin : Rat
  roundRobinPeriod : Rat
  rechokes : Nat

namespace Choker

def update (c : Nat) (f : ChokerConnection → ChokerConnection) (s : Choker) : Choker :=
  { s with objects := Function.update s.objects c (f (s.objects c)) }

def chokeEach (cs : List Nat) (s : Choker) : Choker :=
  { s with objects := fun c => if c ∈ cs then { s.objects c with choked := true } else s.objects c }

def unchokeEach (cs : List Nat) (s : Choker) : Choker :=
  { s with objects := fun c => if c ∈ cs then { s.objects c with choked := false } else s.objects c }

/-! ### The preferred peers -/

def hasKey (slots : List (Nat × Nat)) (circ : Nat) : Bool := (slots.map Prod.fst).contains circ

/-- An upload candidate, sorted by its rate and its address. -/
def candidate (s : Choker) (c : Nat) : Option (Rat × Nat) :=
  if !(s.objects c).interested then none
  else if s.done then some (-(s.objects c).uploadRate, c)
  else if (s.objects c).downloadRate < 1000 ∨ (s.objects c).snubbed = true then none
  else some (-(s.objects c).downloadRate, c)

def candidateLe (a b : Rat × Nat) : Bool := decide (a.1 < b.1) || (decide (a.1 = b.1) && decide (a.2 ≤ b.2))

/-- The entries of `perCircuit` that are still interested. -/
def purge (s : Choker) : List (Nat × Nat) := s.perCircuit.filter fun x => (s.objects x.2).interested

/-- The optimistic unchoke, for the first interested peer that has a circuit. -/
def optimistic (s : Choker) (slots : List (Nat × Nat)) : List (Nat × Nat) :=
  if slots.length ≤ 0 then
    match s.connections.find? fun c => (s.objects c).circuit.isSome && (s.objects c).interested with
    | some c => ((s.objects c).circuit.map fun circ => (circ, c)).toList
    | none => slots
  else slots

/-- The rest of the slots, by rate; no circuit gets a second one. -/
def fillSlots (maxUploads : Nat) (objects : Nat → ChokerConnection) :
    List (Rat × Nat) → List (Nat × Nat) → List (Nat × Nat)
  | [], slots => slots
  | (_, c) :: rest, slots =>
    if slots.length ≥ maxUploads then slots
    else
      match (objects c).circuit with
      | some circ => fillSlots maxUploads objects rest (if hasKey slots circ then slots else slots ++ [(circ, c)])
      | none => fillSlots maxUploads objects rest slots

/-- The first part of `_rechoke`, with the list of the preferred peers. -/
def prefer (config : ChokerConfig) (s : Choker) : Choker × List Nat :=
  if config.maxUploads > 1 then
    let candidates := s.connections.filterMap s.candidate
    let preferred := candidates.mergeSort candidateLe
    let s := { s with lastPreferred := candidates.length }
    if config.useSocks then
      let slots := fillSlots config.maxUploads s.objects preferred (s.optimistic s.purge)
      ({ s with perCircuit := slots }, slots.map Prod.snd)
    else (s, (preferred.take (config.maxUploads - 1)).map Prod.snd)
  else (s, [])

/-! ### Choking -/

structure Selection where
  perCircuit : List (Nat × Nat)
  count : Nat
  hit : Bool
  toChoke : List Nat
  toUnchoke : List Nat

def Selection.choke (c : Nat) (sel : Selection) : Selection := { sel with toChoke := sel.toChoke ++ [c] }

def Selection.unchoke (c : Nat) (sel : Selection) : Selection := { sel with toUnchoke := sel.toUnchoke ++ [c] }

/-- The choking status of one connection. -/
def select (config : ChokerConfig) (objects : Nat → ChokerConnection) (preferred : List Nat)
    (sel : Selection) (c : Nat) : Selection :=
  if c ∈ preferred then sel.unchoke c
  else if sel.count < config.maxUploads ∨ sel.hit = false then
    if (objects c).interested then
      if config.useSocks then
        match (objects c).circuit with
        | none => sel.choke c
        | some circ =>
          if hasKey sel.perCircuit circ then sel.choke c
          else
            { sel with
              perCircuit := sel.perCircuit ++ [(circ, c)]
              count := sel.count + 1
              hit := true
              toUnchoke := sel.toUnchoke ++ [c] }
      else { sel with count := sel.count + 1, hit := true, toUnchoke := sel.toUnchoke ++ [c] }
    else sel.unchoke c
  else sel.choke c

def rechoke (config : ChokerConfig) (s : Choker) : Choker :=
  if s.paused then s.chokeEach s.connections
  else
    let (s, preferred) := prefer config s
    let sel := s.connections.foldl (select config s.objects preferred)
      { perCircuit := s.perCircuit, count := preferred.length, hit := config.useSocks, toChoke := [], toUnchoke := [] }
    unchokeEach sel.toUnchoke
      (chokeEach sel.toChoke { s with perCircuit := sel.perCircuit, rechokes := s.rechokes + 1 })

/-! ### What calls it -/

/-- `p` is the random position that is drawn when none is given. -/
def connectionMade (config : ChokerConfig) (c : Nat) (p : Int) (s : Choker) : Choker :=
  rechoke config { s with connections := s.connections.insertIdx p.toNat c }

def connectionLost (config : ChokerConfig) (c : Nat) (s : Choker) : Choker :=
  let t := { s with connections := s.connections.erase c }
  if (t.objects c).interested && !(t.objects c).choked then rechoke config t else t

/-- `interested` and `not_interested`. -/
def interestChanged (config : ChokerConfig) (c : Nat) (s : Choker) : Choker :=
  if !(s.objects c).choked then rechoke config s else s

def gotInterested (config : ChokerConfig) (c : Nat) (s : Choker) : Choker :=
  if !(s.objects c).interested then interestChanged config c (s.update c fun u => { u with interested := true }) else s

def gotNotInterested (config : ChokerConfig) (c : Nat) (s : Choker) : Choker :=
  if (s.objects c).interested then interestChanged config c (s.update c fun u => { u with interested := false }) else s

def pause (config : ChokerConfig) (flag : Bool) (s : Choker) : Choker := rechoke config { s with paused := flag }

/-- The connections that `_round_robin` closes, which takes them out of the choker. -/
def toBeClosed (config : ChokerConfig) (swarmSize : Nat) (curTime : Rat) (s : Choker) : List Nat :=
  if s.connections.length + 5 ≥ config.maxInitiate ∧ 2 * swarmSize > 3 * s.connections.length then
    s.connections.filter fun c =>
      (s.objects c).peerCompletion < 1 ∧ (s.objects c).lastActive + config.maxInactiveTime < curTime
  else []

/-- The first connection from the second one on that waits to be uploaded to comes to the front. -/
def rotate (s : Choker) : List Nat :=
  match (s.connections.drop 1).findIdx? fun c => (s.objects c).choked && (s.objects c).interested with
  | some i => s.connections.drop (i + 1) ++ s.connections.take (i + 1)
  | none => s.connections

/-- What `_round_robin` does after it has closed connections. -/
def turn (config : ChokerConfig) (now : Rat) (s : Choker) : Choker :=
  rechoke config
    (if s.lastRoundRobin + s.roundRobinPeriod < now then
      { s with lastRoundRobin := now, perCircuit := [], connections := s.rotate }
    else s)

def roundRobin (config : ChokerConfig) (swarmSize : Nat) (curTime now : Rat) (s : Choker) : Choker :=
  turn config now ((s.toBeClosed config swarmSize curTime).foldl (fun s c => connectionLost config c s) s)

inductive Event where
  | made (c : Nat) (p : Int) (circuit : Option Nat)
  | lost (c : Nat)
  | interested (c : Nat)
  | notInterested (c : Nat)
  | measured (c : Nat) (uploadRate downloadRate peerCompletion lastActive : Rat) (snubbed : Bool)
  | finished (done : Bool)
  | turn (now : Rat)
  | period (x : Rat)
  | pause (flag : Bool)

def newConnection (circuit : Option Nat) : ChokerConnection where
  circuit := circuit
  interested := false
  choked := true
  snubbed := false
  uploadRate := 0
  downloadRate := 0
  peerCompletion := 0
  lastActive := 0

/-- The connecter passes on what happens to the connections that it has. -/
def step (config : ChokerConfig) (s : Choker) : Event → Option Choker
  | .made c p circuit =>
    if c ∉ s.connections ∧ c ∉ s.perCircuit.map Prod.snd ∧ -2 ≤ p ∧ p ≤ s.connections.length then
      some (connectionMade config c p (s.update c fun _ => newConnection circuit))
    else none
  | .lost c => if c ∈ s.connections then some (connectionLost config c s) else none
  | .interested c => if c ∈ s.connections then some (gotInterested config c s) else none
  | .notInterested c => if c ∈ s.connections then some (gotNotInterested config c s) else none
  | .measured c uploadRate downloadRate peerCompletion lastActive snubbed =>
    some (s.update c fun u => { u with uploadRate, downloadRate, peerCompletion, lastActive, snubbed })
  | .finished done => some { s with done }
  | .turn now => some (turn config now s)
  | .period x => some { s with roundRobinPeriod := x }
  | .pause flag => some (pause config flag s)

def start (roundRobinPeriod now : Rat) : Choker where
  connections := []
  objects := fun _ => newConnection none
  perCircuit := []
  paused := false
  done := false
  lastPreferred := 0
  lastRoundRobin := now
  roundRobinPeriod := roundRobinPeriod
  rechokes := 0

/-! ### The claim and its condition -/

/-- An interested peer that is not choked. -/
def Uploading (s : Choker) (c : Nat) : Prop := (s.objects c).interested = true ∧ (s.objects c).choked = false

/-- An interested peer that has a circuit. -/
def Eligible (s : Choker) (c : Nat) : Prop := (s.objects c).interested = true ∧ (s.objects c).circuit ≠ none

/-- An interested peer on a circuit without a slot. -/
def Waiting (objects : Nat → ChokerConnection) (slots : List (Nat × Nat)) (c : Nat) : Prop :=
  (objects c).interested = true ∧ ∃ circ ∈ (objects c).circuit, hasKey slots circ = false

instance (s : Choker) (c : Nat) : Decidable (s.Uploading c) := inferInstanceAs (Decidable (_ ∧ _))
instance (s : Choker) (c : Nat) : Decidable (s.Eligible c) := inferInstanceAs (Decidable (_ ∧ _))
instance (objects : Nat → ChokerConnection) (slots : List (Nat × Nat)) (c : Nat) :
    Decidable (Waiting objects slots c) := inferInstanceAs (Decidable (_ ∧ _))

structure OneSlotPerCircuit (config : ChokerConfig) (s : Choker) : Prop where
  distinct : ∀ c ∈ s.connections, ∀ d ∈ s.connections, s.Uploading c → s.Uploading d →
    (s.objects c).circuit = (s.objects d).circuit → c = d
  proxied : ∀ c ∈ s.connections, s.Uploading c → (s.objects c).circuit ≠ none
  bounded : (s.connections.filter fun c => s.Uploading c).length ≤ config.maxUploads
  current : ∀ x ∈ s.perCircuit, x.2 ∈ s.connections
  serving : (∃ c ∈ s.connections, s.Eligible c) → ∃ c ∈ s.connections, s.Uploading c

/-- No slot that `_rechoke` leaves alone is held by a connection that was lost. With a single upload
it leaves all of them alone, and needs a circuit without a slot to upload at all. -/
def Fits (config : ChokerConfig) (s : Choker) : Prop :=
  if config.maxUploads > 1 then ∀ x ∈ s.perCircuit, (s.objects x.2).interested = true → x.2 ∈ s.connections
  else (∀ x ∈ s.perCircuit, x.2 ∈ s.connections) ∧
    ((∃ c ∈ s.connections, s.Eligible c) → ∃ c ∈ s.connections, Waiting s.objects s.perCircuit c)

/-- What an event changes before it may call `_rechoke`. -/
def changed (s : Choker) : Event → Choker
  | .made c p circuit =>
    { s.update c fun _ => newConnection circuit with connections := s.connections.insertIdx p.toNat c }
  | .lost c => { s with connections := s.connections.erase c }
  | .interested c => s.update c fun u => { u with interested := true }
  | .notInterested c => s.update c fun u => { u with interested := false }
  | .measured c uploadRate downloadRate peerCompletion lastActive snubbed =>
    s.update c fun u => { u with uploadRate, downloadRate, peerCompletion, lastActive, snubbed }
  | .finished done => { s with done }
  | .turn now =>
    if s.lastRoundRobin + s.roundRobinPeriod < now then
      { s with lastRoundRobin := now, perCircuit := [], connections := s.rotate }
    else s
  | .period x => { s with roundRobinPeriod := x }
  | .pause flag => { s with paused := flag }

/-- Whether an event calls `_rechoke`. -/
def calls (s : Choker) : Event → Bool
  | .made .. | .turn _ | .pause _ => true
  | .lost c | .notInterested c => (s.objects c).interested && !(s.objects c).choked
  | .interested c => !(s.objects c).interested && !(s.objects c).choked
  | .measured .. | .finished _ | .period _ => false

/-- Where the event calls `_rechoke` and the choker is not paused, the slots fit. -/
def Clear (config : ChokerConfig) (s : Choker) (e : Event) : Prop :=
  s.calls e = true → (s.changed e).paused = false → Fits config (s.changed e)

instance (config : ChokerConfig) (s : Choker) : Decidable (Fits config s) :=
  if h : config.maxUploads > 1 then
    decidable_of_iff (∀ x ∈ s.perCircuit, (s.objects x.2).interested = true → x.2 ∈ s.connections)
      (by rw [Fits, if_pos h])
  else
    decidable_of_iff ((∀ x ∈ s.perCircuit, x.2 ∈ s.connections) ∧
        ((∃ c ∈ s.connections, s.Eligible c) → ∃ c ∈ s.connections, Waiting s.objects s.perCircuit c))
      (by rw [Fits, if_neg h])

instance (config : ChokerConfig) (s : Choker) (e : Event) : Decidable (Clear config s e) :=
  inferInstanceAs (Decidable (_ → _ → _))

/-! ### Slots -/

variable {config : ChokerConfig} {s t : Choker} {slots added : List (Nat × Nat)}

/-- Every slot is under the circuit of its connection, and no circuit has two. -/
structure Keyed (objects : Nat → ChokerConnection) (slots : List (Nat × Nat)) : Prop where
  circuit : ∀ x ∈ slots, (objects x.2).circuit = some x.1
  keys : (slots.map Prod.fst).Nodup

theorem hasKey_iff {circ : Nat} : hasKey slots circ = true ↔ circ ∈ slots.map Prod.fst := by
  simp only [hasKey, List.contains_iff_mem]

theorem Keyed.nil {objects : Nat → ChokerConnection} : Keyed objects [] :=
  ⟨fun x hx => (by cases hx), List.nodup_nil⟩

theorem Keyed.concat {objects : Nat → ChokerConnection} {circ c : Nat} (h : Keyed objects slots)
    (hcirc : (objects c).circuit = some circ) (hkey : hasKey slots circ = false) :
    Keyed objects (slots ++ [(circ, c)]) := by
  constructor
  · intro x hx
    rcases List.mem_append.mp hx with hx | hx
    · exact h.circuit x hx
    · rw [List.mem_singleton.mp hx]
      exact hcirc
  · have hnot : circ ∉ slots.map Prod.fst := by
      rw [← hasKey_iff, hkey]
      exact Bool.false_ne_true
    rw [List.map_append, List.nodup_append]
    refine ⟨h.keys, List.nodup_singleton circ, ?_⟩
    intro a ha b hb
    rw [List.mem_singleton.mp hb]
    rintro rfl
    exact hnot ha

theorem Keyed.sublist {objects : Nat → ChokerConnection} {slots' : List (Nat × Nat)} (h : Keyed objects slots)
    (hsub : slots'.Sublist slots) : Keyed objects slots' :=
  ⟨fun x hx => h.circuit x (hsub.subset hx), (hsub.map Prod.fst).nodup h.keys⟩

/-- Two slots on one circuit are one. -/
theorem Keyed.unique {objects : Nat → ChokerConnection} {c d : Nat} (h : Keyed objects slots)
    (hc : c ∈ slots.map Prod.snd) (hd : d ∈ slots.map Prod.snd) (heq : (objects c).circuit = (objects d).circuit) :
    c = d := by
  obtain ⟨x, hx, rfl⟩ := List.mem_map.mp hc
  obtain ⟨y, hy, rfl⟩ := List.mem_map.mp hd
  rw [h.circuit x hx, h.circuit y hy] at heq
  rw [List.inj_on_of_nodup_map h.keys hx hy (Option.some.inj heq)]

theorem Keyed.congr {objects objects' : Nat → ChokerConnection} (h : Keyed objects slots)
    (heq : ∀ x ∈ slots, (objects' x.2).circuit = (objects x.2).circuit) : Keyed objects' slots :=
  ⟨fun x hx => by rw [heq x hx, h.circuit x hx], h.keys⟩

/-- What filling up the slots keeps and adds. -/
structure Filled (maxUploads : Nat) (s : Choker) (candidates : List Nat) (slots slots' : List (Nat × Nat)) : Prop where
  keyed : Keyed s.objects slots → Keyed s.objects slots'
  bounded : slots.length ≤ maxUploads → slots'.length ≤ maxUploads
  kept : ∀ x ∈ slots, x ∈ slots'
  source : ∀ x ∈ slots', x ∈ slots ∨ x.2 ∈ candidates

theorem Filled.trans {maxUploads : Nat} {candidates : List Nat} {slots' slots'' : List (Nat × Nat)}
    (h : Filled maxUploads s candidates slots slots') (h' : Filled maxUploads s candidates slots' slots'') :
    Filled maxUploads s candidates slots slots'' := by
  refine ⟨h'.keyed ∘ h.keyed, h'.bounded ∘ h.bounded, fun x hx => h'.kept x (h.kept x hx), ?_⟩
  intro x hx
  rcases h'.source x hx with hx | hx
  · exact h.source x hx
  · exact Or.inr hx

theorem Filled.concat {maxUploads circ c : Nat} {candidates : List Nat} (hc : c ∈ candidates)
    (hcirc : (s.objects c).circuit = some circ) (hkey : hasKey slots circ = false) (hroom : slots.length < maxUploads) :
    Filled maxUploads s candidates slots (slots ++ [(circ, c)]) := by
  refine ⟨fun h => h.concat hcirc hkey, fun _ => ?_, fun x hx => List.mem_append_left _ hx, ?_⟩
  · rw [List.length_append, List.length_singleton]
    omega
  · intro x hx
    rcases List.mem_append.mp hx with hx | hx
    · exact Or.inl hx
    · rw [List.mem_singleton.mp hx]
      exact Or.inr hc

theorem Filled.refl (maxUploads : Nat) (s : Choker) (candidates : List Nat) (slots : List (Nat × Nat)) :
    Filled maxUploads s candidates slots slots := ⟨id, id, fun _ hx => hx, fun _ hx => Or.inl hx⟩

theorem fillSlots_filled (maxUploads : Nat) (s : Choker) (candidates : List Nat) (preferred : List (Rat × Nat))
    (hsub : ∀ x ∈ preferred, x.2 ∈ candidates) (slots : List (Nat × Nat)) :
    Filled maxUploads s candidates slots (fillSlots maxUploads s.objects preferred slots) := by
  induction preferred generalizing slots with
  | nil => exact .refl ..
  | cons a preferred ih =>
    obtain ⟨r, c⟩ := a
    have hc : c ∈ candidates := hsub (r, c) List.mem_cons_self
    have hrest := ih fun x hx => hsub x (List.mem_cons_of_mem _ hx)
    unfold fillSlots
    split
    · exact .refl ..
    · rename_i hroom
      cases hcirc : (s.objects c).circuit with
      | none => exact hrest slots
      | some circ =>
        dsimp only
        by_cases hkey : hasKey slots circ = true
        · rw [if_pos hkey]
          exact hrest slots
        · rw [if_neg hkey]
          exact (Filled.concat hc hcirc (Bool.eq_false_of_not_eq_true hkey) (Nat.lt_of_not_le hroom)).trans (hrest _)

theorem purge_sublist : s.purge.Sublist s.perCircuit := List.filter_sublist

/-- The optimistic unchoke is made when no slot is taken and somebody may have one. -/
theorem optimistic_cases (s : Choker) (slots : List (Nat × Nat)) :
    (s.optimistic slots = slots ∧ (slots = [] → ∀ c ∈ s.connections, ¬s.Eligible c)) ∨
      slots = [] ∧ ∃ c ∈ s.connections, (s.objects c).interested = true ∧
        ∃ circ, (s.objects c).circuit = some circ ∧ s.optimistic slots = [(circ, c)] := by
  unfold optimistic
  cases slots with
  | cons x slots => exact Or.inl ⟨rfl, fun h => by cases h⟩
  | nil =>
    rw [if_pos (show ([] : List (Nat × Nat)).length ≤ 0 from Nat.le_refl 0)]
    cases hfind : s.connections.find? fun c => (s.objects c).circuit.isSome && (s.objects c).interested with
    | none =>
      refine Or.inl ⟨rfl, fun _ c hc => ?_⟩
      rintro ⟨hinterested, hcircuit⟩
      have hnot := List.find?_eq_none.mp hfind c hc
      simp [hinterested, Option.isSome_iff_ne_none.mpr hcircuit] at hnot
    | some c =>
      have hp := List.find?_some hfind
      obtain ⟨hcircuit, hinterested⟩ := (Bool.and_eq_true _ _).mp hp
      obtain ⟨circ, hcirc⟩ := Option.isSome_iff_exists.mp hcircuit
      refine Or.inr ⟨rfl, c, List.mem_of_find?_eq_some hfind, hinterested, circ, hcirc, ?_⟩
      simp [hcirc]

theorem mem_candidates {x : Rat × Nat} (hx : x ∈ s.connections.filterMap s.candidate) :
    x.2 ∈ s.connections ∧ (s.objects x.2).interested = true := by
  obtain ⟨c, hc, hcand⟩ := List.mem_filterMap.mp hx
  unfold candidate at hcand
  cases hinterested : (s.objects c).interested with
  | false => simp [hinterested] at hcand
  | true =>
    have hx2 : x.2 = c := by
      simp only [hinterested, Bool.not_true, Bool.false_eq_true, if_false] at hcand
      split at hcand
      · cases hcand
        rfl
      · split at hcand
        · cases hcand
        · cases hcand
          rfl
    rw [hx2]
    exact ⟨hc, hinterested⟩

/-- The slots that the first part of `_rechoke` arrives at when there may be more than one. -/
def filledSlots (config : ChokerConfig) (s : Choker) : List (Nat × Nat) :=
  fillSlots config.maxUploads s.objects ((s.connections.filterMap s.candidate).mergeSort candidateLe) (s.optimistic s.purge)

theorem prefer_many (hmany : config.maxUploads > 1) (hsocks : config.useSocks = true) (s : Choker) :
    prefer config s =
      ({ s with
          lastPreferred := (s.connections.filterMap s.candidate).length
          perCircuit := filledSlots config s }, (filledSlots config s).map Prod.snd) := by
  simp only [prefer, hmany, hsocks, if_true]
  rfl

def interestedConnections (s : Choker) : List Nat := s.connections.filter fun c => (s.objects c).interested

theorem optimistic_filledSlots (config : ChokerConfig) (s : Choker) :
    Filled config.maxUploads s s.interestedConnections (s.optimistic s.purge) (filledSlots config s) :=
  fillSlots_filled _ _ _ _ (fun _ hx => List.mem_filter.mpr (mem_candidates (List.mem_mergeSort.mp hx))) _

theorem purge_filledSlots (hmany : config.maxUploads > 1) (s : Choker) :
    Filled config.maxUploads s s.interestedConnections s.purge (filledSlots config s) := by
  refine Filled.trans ?_ (optimistic_filledSlots config s)
  rcases optimistic_cases s s.purge with ⟨heq, -⟩ | ⟨hnil, c, hc, hinterested, circ, hcirc, heq⟩
  · rw [heq]
    exact .refl ..
  · rw [heq, hnil]
    exact Filled.concat (List.mem_filter.mpr ⟨hc, hinterested⟩) hcirc rfl (Nat.lt_of_succ_lt hmany)

theorem not_eligible_of_filledSlots (hnil : filledSlots config s = []) : ∀ c ∈ s.connections, ¬s.Eligible c := by
  have hkept := (optimistic_filledSlots config s).kept
  have hempty : s.optimistic s.purge = [] :=
    List.eq_nil_iff_forall_not_mem.mpr fun x hx => List.not_mem_nil (hnil ▸ hkept x hx)
  rcases optimistic_cases s s.purge with ⟨heq, hnone⟩ | ⟨-, c, -, -, circ, -, heq⟩
  · exact hnone (heq.symm.trans hempty)
  · rw [heq] at hempty
    cases hempty

/-! ### The loop over the connections -/

/-- What the loop has done with the connections in `visited`; `added` are the slots that it gave. -/
structure Selected (config : ChokerConfig) (objects : Nat → ChokerConnection) (preferred : List Nat)
    (slots added : List (Nat × Nat)) (visited : List Nat) (sel : Selection) : Prop where
  hit : sel.hit = true
  perCircuit : sel.perCircuit = slots ++ added
  count : sel.count = preferred.length + added.length
  bounded : preferred.length ≤ config.maxUploads → sel.count ≤ config.maxUploads
  keyed : Keyed objects slots → Keyed objects sel.perCircuit
  given : ∀ x ∈ added, x.2 ∈ visited ∧ (objects x.2).interested = true
  covers : ∀ c ∈ visited, c ∈ sel.toUnchoke ∨ c ∈ sel.toChoke
  unchoked : ∀ c ∈ visited, (objects c).interested = true →
    (c ∈ sel.toUnchoke ↔ c ∈ preferred ∨ c ∈ added.map Prod.snd)
  fresh : ∀ c ∈ sel.toUnchoke, c ∈ visited
  served : preferred.length < config.maxUploads → added = [] →
    ∀ c ∈ visited, c ∈ preferred ∨ ¬Waiting objects slots c

section
variable {objects : Nat → ChokerConnection} {preferred visited : List Nat} {sel : Selection} {c : Nat}

theorem Selected.choke (h : Selected config objects preferred slots added visited sel) (hnew : c ∉ visited)
    (hpreferred : c ∉ preferred)
    (hserved : preferred.length < config.maxUploads → added = [] → ¬Waiting objects slots c) :
    Selected config objects preferred slots added (visited ++ [c]) (sel.choke c) := by
  have hgiven : c ∉ added.map Prod.snd := by
    intro hc
    obtain ⟨x, hx, rfl⟩ := List.mem_map.mp hc
    exact hnew (h.given x hx).1
  refine ⟨h.hit, h.perCircuit, h.count, h.bounded, h.keyed, ?_, ?_, ?_, ?_, ?_⟩
  · intro x hx
    exact ⟨List.mem_append_left _ (h.given x hx).1, (h.given x hx).2⟩
  · intro d hd
    rcases List.mem_append.mp hd with hd | hd
    · exact (h.covers d hd).imp_right (List.mem_append_left _)
    · exact Or.inr (List.mem_append_right _ hd)
  · intro d hd hinterested
    rcases List.mem_append.mp hd with hd | hd
    · exact h.unchoked d hd hinterested
    · rw [List.mem_singleton.mp hd]
      exact iff_of_false (fun hc => hnew (h.fresh c hc)) (not_or.mpr ⟨hpreferred, hgiven⟩)
  · intro d hd
    exact List.mem_append_left _ (h.fresh d hd)
  · intro hroom hnil d hd
    rcases List.mem_append.mp hd with hd | hd
    · exact h.served hroom hnil d hd
    · rw [List.mem_singleton.mp hd]
      exact Or.inr (hserved hroom hnil)

/-- A connection that is unchoked takes a new slot, or has one, or is not interested. -/
theorem Selected.unchoke {given : List (Nat × Nat)} {sel' : Selection}
    (h : Selected config objects preferred slots added visited sel) (hnew : c ∉ visited)
    (hhit : sel'.hit = true) (hslots : sel'.perCircuit = sel.perCircuit ++ given)
    (hcount : sel'.count = sel.count + given.length)
    (hroom : given ≠ [] → sel.count < config.maxUploads ∧ given.length = 1)
    (hkeyed : Keyed objects sel.perCircuit → Keyed objects sel'.perCircuit)
    (hgiven : ∀ x ∈ given, x.2 = c ∧ (objects c).interested = true)
    (hc : (objects c).interested = true → c ∈ preferred ∨ c ∈ given.map Prod.snd)
    (hunchoke : sel'.toUnchoke = sel.toUnchoke ++ [c]) (hchoke : sel'.toChoke = sel.toChoke) :
    Selected config objects preferred slots (added ++ given) (visited ++ [c]) sel' := by
  refine ⟨hhit, ?_, ?_, ?_, hkeyed ∘ h.keyed, ?_, ?_, ?_, ?_, ?_⟩
  · rw [hslots, h.perCircuit, List.append_assoc]
  · rw [hcount, h.count, List.length_append, Nat.add_assoc]
  · intro hlen
    have hold := h.bounded hlen
    rw [hcount]
    cases given with
    | nil => exact hold
    | cons x given =>
      have := hroom (List.cons_ne_nil _ _)
      omega
  · intro x hx
    rcases List.mem_append.mp hx with hx | hx
    · exact ⟨List.mem_append_left _ (h.given x hx).1, (h.given x hx).2⟩
    · obtain ⟨heq, hinterested⟩ := hgiven x hx
      rw [heq]
      exact ⟨List.mem_append_right _ (List.mem_singleton_self c), hinterested⟩
  · intro d hd
    rw [hunchoke, hchoke]
    rcases List.mem_append.mp hd with hd | hd
    · exact (h.covers d hd).imp_left (List.mem_append_left _)
    · exact Or.inl (List.mem_append_right _ hd)
  · intro d hd hinterested
    rw [hunchoke, List.map_append, List.mem_append, List.mem_append]
    rcases List.mem_append.mp hd with hd | hd
    · have hne : d ≠ c := fun heq => hnew (heq ▸ hd)
      have hnone : d ∉ given.map Prod.snd := by
        intro hmem
        obtain ⟨x, hx, rfl⟩ := List.mem_map.mp hmem
        exact hne (hgiven x hx).1
      rw [List.mem_singleton, or_iff_left hne, or_iff_left hnone]
      exact h.unchoked d hd hinterested
    · rw [List.mem_singleton.mp hd] at hinterested ⊢
      refine iff_of_true (Or.inr (List.mem_singleton_self c)) ?_
      exact (hc hinterested).imp_right Or.inr
  · intro d hd
    rw [hunchoke] at hd
    rcases List.mem_append.mp hd with hd | hd
    · exact List.mem_append_left _ (h.fresh d hd)
    · exact List.mem_append_right _ hd
  · intro hlen hnil d hd
    obtain ⟨hadded, hgivenNil⟩ := List.append_eq_nil_iff.mp hnil
    rcases List.mem_append.mp hd with hd | hd
    · exact h.served hlen hadded d hd
    · rw [List.mem_singleton.mp hd]
      by_cases hinterested : (objects c).interested = true
      · rcases hc hinterested with hpreferred | hmem
        · exact Or.inl hpreferred
        · rw [hgivenNil] at hmem
          cases hmem
      · exact Or.inr fun hwaiting => hinterested hwaiting.1

theorem select_selected (hsocks : config.useSocks = true)
    (h : Selected config objects preferred slots added visited sel) (hnew : c ∉ visited) :
    ∃ added', Selected config objects preferred slots added' (visited ++ [c]) (select config objects preferred sel c) := by
  have hkept : (c ∈ preferred ∨ (objects c).interested = false) →
      Selected config objects preferred slots (added ++ []) (visited ++ [c]) (sel.unchoke c) := by
    intro hc
    refine h.unchoke hnew h.hit (List.append_nil _).symm rfl (fun hne => absurd rfl hne) id
      (fun x hx => (by cases hx)) (fun hinterested => ?_) rfl rfl
    rcases hc with hc | hc
    · exact Or.inl hc
    · rw [hc] at hinterested
      cases hinterested
  unfold select
  by_cases hpreferred : c ∈ preferred
  · rw [if_pos hpreferred]
    exact ⟨_, hkept (Or.inl hpreferred)⟩
  rw [if_neg hpreferred]
  by_cases hroom : sel.count < config.maxUploads
  · rw [if_pos (Or.inl hroom)]
    by_cases hinterested : (objects c).interested = true
    · rw [if_pos hinterested, if_pos hsocks]
      cases hcirc : (objects c).circuit with
      | none =>
        refine ⟨added, h.choke hnew hpreferred fun _ _ hwaiting => ?_⟩
        obtain ⟨-, circ, hcirc', -⟩ := hwaiting
        rw [hcirc] at hcirc'
        cases hcirc'
      | some circ =>
        dsimp only
        by_cases hkey : hasKey sel.perCircuit circ = true
        · rw [if_pos hkey]
          refine ⟨added, h.choke hnew hpreferred fun _ hnil hwaiting => ?_⟩
          obtain ⟨-, circ', hcirc', hkey'⟩ := hwaiting
          rw [hcirc] at hcirc'
          cases hcirc'
          rw [h.perCircuit, hnil, List.append_nil, hkey'] at hkey
          cases hkey
        · rw [if_neg hkey]
          refine ⟨added ++ [(circ, c)], h.unchoke hnew rfl rfl rfl (fun _ => ⟨hroom, rfl⟩)
            (fun hkeyed => hkeyed.concat hcirc (Bool.eq_false_of_not_eq_true hkey)) ?_ ?_ rfl rfl⟩
          · intro x hx
            rw [List.mem_singleton.mp hx]
            exact ⟨rfl, hinterested⟩
          · exact fun _ => Or.inr (List.mem_singleton_self c)
    · rw [if_neg hinterested]
      exact ⟨_, hkept (Or.inr (Bool.eq_false_of_not_eq_true hinterested))⟩
  · have hfull : ¬(sel.count < config.maxUploads ∨ sel.hit = false) := by
      rw [h.hit]
      exact fun hor => hor.elim hroom Bool.noConfusion
    rw [if_neg hfull]
    refine ⟨added, h.choke hnew hpreferred fun hlen hnil => absurd ?_ hroom⟩
    rw [h.count, hnil]
    exact hlen

theorem selected_foldl (hsocks : config.useSocks = true) (rest : List Nat) (hnodup : (visited ++ rest).Nodup)
    (h : Selected config objects preferred slots added visited sel) :
    ∃ added', Selected config objects preferred slots added' (visited ++ rest)
      (rest.foldl (select config objects preferred) sel) := by
  induction rest generalizing visited added sel with
  | nil => exact ⟨added, by rwa [List.append_nil]⟩
  | cons c rest ih =>
    have hnew : c ∉ visited := fun hc => (List.disjoint_of_nodup_append hnodup) hc List.mem_cons_self
    obtain ⟨added', h'⟩ := select_selected hsocks h hnew
    rw [List.append_cons] at hnodup ⊢
    exact ih hnodup h'

end

/-! ### One `_rechoke` -/

/-- The slots are in order, and not too many when there may be more than one. -/
structure WellKept (config : ChokerConfig) (s : Choker) : Prop where
  nodup : s.connections.Nodup
  keyed : Keyed s.objects s.perCircuit
  bounded : config.maxUploads > 1 → s.perCircuit.length ≤ config.maxUploads

/-- What `_rechoke` does from the slots and the preferred peers that it arrives at. -/
structure Rechoked (config : ChokerConfig) (s : Choker) (slots : List (Nat × Nat)) (preferred : List Nat)
    (added : List (Nat × Nat)) (t : Choker) : Prop where
  connections : t.connections = s.connections
  paused : t.paused = s.paused
  rechokes : t.rechokes = s.rechokes + 1
  interested : ∀ c, (t.objects c).interested = (s.objects c).interested
  circuit : ∀ c, (t.objects c).circuit = (s.objects c).circuit
  perCircuit : t.perCircuit = slots ++ added
  bounded : preferred.length ≤ config.maxUploads → preferred.length + added.length ≤ config.maxUploads
  keyed : Keyed s.objects slots → Keyed s.objects t.perCircuit
  given : ∀ x ∈ added, x.2 ∈ s.connections ∧ (s.objects x.2).interested = true
  uploading : ∀ c ∈ s.connections,
    (t.Uploading c ↔ (s.objects c).interested = true ∧ (c ∈ preferred ∨ c ∈ added.map Prod.snd))
  served : preferred.length < config.maxUploads → added = [] →
    ∀ c ∈ s.connections, c ∈ preferred ∨ ¬Waiting s.objects slots c

theorem unchokeEach_chokeEach (us cs : List Nat) (s : Choker) (c : Nat) :
    ((unchokeEach us (chokeEach cs s)).objects c).interested = (s.objects c).interested ∧
      ((unchokeEach us (chokeEach cs s)).objects c).circuit = (s.objects c).circuit ∧
      (c ∈ us ∨ c ∈ cs → (((unchokeEach us (chokeEach cs s)).objects c).choked = false ↔ c ∈ us)) := by
  by_cases hu : c ∈ us <;> by_cases hc : c ∈ cs <;> simp [unchokeEach, chokeEach, hu, hc]

theorem rechoke_rechoked {slots : List (Nat × Nat)} {preferred : List Nat} {n : Nat}
    (hsocks : config.useSocks = true) (hnodup : s.connections.Nodup) (hs : s.paused = false)
    (hprefer : prefer config s = ({ s with lastPreferred := n, perCircuit := slots }, preferred)) :
    ∃ added, Rechoked config s slots preferred added (rechoke config s) := by
  have hstart : Selected config s.objects preferred slots [] []
      { perCircuit := slots, count := preferred.length, hit := config.useSocks, toChoke := [], toUnchoke := [] } := by
    refine ⟨hsocks, (List.append_nil _).symm, rfl, id, id, ?_, ?_, ?_, ?_, ?_⟩
    · exact fun x hx => by cases hx
    · exact fun c hc => by cases hc
    · exact fun c hc => by cases hc
    · exact fun c hc => by cases hc
    · exact fun _ _ c hc => by cases hc
  obtain ⟨added, h⟩ := selected_foldl hsocks s.connections (List.nil_append _ ▸ hnodup) hstart
  rw [List.nil_append] at h
  refine ⟨added, ?_⟩
  unfold rechoke
  rw [if_neg (Bool.eq_false_iff.mp hs), hprefer]
  dsimp only
  constructor
  · rfl
  · rfl
  · rfl
  · exact fun c => (unchokeEach_chokeEach _ _ _ c).1
  · exact fun c => (unchokeEach_chokeEach _ _ _ c).2.1
  · exact h.perCircuit
  · intro hlen
    rw [← h.count]
    exact h.bounded hlen
  · exact h.keyed
  · exact h.given
  · intro c hc
    obtain ⟨hinterested, -, hchoked⟩ := unchokeEach_chokeEach _ _ _ c
    unfold Uploading
    rw [hinterested, hchoked (h.covers c hc)]
    exact and_congr_right (h.unchoked c hc)
  · exact h.served

/-- The connections that are uploaded to have slots, if the preferred peers had them. -/
theorem Rechoked.oneSlot {preferred : List Nat} (h : Rechoked config s slots preferred added t) (hs : s.connections.Nodup)
    (hslots : Keyed s.objects slots) (hpreferred : preferred ⊆ slots.map Prod.snd)
    (hbounded : preferred.length ≤ config.maxUploads)
    (hcurrent : ∀ x ∈ t.perCircuit, x.2 ∈ s.connections)
    (hserving : (∃ c ∈ s.connections, s.Eligible c) → ∃ c ∈ s.connections, t.Uploading c) : OneSlotPerCircuit config t := by
  have hheld : ∀ c ∈ s.connections, t.Uploading c → c ∈ preferred ++ added.map Prod.snd := by
    intro c hc huploading
    exact List.mem_append.mpr ((h.uploading c hc).mp huploading).2
  have hslot : ∀ c ∈ preferred ++ added.map Prod.snd, c ∈ t.perCircuit.map Prod.snd := by
    intro c hc
    rw [h.perCircuit, List.map_append]
    rcases List.mem_append.mp hc with hc | hc
    · exact List.mem_append_left _ (hpreferred hc)
    · exact List.mem_append_right _ hc
  have hkeyed := h.keyed hslots
  constructor
  · intro c hc d hd huc hud heq
    rw [h.connections] at hc hd
    rw [h.circuit, h.circuit] at heq
    exact hkeyed.unique (hslot c (hheld c hc huc)) (hslot d (hheld d hd hud)) heq
  · intro c hc huc
    rw [h.connections] at hc
    obtain ⟨x, hx, rfl⟩ := List.mem_map.mp (hslot c (hheld c hc huc))
    rw [h.circuit, hkeyed.circuit x hx]
    exact Option.some_ne_none _
  · rw [h.connections]
    have hsub : (s.connections.filter fun c => t.Uploading c) ⊆ preferred ++ added.map Prod.snd := by
      intro c hc
      obtain ⟨hc, huc⟩ := List.mem_filter.mp hc
      exact hheld c hc (of_decide_eq_true huc)
    have hlen := (List.subperm_of_subset (hs.filter _) hsub).length_le
    rw [List.length_append, List.length_map] at hlen
    exact Nat.le_trans hlen (h.bounded hbounded)
  · rw [h.connections]
    exact hcurrent
  · rw [h.connections]
    rintro ⟨c, hc, hinterested, hcircuit⟩
    rw [h.interested] at hinterested
    rw [h.circuit] at hcircuit
    exact hserving ⟨c, hc, hinterested, hcircuit⟩

theorem rechoke_many (hmany : config.maxUploads > 1) (hsocks : config.useSocks = true) (h : WellKept config s)
    (hs : s.paused = false) :
    WellKept config (rechoke config s) ∧ (OneSlotPerCircuit config (rechoke config s) ↔ Fits config s) := by
  obtain ⟨added, hr⟩ := rechoke_rechoked hsocks h.nodup hs (prefer_many hmany hsocks s)
  obtain ⟨hkeyed, hbounded, hkept, hsource⟩ := purge_filledSlots hmany s
  have hslots := hkeyed (h.keyed.sublist purge_sublist)
  have hlen := hbounded ((purge_sublist.length_le).trans (h.bounded hmany))
  rw [Fits, if_pos hmany]
  refine ⟨⟨?_, ?_, ?_⟩, ?_, ?_⟩
  · rw [hr.connections]
    exact h.nodup
  · exact (hr.keyed hslots).congr fun x _ => hr.circuit x.2
  · intro _
    have hcount := hr.bounded (by rwa [List.length_map])
    rwa [List.length_map, ← List.length_append, ← hr.perCircuit] at hcount
  · intro hone x hx hinterested
    rw [← hr.connections]
    apply hone.current
    rw [hr.perCircuit]
    exact List.mem_append_left _ (hkept x (List.mem_filter.mpr ⟨hx, hinterested⟩))
  · intro hfits
    have hcurrent : ∀ x ∈ filledSlots config s, x.2 ∈ s.connections ∧ (s.objects x.2).interested = true := by
      intro x hx
      rcases hsource x hx with hx | hx
      · obtain ⟨hx, hinterested⟩ := List.mem_filter.mp hx
        exact ⟨hfits x hx hinterested, hinterested⟩
      · exact List.mem_filter.mp hx
    apply hr.oneSlot h.nodup hslots (List.Subset.refl _) (by rwa [List.length_map])
    · intro x hx
      rw [hr.perCircuit] at hx
      rcases List.mem_append.mp hx with hx | hx
      · exact (hcurrent x hx).1
      · exact (hr.given x hx).1
    · rintro ⟨c, hc, heligible⟩
      cases hfilled : filledSlots config s with
      | nil => exact absurd heligible (not_eligible_of_filledSlots hfilled c hc)
      | cons x rest =>
        have hx : x ∈ filledSlots config s := by
          rw [hfilled]
          exact List.mem_cons_self
        obtain ⟨hmem, hinterested⟩ := hcurrent x hx
        exact ⟨x.2, hmem, (hr.uploading x.2 hmem).mpr ⟨hinterested, Or.inl (List.mem_map_of_mem hx)⟩⟩

/-- With a single upload the slots are neither purged nor used. -/
theorem rechoke_single (hsingle : config.maxUploads = 1) (hsocks : config.useSocks = true) (h : WellKept config s)
    (hs : s.paused = false) :
    WellKept config (rechoke config s) ∧ (OneSlotPerCircuit config (rechoke config s) ↔ Fits config s) := by
  have hnot : ¬config.maxUploads > 1 := by omega
  have hprefer : prefer config s = ({ s with lastPreferred := s.lastPreferred, perCircuit := s.perCircuit }, []) := by
    simp only [prefer, hnot, if_false]
  obtain ⟨added, hr⟩ := rechoke_rechoked hsocks h.nodup hs hprefer
  have hroom : ([] : List Nat).length < config.maxUploads := by
    rw [hsingle]
    exact Nat.one_pos
  rw [Fits, if_neg hnot]
  refine ⟨⟨?_, ?_, fun hmany => absurd hmany hnot⟩, ?_, ?_⟩
  · rw [hr.connections]
    exact h.nodup
  · exact (hr.keyed h.keyed).congr fun x _ => hr.circuit x.2
  · intro hone
    refine ⟨fun x hx => ?_, ?_⟩
    · rw [← hr.connections]
      apply hone.current
      rw [hr.perCircuit]
      exact List.mem_append_left _ hx
    · rintro ⟨c, hc, hinterested, hcircuit⟩
      have heligible : (rechoke config s).Eligible c := by
        refine ⟨?_, ?_⟩
        · rw [hr.interested]
          exact hinterested
        · rw [hr.circuit]
          exact hcircuit
      rw [← hr.connections] at hc
      obtain ⟨d, hd, huploading⟩ := hone.serving ⟨c, hc, heligible⟩
      rw [hr.connections] at hd
      obtain ⟨hinterested', hmem⟩ := (hr.uploading d hd).mp huploading
      obtain ⟨x, hx, rfl⟩ := List.mem_map.mp (hmem.resolve_left List.not_mem_nil)
      have hkeyed := hr.keyed h.keyed
      rw [hr.perCircuit] at hkeyed
      refine ⟨x.2, hd, hinterested', x.1, hkeyed.circuit x (List.mem_append_right _ hx), ?_⟩
      have hkeys := hkeyed.keys
      rw [List.map_append] at hkeys
      apply Bool.eq_false_of_not_eq_true
      rw [hasKey_iff]
      exact fun hkey => List.disjoint_of_nodup_append hkeys hkey (List.mem_map_of_mem hx)
  · rintro ⟨hcurrent, hwaits⟩
    apply hr.oneSlot h.nodup h.keyed (List.nil_subset _) (Nat.zero_le _)
    · intro x hx
      rw [hr.perCircuit] at hx
      rcases List.mem_append.mp hx with hx | hx
      · exact hcurrent x hx
      · exact (hr.given x hx).1
    · intro heligible
      obtain ⟨c, hc, hwaiting⟩ := hwaits heligible
      cases hadded : added with
      | nil =>
        rcases hr.served hroom hadded c hc with hmem | hnone
        · cases hmem
        · exact absurd hwaiting hnone
      | cons x rest =>
        have hx : x ∈ added := by
          rw [hadded]
          exact List.mem_cons_self
        obtain ⟨hmem, hinterested⟩ := hr.given x hx
        exact ⟨x.2, hmem, (hr.uploading x.2 hmem).mpr ⟨hinterested, Or.inr (List.mem_map_of_mem hx)⟩⟩

theorem rechoke_unpaused (hsocks : config.useSocks = true) (huploads : 1 ≤ config.maxUploads) (h : WellKept config s)
    (hs : s.paused = false) :
    WellKept config (rechoke config s) ∧ (OneSlotPerCircuit config (rechoke config s) ↔ Fits config s) := by
  by_cases hmany : config.maxUploads > 1
  · exact rechoke_many hmany hsocks h hs
  · exact rechoke_single (by omega) hsocks h hs

theorem rechoke_paused (hs : s.paused = true) : rechoke config s = s.chokeEach s.connections := by
  rw [rechoke, if_pos hs]

theorem prefer_same (config : ChokerConfig) (s : Choker) :
    (prefer config s).1.connections = s.connections ∧ (prefer config s).1.rechokes = s.rechokes := by
  unfold prefer
  by_cases hmany : config.maxUploads > 1
  · rw [if_pos hmany]
    cases config.useSocks <;> exact ⟨rfl, rfl⟩
  · rw [if_neg hmany]
    exact ⟨rfl, rfl⟩

theorem connections_rechoke (config : ChokerConfig) (s : Choker) : (rechoke config s).connections = s.connections := by
  unfold rechoke
  split
  · rfl
  · exact (prefer_same config s).1

theorem rechokes_rechoke (hs : s.paused = false) : (rechoke config s).rechokes = s.rechokes + 1 := by
  rw [rechoke, if_neg (Bool.eq_false_iff.mp hs), ← (prefer_same config s).2]
  rfl

theorem wellKept_rechoke (hsocks : config.useSocks = true) (huploads : 1 ≤ config.maxUploads)
    (h : WellKept config s) : WellKept config (rechoke config s) := by
  cases hs : s.paused with
  | false => exact (rechoke_unpaused hsocks huploads h hs).1
  | true =>
    rw [rechoke_paused hs]
    refine ⟨h.nodup, h.keyed.congr fun x _ => ?_, h.bounded⟩
    simp only [chokeEach]
    split <;> rfl

/-! ### The events -/

theorem rotate_perm (s : Choker) : s.rotate.Perm s.connections := by
  unfold rotate
  split
  · rename_i i _
    have hperm : (s.connections.drop (i + 1) ++ s.connections.take (i + 1)).Perm
        (s.connections.take (i + 1) ++ s.connections.drop (i + 1)) := List.perm_append_comm
    rwa [List.take_append_drop] at hperm
  · exact .refl _

@[simp] theorem update_objects_self (c : Nat) (f : ChokerConnection → ChokerConnection) (s : Choker) :
    (s.update c f).objects c = f (s.objects c) := Function.update_self ..

@[simp] theorem update_objects_of_ne {c d : Nat} (h : d ≠ c) (f : ChokerConnection → ChokerConnection) (s : Choker) :
    (s.update c f).objects d = s.objects d := Function.update_of_ne h ..

theorem WellKept.update {c : Nat} {f : ChokerConnection → ChokerConnection} (h : WellKept config s)
    (hf : c ∈ s.perCircuit.map Prod.snd → (f (s.objects c)).circuit = (s.objects c).circuit) :
    WellKept config (s.update c f) := by
  refine ⟨h.nodup, h.keyed.congr fun x hx => ?_, h.bounded⟩
  by_cases hc : x.2 = c
  · rw [hc, update_objects_self]
    exact hf (hc ▸ List.mem_map_of_mem hx)
  · rw [update_objects_of_ne hc]

theorem update_self (c : Nat) {f : ChokerConnection → ChokerConnection} (h : f (s.objects c) = s.objects c) :
    s.update c f = s := by
  rw [Choker.update, h, Function.update_eq_self]

/-- An event that is taken makes its change, after which it may call `_rechoke`. -/
theorem step_eq {e : Event} (h : step config s e = some t) :
    t = if s.calls e then rechoke config (s.changed e) else s.changed e := by
  cases e with
  | made c p circuit =>
    obtain ⟨-, h⟩ := Option.ite_none_right_eq_some.mp h
    exact (Option.some.inj h).symm
  | lost c =>
    obtain ⟨-, h⟩ := Option.ite_none_right_eq_some.mp h
    exact (Option.some.inj h).symm
  | interested c =>
    obtain ⟨-, h⟩ := Option.ite_none_right_eq_some.mp h
    cases h
    cases hinterested : (s.objects c).interested with
    | true =>
      have hsame : s.changed (.interested c) = s := by
        simp only [changed]
        apply update_self
        rw [← hinterested]
      simp [gotInterested, calls, hinterested, hsame]
    | false =>
      cases hchoked : (s.objects c).choked <;>
        simp [gotInterested, interestChanged, calls, changed, hinterested, hchoked]
  | notInterested c =>
    obtain ⟨-, h⟩ := Option.ite_none_right_eq_some.mp h
    cases h
    cases hinterested : (s.objects c).interested with
    | false =>
      have hsame : s.changed (.notInterested c) = s := by
        simp only [changed]
        apply update_self
        rw [← hinterested]
      simp [gotNotInterested, calls, hinterested, hsame]
    | true =>
      cases hchoked : (s.objects c).choked <;>
        simp [gotNotInterested, interestChanged, calls, changed, hinterested, hchoked]
  | measured c uploadRate downloadRate peerCompletion lastActive snubbed => exact (Option.some.inj h).symm
  | finished done => exact (Option.some.inj h).symm
  | turn now => exact (Option.some.inj h).symm
  | period x => exact (Option.some.inj h).symm
  | pause flag => exact (Option.some.inj h).symm

theorem wellKept_changed {e : Event} (hs : WellKept config s) (h : step config s e = some t) :
    WellKept config (s.changed e) := by
  cases e with
  | made c p circuit =>
    obtain ⟨⟨hnew, hfree, -, hp⟩, -⟩ := Option.ite_none_right_eq_some.mp h
    obtain ⟨hnodup, hkeyed, hbounded⟩ := hs.update (c := c) (f := fun _ => newConnection circuit)
      fun hmem => absurd hmem hfree
    have hperm := List.perm_insertIdx c s.connections (i := p.toNat) (by omega)
    exact ⟨hperm.nodup_iff.mpr (List.nodup_cons.mpr ⟨hnew, hnodup⟩), hkeyed, hbounded⟩
  | lost c => exact ⟨hs.nodup.erase c, hs.keyed, hs.bounded⟩
  | interested c =>
    simp only [changed]
    exact hs.update fun _ => rfl
  | notInterested c =>
    simp only [changed]
    exact hs.update fun _ => rfl
  | measured c uploadRate downloadRate peerCompletion lastActive snubbed =>
    simp only [changed]
    exact hs.update fun _ => rfl
  | finished done => exact ⟨hs.nodup, hs.keyed, hs.bounded⟩
  | turn now =>
    simp only [changed]
    split
    · exact ⟨s.rotate_perm.nodup_iff.mpr hs.nodup, .nil, fun _ => Nat.zero_le _⟩
    · exact hs
  | period x => exact ⟨hs.nodup, hs.keyed, hs.bounded⟩
  | pause flag => exact ⟨hs.nodup, hs.keyed, hs.bounded⟩

theorem changed_rechokes (s : Choker) (e : Event) : (s.changed e).rechokes = s.rechokes := by
  cases e with
  | turn now =>
    simp only [changed]
    split <;> rfl
  | _ => rfl

theorem wellKept_step {e : Event} (hsocks : config.useSocks = true) (huploads : 1 ≤ config.maxUploads)
    (hs : WellKept config s) (h : step config s e = some t) : WellKept config t := by
  rw [step_eq h]
  split
  · exact wellKept_rechoke hsocks huploads (wellKept_changed hs h)
  · exact wellKept_changed hs h

/-- After every `_rechoke` of the event that did not find the choker paused, the claim holds. -/
def KeepsSlots (config : ChokerConfig) (s : Choker) (e : Event) : Prop :=
  ∀ t, step config s e = some t → t.rechokes ≠ s.rechokes → OneSlotPerCircuit config t

theorem keepsSlots_iff {e : Event} (hsocks : config.useSocks = true) (huploads : 1 ≤ config.maxUploads)
    (hs : WellKept config s) (h : step config s e = some t) : KeepsSlots config s e ↔ Clear config s e := by
  have hchanged := wellKept_changed hs h
  unfold KeepsSlots Clear
  rw [h]
  have ht := step_eq h
  by_cases hcalls : s.calls e = true
  · rw [if_pos hcalls] at ht
    cases hpaused : (s.changed e).paused with
    | true =>
      refine iff_of_true (fun t' ht' hne => ?_) fun _ hfalse => by cases hfalse
      cases ht'
      rw [ht, rechoke_paused hpaused] at hne
      exact absurd (s.changed_rechokes e) hne
    | false =>
      obtain ⟨-, hiff⟩ := rechoke_unpaused hsocks huploads hchanged hpaused
      rw [ht]
      constructor
      · intro hall _ _
        refine hiff.mp (hall _ rfl ?_)
        rw [rechokes_rechoke hpaused, changed_rechokes]
        exact Nat.succ_ne_self _
      · intro hall t' ht' _
        cases ht'
        exact hiff.mpr (hall hcalls rfl)
  · rw [if_neg hcalls] at ht
    refine iff_of_true (fun t' ht' hne => ?_) fun hcalls' => absurd hcalls' hcalls
    cases ht'
    rw [ht] at hne
    exact absurd (s.changed_rechokes e) hne

theorem wellKept_start (config : ChokerConfig) (roundRobinPeriod now : Rat) :
    WellKept config (start roundRobinPeriod now) :=
  ⟨List.nodup_nil, .nil, fun _ => Nat.zero_le _⟩

/-- Every `_rechoke` of a run that does not find the choker paused leaves one slot per circuit exactly
when the slots fit at each of these calls. -/
theorem one_upload_slot_per_circuit (config : ChokerConfig) (hsocks : config.useSocks = true)
    (huploads : 1 ≤ config.maxUploads) (roundRobinPeriod now : Rat) {es : List Event} {s : Choker}
    (h : Run (step config) (fun _ _ => True) (start roundRobinPeriod now) es s) :
    EachStep (step config) (KeepsSlots config) (start roundRobinPeriod now) es ↔
      EachStep (step config) (Clear config) (start roundRobinPeriod now) es :=
  h.eachStep_iff (I := WellKept config) (keepsSlots_iff hsocks huploads) (wellKept_step hsocks huploads)
    (wellKept_start config roundRobinPeriod now)

/-- No interested connection is lost that holds a slot. -/
def HolderStays (s : Choker) (e : Event) : Prop :=
  ∀ c, e = .lost c → (s.objects c).interested = true → c ∉ s.perCircuit.map Prod.snd

/-- Every slot of an interested connection is one of a connection that there is. -/
def Held (s : Choker) : Prop := ∀ x ∈ s.perCircuit, (s.objects x.2).interested = true → x.2 ∈ s.connections

theorem held_changed {e : Event} (hs : Held s) (hstays : HolderStays s e) (h : step config s e = some t) :
    Held (s.changed e) := by
  intro x hx hinterested
  cases e with
  | made c p circuit =>
    obtain ⟨⟨-, hfree, -, hp⟩, -⟩ := Option.ite_none_right_eq_some.mp h
    have hne : x.2 ≠ c := fun heq => hfree (heq ▸ List.mem_map_of_mem hx)
    simp only [changed, update_objects_of_ne hne] at hinterested
    have hperm := List.perm_insertIdx c s.connections (i := p.toNat) (by omega)
    exact hperm.mem_iff.mpr (List.mem_cons_of_mem c (hs x hx hinterested))
  | lost c =>
    have hne : x.2 ≠ c := by
      rintro rfl
      exact hstays _ rfl hinterested (List.mem_map_of_mem hx)
    exact (List.mem_erase_of_ne hne).mpr (hs x hx hinterested)
  | interested c =>
    obtain ⟨hc, -⟩ := Option.ite_none_right_eq_some.mp h
    by_cases heq : x.2 = c
    · exact heq ▸ hc
    · simp only [changed, update_objects_of_ne heq] at hinterested
      exact hs x hx hinterested
  | notInterested c =>
    by_cases heq : x.2 = c
    · simp [changed, heq] at hinterested
    · simp only [changed, update_objects_of_ne heq] at hinterested
      exact hs x hx hinterested
  | measured c uploadRate downloadRate peerCompletion lastActive snubbed =>
    apply hs x hx
    by_cases heq : x.2 = c
    · simpa [changed, heq] using hinterested
    · simpa only [changed, update_objects_of_ne heq] using hinterested
  | finished done => exact hs x hx hinterested
  | turn now =>
    simp only [changed] at hx hinterested ⊢
    split at hx
    · cases hx
    · rename_i hsame
      rw [if_neg hsame] at hinterested ⊢
      exact hs x hx hinterested
  | period x => exact hs _ hx hinterested
  | pause flag => exact hs x hx hinterested

theorem held_rechoke (hsocks : config.useSocks = true) (hmany : config.maxUploads > 1) (hkept : WellKept config s)
    (hs : Held s) : Held (rechoke config s) := by
  cases hpaused : s.paused with
  | true =>
    rw [rechoke_paused hpaused]
    intro x hx hinterested
    apply hs x hx
    simp only [chokeEach] at hinterested
    split at hinterested <;> exact hinterested
  | false =>
    obtain ⟨-, hone⟩ := rechoke_many hmany hsocks hkept hpaused
    rw [Fits, if_pos hmany] at hone
    exact fun x hx _ => (hone.mpr hs).current x hx

/-- Where more than one upload is allowed it is enough that the holders of slots stay while they are interested. -/
theorem clear_of_holderStays (config : ChokerConfig) (hsocks : config.useSocks = true)
    (hmany : config.maxUploads > 1) (roundRobinPeriod now : Rat) {es : List Event} {s : Choker}
    (h : Run (step config) HolderStays (start roundRobinPeriod now) es s) :
    EachStep (step config) (Clear config) (start roundRobinPeriod now) es := by
  apply h.eachStep (I := fun s => WellKept config s ∧ Held s)
  · rintro s t e ⟨-, hs⟩ hstays hstep - -
    rw [Fits, if_pos hmany]
    exact held_changed hs hstays hstep
  · rintro s t e ⟨hkept, hs⟩ hstays hstep
    have hheld := held_changed hs hstays hstep
    refine ⟨wellKept_step hsocks (Nat.le_of_lt hmany) hkept hstep, ?_⟩
    rw [step_eq hstep]
    split
    · exact held_rechoke hsocks hmany (wellKept_changed hkept hstep) hheld
    · exact hheld
  · exact ⟨wellKept_start config roundRobinPeriod now, fun x hx => by cases hx⟩

theorem connections_connectionLost (config : ChokerConfig) (c : Nat) (s : Choker) :
    (connectionLost config c s).connections = s.connections.erase c := by
  simp only [connectionLost]
  split
  · rw [connections_rechoke]
  · rfl

/-- `_round_robin` loses the connections that it closes one after another, and then has its turn. -/
theorem exec_roundRobin (config : ChokerConfig) (swarmSize : Nat) (curTime now : Rat) (s : Choker)
    (hs : s.connections.Nodup) :
    exec (step config) s ((s.toBeClosed config swarmSize curTime).map .lost ++ [.turn now]) =
      some (roundRobin config swarmSize curTime now s) := by
  have hlost : ∀ (cs : List Nat) (s : Choker), cs.Nodup → (∀ c ∈ cs, c ∈ s.connections) →
      exec (step config) s (cs.map .lost ++ [.turn now]) =
        some (turn config now (cs.foldl (fun s c => connectionLost config c s) s)) := by
    intro cs
    induction cs with
    | nil => exact fun s _ _ => rfl
    | cons c cs ih =>
      intro s hcs hmem
      obtain ⟨hc, hcs⟩ := List.nodup_cons.mp hcs
      have hrest : ∀ d ∈ cs, d ∈ (connectionLost config c s).connections := by
        intro d hd
        have hne : d ≠ c := by
          rintro rfl
          exact hc hd
        rw [connections_connectionLost]
        exact (List.mem_erase_of_ne hne).mpr (hmem d (List.mem_cons_of_mem c hd))
      have hstep : step config s (.lost c) = some (connectionLost config c s) := if_pos (hmem c List.mem_cons_self)
      rw [List.map_cons, List.cons_append, exec, hstep]
      exact ih _ hcs hrest
  apply hlost
  · unfold toBeClosed
    split
    · exact hs.filter _
    · exact List.nodup_nil
  · intro c hc
    unfold toBeClosed at hc
    split at hc
    · exact (List.mem_filter.mp hc).1
    · cases hc

/-- Seven uploads. -/
def exampleConfig : ChokerConfig where
  maxUploads := 7
  useSocks := true
  maxInitiate := 40
  maxInactiveTime := 120

/-- The second of two peers on one circuit gets the slot when the first one is no longer interested. -/
theorem one_upload_slot_per_circuit_two_peers :
    ∃ s, Run (step exampleConfig) (fun _ _ => True) (start 30 0)
        [.made 0 0 (some 5), .interested 0, .made 1 (-1) (some 5), .interested 1, .notInterested 0, .lost 0, .turn 5] s ∧
      EachStep (step exampleConfig) (KeepsSlots exampleConfig) (start 30 0)
        [.made 0 0 (some 5), .interested 0, .made 1 (-1) (some 5), .interested 1, .notInterested 0, .lost 0, .turn 5] := by
  have hend : (exec (step exampleConfig) (start 30 0) [.made 0 0 (some 5), .interested 0, .made 1 (-1) (some 5),
      .interested 1, .notInterested 0, .lost 0, .turn 5]).any (fun s => s.Uploading 1) = true := by
    decide +kernel
  have hclear : EachStep (step exampleConfig) (Clear exampleConfig) (start 30 0) [.made 0 0 (some 5), .interested 0,
      .made 1 (-1) (some 5), .interested 1, .notInterested 0, .lost 0, .turn 5] := by
    decide +kernel
  obtain ⟨s, hrun, -⟩ := exists_run hend (eachStep_true _ _)
  exact ⟨s, hrun, (one_upload_slot_per_circuit exampleConfig rfl (by decide) 30 0 hrun).mpr hclear⟩

/-- The slot of a connection that was lost stays taken, and the next peer on its circuit stays choked. -/
theorem lost_connection_keeps_slot :
    ∃ s t, Run (step exampleConfig) (fun _ _ => True) (start 30 0)
        [.made 0 0 (some 5), .interested 0, .lost 0, .made 1 0 (some 5)] s ∧
      step exampleConfig s (.interested 1) = some t ∧ s.rechokes + 1 = t.rechokes ∧ t.paused = false ∧
      t.connections = [1] ∧ t.perCircuit = [(5, 0)] ∧ t.Eligible 1 ∧ ¬t.Uploading 1 ∧
      ¬OneSlotPerCircuit exampleConfig t := by
  have hend : (exec (step exampleConfig) (start 30 0) [.made 0 0 (some 5), .interested 0, .lost 0,
      .made 1 0 (some 5)]).any (fun s => (step exampleConfig s (.interested 1)).any fun t =>
        decide (s.rechokes + 1 = t.rechokes ∧ t.paused = false ∧ t.connections = [1] ∧ t.perCircuit = [(5, 0)] ∧
          t.Eligible 1 ∧ ¬t.Uploading 1)) = true := by
    decide +kernel
  obtain ⟨s, hrun, hany⟩ := exists_run hend (eachStep_true _ _)
  obtain ⟨t, hstep, hdecide⟩ := (Option.any_eq_true _ _).mp hany
  obtain ⟨hcount, hpaused, hconnections, hslots, heligible, hchoked⟩ := of_decide_eq_true hdecide
  refine ⟨s, t, hrun, hstep, hcount, hpaused, hconnections, hslots, heligible, hchoked, fun hone => ?_⟩
  have hmem : 1 ∈ t.connections := by
    rw [hconnections]
    exact List.mem_singleton_self 1
  obtain ⟨c, hc, huploading⟩ := hone.serving ⟨1, hmem, heligible⟩
  rw [hconnections] at hc
  rw [List.mem_singleton.mp hc] at huploading
  exact hchoked huploading

end Choker

end BitBlinder.BitTorrent
