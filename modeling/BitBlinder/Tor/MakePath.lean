import Mathlib.Algebra.Order.BigOperators.Group.List
import Mathlib.Algebra.Order.Field.Basic
import Mathlib.Data.List.Infix
import Mathlib.Data.List.Nodup
import Mathlib.Data.Rat.Defs
import Mathlib.Tactic.Linarith
import Mathlib.Tactic.NormNum
import BitBlinder.Tor.ExitPolicy

/-!
# Paths

`make_path` of `Applications/Tor.py`. A path is built from its exit backwards, by
random picks that are weighted with the scores of the relays. Scores are rational
numbers here, and `random i` is the number that the pick of the `i`-th relay draws.
-/

namespace BitBlinder.Tor.Paths

set_option autoImplicit false

open Struct (Bytes)

def RARE_EXIT_POLICY_CUTOFF : Nat := 4

def INITIAL_BW : Rat := 100000

namespace Relay

def pFailure (relay : Relay) : Rat := relay.connectionFailures / (relay.connectionFailures + 2)

def getScore (relay : Relay) : Rat :=
  let baseScore : Rat := if relay.desc.bw ≤ 0 then INITIAL_BW else relay.desc.bw
  baseScore * (1 - relay.pFailure)

def hasFlags (flags : List String) (relay : Relay) : Bool := flags.all (· ∈ relay.desc.flags)

def isAuthority (relay : Relay) : Bool :=
  "innominetauth".toList <:+: relay.desc.nickname.toList.map Char.toLower

/-- `relayIsAllowed`. -/
def isAllowed (relay : Relay) : Bool := !relay.isAuthority && relay.hasFlags ["Running"]

end Relay

/-- The arguments of `make_path`, but for the protocol. -/
structure PathRequest where
  length : Nat
  host : Host
  port : Option Nat
  exitCountry : Option String
  ignoreExits : List Relay

/-- `relays` are the values of the dictionary by hex id. -/
structure TorApplication where
  relays : List Relay
  keys : (relays.map fun relay => relay.desc.idhex).Nodup
  fingerprint : Option String

/-- `get_relay` for our own relay. -/
def TorApplication.getRelay (app : TorApplication) : Option Relay :=
  app.fingerprint.bind fun hexId => app.relays.find? fun relay => relay.desc.idhex = hexId

/-! ### The random pick -/

section
variable (score : Relay → Rat)

def pickLoop (selectedScoreIdx : Rat) : Rat → List Relay → Option Relay
  | _, [] => none
  | scoreSoFar, relay :: relays =>
    if scoreSoFar + score relay ≥ selectedScoreIdx then some relay
    else pickLoop selectedScoreIdx (scoreSoFar + score relay) relays

/-- `_pick_random_relay_by_score`. -/
def pickRandomRelayByScore (random : Rat) (allowableRelays : List Relay) : Option Relay :=
  let totalScore := (allowableRelays.map score).sum
  match pickLoop score (random * totalScore) 0 allowableRelays with
  | some relay => some relay
  | none => allowableRelays.getLast?

/-- The loop that puts so many relays in front of a path. -/
def extendPath (random : Nat → Rat) : Nat → Nat → List Relay → List Relay → Option (List Relay)
  | 0, _, _, path => some path
  | left + 1, i, middleRelays, path =>
    match pickRandomRelayByScore score (random i) middleRelays with
    | none => none
    | some nextRelay => extendPath random left (i + 1) (middleRelays.erase nextRelay) (nextRelay :: path)

end

section
variable (aton : Bytes → Option Address)

namespace PathRequest

/-- The host as `_get_allowable_relays` passes it on. -/
def passedHost (request : PathRequest) : Host :=
  match request.host.intHost aton with
  | some intHost => .int intHost
  | none => .none

/-- `relayWillExitToCountry`. -/
def exitsToCountry (request : PathRequest) (relay : Relay) : Bool :=
  match request.exitCountry with
  | none => true
  | some country => country = "" || relay.desc.country = country

end PathRequest

/-- `_get_allowable_relays`: those that exit as asked for, and the others but for our own. -/
def allowableRelays (ourRelay : Option Relay) (request : PathRequest) (protocol : String) :
    List Relay → PyExcept (List Relay × List Relay)
  | [] => .ok ([], [])
  | relay :: relays =>
    if relay.isAllowed then do
      let relayWillExitToHost ← relay.willExitTo aton (request.passedHost aton) request.port protocol
      let (exitRelays, middleRelays) ← allowableRelays ourRelay request protocol relays
      if request.exitsToCountry relay && relayWillExitToHost && relay ∉ request.ignoreExits then
        return (relay :: exitRelays, middleRelays)
      else if ourRelay ≠ some relay then return (exitRelays, relay :: middleRelays)
      else return (exitRelays, middleRelays)
    else allowableRelays ourRelay request protocol relays

def TorApplication.makePath (app : TorApplication) (request : PathRequest) (protocol : String) (random : Nat → Rat) :
    PyExcept (Option (List Relay)) := do
  let (exitRelays, middleRelays) ← allowableRelays aton app.getRelay request protocol app.relays
  let exitRelays :=
    if exitRelays.length > RARE_EXIT_POLICY_CUTOFF ∨ request.length ≤ 2 then
      match app.getRelay with
      | some ourRelay => exitRelays.erase ourRelay
      | none => exitRelays
    else exitRelays
  match pickRandomRelayByScore Relay.getScore (random 0) exitRelays with
  | none => return none
  | some exitRelay =>
    if request.length ≤ 1 then return some [exitRelay]
    else
      let ratio : Rat := 2 + middleRelays.length / exitRelays.length
      let score := fun relay => if relay ∈ middleRelays then ratio * relay.getScore else relay.getScore
      return extendPath score random (request.length - 1) 1 (middleRelays ++ exitRelays.erase exitRelay) [exitRelay]

/-! ### What is asked for -/

/-- The host as an address, however it is given. -/
def Host.address : Host → Option Address
  | none => .none
  | int ip => some ip
  | str text => if text = [] then .none else aton text

namespace PathRequest
variable (request : PathRequest)

/-- The policy lets the host and the port pass, or what is known of them. -/
def serves (relay : Relay) : Bool :=
  match request.host.address aton, request.port with
  | some ip, some port => relay.desc.willExitTo ip port
  | none, some port => port = 0 || relay.willExitToPort port
  | _, none => true

/-- A relay that can be the last one. -/
def qualifies (relay : Relay) : Bool :=
  relay.isAllowed && request.exitsToCountry relay && request.serves aton relay && relay ∉ request.ignoreExits

/-- The relays without our own, for a short path or where there are many of them. -/
def withoutOurs (ourRelay : Option Relay) (relays : List Relay) : List Relay :=
  if relays.length > RARE_EXIT_POLICY_CUTOFF ∨ request.length ≤ 2 then relays.filter fun relay => ourRelay ≠ some relay
  else relays

end PathRequest

namespace TorApplication
variable (app : TorApplication) (request : PathRequest)

/-- Those that can be the last one, as far as our own counts. -/
def qualified : List Relay :=
  request.withoutOurs app.getRelay (app.relays.filter fun relay => request.qualifies aton relay)

/-- The relays beside the last one and our own. -/
def beside (last : Relay) : List Relay :=
  app.relays.filter fun relay => relay.isAllowed && relay ≠ last && app.getRelay ≠ some relay

structure LegalPath (path : List Relay) : Prop where
  length_eq : path.length = request.length
  nodup : path.Nodup
  allowed : ∀ relay ∈ path, relay ∈ app.relays ∧ relay.isAllowed = true
  last : ∀ relay ∈ path.getLast?, request.qualifies aton relay = true
  ours : ∀ relay ∈ path.dropLast, app.getRelay ≠ some relay

/-- What `make_path` should return: a legal path, or nothing where there are too few relays. -/
def Sound : PyExcept (Option (List Relay)) → Prop
  | .ok (some path) => app.LegalPath aton request path
  | .ok none => ∀ last ∈ app.qualified aton request, (app.beside last).length < request.length - 1
  | .error _ => False

end TorApplication

/-! ### What the code takes for it -/

namespace PathRequest
variable (request : PathRequest)

/-- The test that the code makes instead of `serves`. -/
def passes (relay : Relay) : Bool :=
  (relay.willExitTo aton (request.passedHost aton) request.port "TCP").toOption = some true

def isCandidate (relay : Relay) : Bool :=
  request.exitsToCountry relay && request.passes aton relay && relay ∉ request.ignoreExits

end PathRequest

namespace TorApplication
variable (app : TorApplication) (request : PathRequest)

def allowed : List Relay := app.relays.filter Relay.isAllowed

def candidates : List Relay := app.allowed.filter fun relay => request.isCandidate aton relay

def middles : List Relay :=
  (app.allowed.filter fun relay => !request.isCandidate aton relay).filter fun relay => app.getRelay ≠ some relay

/-- The relays from which the last one is picked. -/
def exits : List Relay := request.withoutOurs app.getRelay (app.candidates aton request)

/-- There are enough relays for a path. -/
def Reaches : Prop :=
  app.exits aton request ≠ [] ∧ request.length ≤ (app.middles aton request).length + (app.exits aton request).length

/-- An address comes without a port. -/
def NoPort : Prop := (request.host.intHost aton).getD 0 ≠ 0 ∧ request.port = none ∧ app.allowed ≠ []

/-- A relay that does not let the host pass may be picked as the last one. -/
def WrongExit : Prop := app.Reaches aton request ∧ ∃ relay ∈ app.exits aton request, request.serves aton relay = false

/-- Our own relay can be the last one, but need not be. -/
def OwnMiddle : Prop :=
  app.Reaches aton request ∧ 3 ≤ request.length ∧ 2 ≤ (app.exits aton request).length ∧
    ∃ relay ∈ app.exits aton request, app.getRelay = some relay

/-- Port 0 of an address is rejected, whatever the policies say. -/
def PortZero : Prop :=
  (request.host.intHost aton).getD 0 ≠ 0 ∧ request.port = some 0 ∧
    ∃ last ∈ app.qualified aton request, request.length - 1 ≤ (app.beside last).length

/-- Our own relay can be the last one, and all others are needed besides, but it is left out because
too many relays pass for the port alone. -/
def Crowded : Prop :=
  RARE_EXIT_POLICY_CUTOFF < (app.candidates aton request).length ∧
    ∃ last ∈ app.qualified aton request, app.getRelay = some last ∧ 3 ≤ request.length ∧
      (app.beside last).length = request.length - 1

end TorApplication

end

/-! ### Picks -/

section
variable {score : Relay → Rat} {relay : Relay} {relays : List Relay}

theorem pickLoop_mem {idx soFar : Rat} (h : pickLoop score idx soFar relays = some relay) : relay ∈ relays := by
  induction relays generalizing soFar with
  | nil => cases h
  | cons first relays ih =>
    rw [pickLoop] at h
    split at h
    · rw [Option.some.inj h]
      exact List.mem_cons_self
    · exact List.mem_cons_of_mem first (ih h)

theorem pick_mem {random : Rat} (h : pickRandomRelayByScore score random relays = some relay) : relay ∈ relays := by
  unfold pickRandomRelayByScore at h
  dsimp only at h
  split at h
  · rename_i picked hpicked
    rw [← Option.some.inj h]
    exact pickLoop_mem hpicked
  · exact List.mem_of_getLast? h

theorem pick_eq_none_iff (score : Relay → Rat) (random : Rat) (relays : List Relay) :
    pickRandomRelayByScore score random relays = none ↔ relays = [] := by
  constructor
  · intro h
    unfold pickRandomRelayByScore at h
    dsimp only at h
    split at h
    · cases h
    · exact List.getLast?_eq_none_iff.mp h
  · rintro rfl
    rfl

/-- The number that picks a relay lies in the part of the sum that is its own. -/
theorem pickLoop_exists (hpositive : ∀ relay, 0 < score relay) (h : relay ∈ relays) (soFar : Rat) :
    ∃ idx, soFar < idx ∧ idx < soFar + (relays.map score).sum ∧ pickLoop score idx soFar relays = some relay := by
  induction relays generalizing soFar with
  | nil => cases h
  | cons first relays ih =>
    have hfirst := hpositive first
    rw [List.map_cons, List.sum_cons]
    rcases List.mem_cons.mp h with rfl | h
    · have hrest : 0 ≤ (relays.map score).sum := by
        apply List.sum_nonneg
        intro x hx
        obtain ⟨other, -, rfl⟩ := List.mem_map.mp hx
        exact (hpositive other).le
      refine ⟨soFar + score relay / 2, by linarith, by linarith, ?_⟩
      rw [pickLoop, if_pos]
      show soFar + score relay / 2 ≤ soFar + score relay
      linarith
    · obtain ⟨idx, hlow, hhigh, hpick⟩ := ih h (soFar + score first)
      refine ⟨idx, by linarith, by linarith, ?_⟩
      rw [pickLoop, if_neg (not_le.mpr hlow), hpick]

/-- Each relay can be picked. -/
theorem pick_exists (hpositive : ∀ relay, 0 < score relay) (h : relay ∈ relays) :
    ∃ random, 0 ≤ random ∧ random < 1 ∧ pickRandomRelayByScore score random relays = some relay := by
  obtain ⟨idx, hlow, hhigh, hpick⟩ := pickLoop_exists hpositive h 0
  rw [zero_add] at hhigh
  have htotal : 0 < (relays.map score).sum := hlow.trans hhigh
  refine ⟨idx / (relays.map score).sum, div_nonneg hlow.le htotal.le, (div_lt_one htotal).mpr hhigh, ?_⟩
  unfold pickRandomRelayByScore
  dsimp only
  rw [div_mul_cancel₀ idx htotal.ne', hpick]

theorem getScore_pos (relay : Relay) : 0 < relay.getScore := by
  have hfailures : (0 : Rat) ≤ relay.connectionFailures := Nat.cast_nonneg _
  have hfailure : relay.pFailure < 1 := by
    unfold Relay.pFailure
    rw [div_lt_one (by linarith)]
    linarith
  unfold Relay.getScore
  apply mul_pos
  · split
    · unfold INITIAL_BW
      norm_num
    · rename_i hbw
      exact Int.cast_pos.mpr (not_le.mp hbw)
  · linarith

variable {random : Nat → Rat} {left i : Nat} {middleRelays path result : List Relay}

theorem extendPath_eq_none_iff :
    extendPath score random left i middleRelays path = none ↔ middleRelays.length < left := by
  induction left generalizing i middleRelays path with
  | zero => simp [extendPath]
  | succ left ih =>
    rw [extendPath]
    cases hpick : pickRandomRelayByScore score (random i) middleRelays with
    | none =>
      obtain rfl := (pick_eq_none_iff score (random i) middleRelays).mp hpick
      simp
    | some nextRelay =>
      have hmem := pick_mem hpick
      have hpos := List.length_pos_of_mem hmem
      dsimp only
      rw [ih, List.length_erase_of_mem hmem]
      omega

theorem extendPath_spec (hnodup : middleRelays.Nodup)
    (h : extendPath score random left i middleRelays path = some result) :
    ∃ new, result = new ++ path ∧ new.length = left ∧ new.Nodup ∧ ∀ relay ∈ new, relay ∈ middleRelays := by
  induction left generalizing i middleRelays path with
  | zero =>
    obtain rfl := Option.some.inj h
    exact ⟨[], rfl, rfl, List.nodup_nil, fun relay hrelay => by cases hrelay⟩
  | succ left ih =>
    rw [extendPath] at h
    cases hpick : pickRandomRelayByScore score (random i) middleRelays with
    | none =>
      rw [hpick] at h
      cases h
    | some nextRelay =>
      rw [hpick] at h
      have hmem := pick_mem hpick
      obtain ⟨new, rfl, hlength, hnew, hsub⟩ := ih (hnodup.erase nextRelay) h
      refine ⟨new ++ [nextRelay], by simp, by simp [hlength], ?_, ?_⟩
      · refine List.Nodup.append hnew (List.nodup_singleton nextRelay) ?_
        rw [List.disjoint_singleton]
        intro hnext
        exact hnodup.not_mem_erase (hsub nextRelay hnext)
      · intro relay hrelay
        rcases List.mem_append.mp hrelay with hrelay | hrelay
        · exact List.mem_of_mem_erase (hsub relay hrelay)
        · rw [List.mem_singleton.mp hrelay]
          exact hmem

end

/-! ### The two lists -/

section
variable (aton : Bytes → Option Address) (request : PathRequest)

/-- The host that is passed on is a number, which the policy of a relay is never asked about. -/
theorem willExitTo_passed (relay : Relay) :
    relay.willExitTo aton (request.passedHost aton) request.port "TCP" =
      if (request.host.intHost aton).getD 0 = 0 ∧ request.port.getD 0 = 0 then .ok true
      else
        match request.port with
        | none => .error .typeError
        | some port => if port ≠ 0 then .ok (relay.willExitToPort port) else .ok false := by
  rw [willExitTo_tcp]
  unfold PathRequest.passedHost
  cases request.port with
  | none =>
    cases request.host.intHost aton with
    | none => simp [Host.given]
    | some ip => simp [Host.given]
  | some port =>
    cases request.host.intHost aton with
    | none => simp [Host.given, Host.intHost]
    | some ip => simp [Host.given, Host.intHost]

/-- The call raises no exception for any relay. -/
def Convertible : Prop := (request.host.intHost aton).getD 0 = 0 ∨ request.port ≠ none

theorem willExitTo_convertible (h : Convertible aton request) (relay : Relay) :
    relay.willExitTo aton (request.passedHost aton) request.port "TCP" = .ok (request.passes aton relay) := by
  unfold PathRequest.passes
  rw [willExitTo_passed]
  split
  · rfl
  · rename_i hgiven
    cases hport : request.port with
    | none =>
      exact absurd hport (h.resolve_left fun hzero => hgiven ⟨hzero, by rw [hport]; rfl⟩)
    | some port =>
      dsimp only
      split
      · simp [Except.toOption]
      · rfl

theorem allowableRelays_eq (h : Convertible aton request) (ourRelay : Option Relay) (relays : List Relay) :
    allowableRelays aton ourRelay request "TCP" relays =
      .ok ((relays.filter Relay.isAllowed).filter fun relay => request.isCandidate aton relay,
        ((relays.filter Relay.isAllowed).filter fun relay => !request.isCandidate aton relay).filter fun relay =>
          ourRelay ≠ some relay) := by
  induction relays with
  | nil => rfl
  | cons relay relays ih =>
    rw [allowableRelays, ih]
    by_cases hallowed : relay.isAllowed = true
    · rw [if_pos hallowed, willExitTo_convertible aton request h relay, List.filter_cons_of_pos hallowed]
      simp only [PyExcept.ok_bind, PyExcept.pure_eq]
      by_cases hcandidate : request.isCandidate aton relay = true
      · have hexit := hcandidate
        unfold PathRequest.isCandidate at hexit
        rw [if_pos hexit, List.filter_cons_of_pos hcandidate, List.filter_cons_of_neg (by simp [hcandidate])]
      · have hexit := hcandidate
        unfold PathRequest.isCandidate at hexit
        rw [if_neg hexit, List.filter_cons_of_neg hcandidate, List.filter_cons_of_pos (by simp [hcandidate])]
        by_cases hours : ourRelay = some relay
        · rw [if_neg (by simp [hours]), List.filter_cons_of_neg (by simp [hours])]
        · rw [if_pos hours, List.filter_cons_of_pos (by simp [hours])]
    · rw [if_neg hallowed, List.filter_cons_of_neg hallowed]

theorem allowableRelays_error (h : ¬Convertible aton request) (ourRelay : Option Relay) {relays : List Relay}
    (hallowed : relays.filter Relay.isAllowed ≠ []) :
    allowableRelays aton ourRelay request "TCP" relays = .error .typeError := by
  obtain ⟨hhost, hport⟩ : (request.host.intHost aton).getD 0 ≠ 0 ∧ request.port = none := by
    unfold Convertible at h
    rw [not_or, not_not] at h
    exact h
  induction relays with
  | nil => exact absurd rfl hallowed
  | cons relay relays ih =>
    rw [allowableRelays]
    by_cases hfirst : relay.isAllowed = true
    · rw [if_pos hfirst, willExitTo_passed, if_neg fun hzero => hhost hzero.1, hport]
      rfl
    · rw [List.filter_cons_of_neg hfirst] at hallowed
      rw [if_neg hfirst, ih hallowed]

theorem allowableRelays_nil (ourRelay : Option Relay) {relays : List Relay} (h : relays.filter Relay.isAllowed = []) :
    allowableRelays aton ourRelay request "TCP" relays = .ok ([], []) := by
  induction relays with
  | nil => rfl
  | cons relay relays ih =>
    by_cases hfirst : relay.isAllowed = true
    · rw [List.filter_cons_of_pos hfirst] at h
      cases h
    · rw [List.filter_cons_of_neg hfirst] at h
      rw [allowableRelays, if_neg hfirst, ih h]

/-- A relay that lets the host and the port pass also passes the test of the code, unless port 0 is
asked for. -/
theorem passes_of_serves {relay : Relay} (hconvertible : Convertible aton request)
    (hport : (request.host.intHost aton).getD 0 = 0 ∨ request.port ≠ some 0) (h : request.serves aton relay = true) :
    request.passes aton relay = true := by
  have hok : relay.willExitTo aton (request.passedHost aton) request.port "TCP" = .ok true := by
    rw [willExitTo_passed]
    split
    · rfl
    · rename_i hgiven
      unfold PathRequest.serves at h
      cases hp : request.port with
      | none => exact absurd hp (hconvertible.resolve_left fun hzero => hgiven ⟨hzero, by rw [hp]; rfl⟩)
      | some port =>
        have hnonzero : port ≠ 0 := by
          rintro rfl
          have hzero : (request.host.intHost aton).getD 0 = 0 := hport.resolve_right fun hno => hno hp
          exact hgiven ⟨hzero, by rw [hp]; rfl⟩
        rw [hp] at h
        dsimp only
        rw [if_pos hnonzero, Except.ok.injEq]
        cases haddress : request.host.address aton with
        | none =>
          rw [haddress] at h
          simpa [hnonzero] using h
        | some ip =>
          rw [haddress] at h
          exact willExitToPort_of_willExitTo h
  simp [PathRequest.passes, hok, Except.toOption]

end

/-! ### The path -/

namespace TorApplication
variable {aton : Bytes → Option Address} {app : TorApplication} {request : PathRequest}

theorem nodup_relays (app : TorApplication) : app.relays.Nodup := List.Nodup.of_map _ app.keys

theorem nodup_allowed (app : TorApplication) : app.allowed.Nodup := app.nodup_relays.filter _

theorem nodup_candidates : (app.candidates aton request).Nodup := app.nodup_allowed.filter _

theorem exits_sub {relay : Relay} (h : relay ∈ app.exits aton request) : relay ∈ app.candidates aton request := by
  unfold exits PathRequest.withoutOurs at h
  split at h
  · exact (List.mem_filter.mp h).1
  · exact h

theorem nodup_exits : (app.exits aton request).Nodup := by
  unfold exits PathRequest.withoutOurs
  split
  · exact nodup_candidates.filter _
  · exact nodup_candidates

theorem mem_candidates {relay : Relay} : relay ∈ app.candidates aton request ↔
    relay ∈ app.relays ∧ relay.isAllowed = true ∧ request.isCandidate aton relay = true := by
  unfold candidates allowed
  rw [List.mem_filter, List.mem_filter, and_assoc]

theorem mem_middles {relay : Relay} : relay ∈ app.middles aton request ↔
    relay ∈ app.relays ∧ relay.isAllowed = true ∧ request.isCandidate aton relay = false ∧ app.getRelay ≠ some relay := by
  unfold middles allowed
  simp only [List.mem_filter, and_assoc, Bool.not_eq_true', decide_eq_true_eq]

/-- The relays from which the others are picked are all different. -/
theorem nodup_pool (exitRelay : Relay) :
    (app.middles aton request ++ (app.exits aton request).erase exitRelay).Nodup := by
  refine List.Nodup.append ((app.nodup_allowed.filter _).filter _) (nodup_exits.erase exitRelay) ?_
  intro relay hmiddle hexit
  have hcandidate := (mem_candidates.mp (exits_sub (List.mem_of_mem_erase hexit))).2.2
  rw [(mem_middles.mp hmiddle).2.2.1] at hcandidate
  cases hcandidate

/-- What is left of `make_path` when no exception is raised; `score` holds the scores of the middle
relays too. -/
theorem makePath_eq (h : ¬app.NoPort aton request) : ∃ score : Relay → Rat, (∀ relay, 0 < score relay) ∧
    ∀ random, app.makePath aton request "TCP" random =
      .ok ((pickRandomRelayByScore Relay.getScore (random 0) (app.exits aton request)).bind fun exitRelay =>
        extendPath score random (request.length - 1) 1
          (app.middles aton request ++ (app.exits aton request).erase exitRelay) [exitRelay]) := by
  have hlists : allowableRelays aton app.getRelay request "TCP" app.relays =
      .ok (app.candidates aton request, app.middles aton request) := by
    by_cases hconvertible : Convertible aton request
    · exact allowableRelays_eq aton request hconvertible app.getRelay app.relays
    · have hnone : app.allowed = [] := by
        unfold Convertible at hconvertible
        rw [not_or, not_not] at hconvertible
        by_contra hallowed
        exact h ⟨hconvertible.1, hconvertible.2, hallowed⟩
      have hcandidates : app.candidates aton request = [] := by
        unfold candidates
        rw [hnone, List.filter_nil]
      have hmiddles : app.middles aton request = [] := by
        unfold middles
        rw [hnone, List.filter_nil, List.filter_nil]
      rw [hcandidates, hmiddles]
      exact allowableRelays_nil aton request app.getRelay hnone
  have hexits : (if (app.candidates aton request).length > RARE_EXIT_POLICY_CUTOFF ∨ request.length ≤ 2 then
      match app.getRelay with
      | some ourRelay => (app.candidates aton request).erase ourRelay
      | none => app.candidates aton request
    else app.candidates aton request) = app.exits aton request := by
    unfold exits PathRequest.withoutOurs
    congr 1
    cases app.getRelay with
    | none => simp
    | some ourRelay =>
      dsimp only
      rw [nodup_candidates.erase_eq_filter]
      apply List.filter_congr
      intro relay _
      rw [Bool.eq_iff_iff, bne_iff_ne, decide_eq_true_eq, ne_eq, ne_eq, Option.some.injEq, Eq.comm]
  refine ⟨fun relay => if relay ∈ app.middles aton request then
    (2 + (app.middles aton request).length / (app.exits aton request).length) * relay.getScore else relay.getScore, ?_, ?_⟩
  · intro relay
    dsimp only
    have hratio : (0 : Rat) ≤ (app.middles aton request).length / (app.exits aton request).length :=
      div_nonneg (Nat.cast_nonneg _) (Nat.cast_nonneg _)
    split
    · exact mul_pos (by linarith) (getScore_pos relay)
    · exact getScore_pos relay
  · intro random
    unfold makePath
    rw [hlists, PyExcept.ok_bind]
    dsimp only
    rw [hexits]
    cases hpick : pickRandomRelayByScore Relay.getScore (random 0) (app.exits aton request) with
    | none => rfl
    | some exitRelay =>
      rw [Option.bind_some]
      dsimp only
      by_cases hone : request.length ≤ 1
      · rw [if_pos hone, Nat.sub_eq_zero_of_le hone]
        rfl
      · rw [if_neg hone]
        rfl

section
variable {score : Relay → Rat} {random : Nat → Rat} {path : List Relay}

theorem length_pool {exitRelay : Relay} (h : exitRelay ∈ app.exits aton request) :
    (app.middles aton request ++ (app.exits aton request).erase exitRelay).length + 1 =
      (app.middles aton request).length + (app.exits aton request).length := by
  have hpos := List.length_pos_of_mem h
  rw [List.length_append, List.length_erase_of_mem h]
  omega

/-- Nothing is returned if and only if there are not enough relays. -/
theorem path_eq_none_iff (hlength : 1 ≤ request.length) :
    ((pickRandomRelayByScore Relay.getScore (random 0) (app.exits aton request)).bind fun exitRelay =>
      extendPath score random (request.length - 1) 1
        (app.middles aton request ++ (app.exits aton request).erase exitRelay) [exitRelay]) = none ↔
      ¬app.Reaches aton request := by
  unfold Reaches
  cases hpick : pickRandomRelayByScore Relay.getScore (random 0) (app.exits aton request) with
  | none => simp [(pick_eq_none_iff _ _ _).mp hpick]
  | some exitRelay =>
    have hexit := pick_mem hpick
    have hpool := length_pool hexit
    rw [Option.bind_some, extendPath_eq_none_iff, not_and]
    constructor
    · intro hfew _ henough
      omega
    · intro hfew
      have hno := hfew (List.ne_nil_of_mem hexit)
      omega

theorem legalPath_of_some (hlength : 1 ≤ request.length) (hwrong : ¬app.WrongExit aton request)
    (hown : ¬app.OwnMiddle aton request)
    (h : ((pickRandomRelayByScore Relay.getScore (random 0) (app.exits aton request)).bind fun exitRelay =>
      extendPath score random (request.length - 1) 1
        (app.middles aton request ++ (app.exits aton request).erase exitRelay) [exitRelay]) = some path) :
    app.LegalPath aton request path := by
  have hreaches : app.Reaches aton request := by
    by_contra hno
    rw [(path_eq_none_iff hlength).mpr hno] at h
    cases h
  obtain ⟨exitRelay, hpick, hextend⟩ := Option.bind_eq_some_iff.mp h
  have hexit := pick_mem hpick
  obtain ⟨new, rfl, hcount, hnew, hsub⟩ := extendPath_spec (nodup_pool exitRelay) hextend
  have hallowed : ∀ relay ∈ new ++ [exitRelay], relay ∈ app.relays ∧ relay.isAllowed = true := by
    intro relay hrelay
    rcases List.mem_append.mp hrelay with hrelay | hrelay
    · rcases List.mem_append.mp (hsub relay hrelay) with hmiddle | hmiddle
      · exact ⟨(mem_middles.mp hmiddle).1, (mem_middles.mp hmiddle).2.1⟩
      · have hcandidate := mem_candidates.mp (exits_sub (List.mem_of_mem_erase hmiddle))
        exact ⟨hcandidate.1, hcandidate.2.1⟩
    · rw [List.mem_singleton.mp hrelay]
      have hcandidate := mem_candidates.mp (exits_sub hexit)
      exact ⟨hcandidate.1, hcandidate.2.1⟩
  refine ⟨?_, ?_, hallowed, ?_, ?_⟩
  · rw [List.length_append, hcount, List.length_singleton]
    omega
  · refine List.Nodup.append hnew (List.nodup_singleton exitRelay) ?_
    rw [List.disjoint_singleton]
    intro hagain
    rcases List.mem_append.mp (hsub exitRelay hagain) with hmiddle | hmiddle
    · have hcandidate := (mem_candidates.mp (exits_sub hexit)).2.2
      rw [(mem_middles.mp hmiddle).2.2.1] at hcandidate
      cases hcandidate
    · exact nodup_exits.not_mem_erase hmiddle
  · intro relay hrelay
    rw [List.getLast?_concat, Option.mem_def, Option.some.injEq] at hrelay
    subst hrelay
    have hcandidate := mem_candidates.mp (exits_sub hexit)
    have hserves : request.serves aton exitRelay = true := by
      by_contra hno
      exact hwrong ⟨hreaches, exitRelay, hexit, by simpa using hno⟩
    have hexits := hcandidate.2.2
    unfold PathRequest.isCandidate at hexits
    simp only [Bool.and_eq_true, decide_eq_true_eq] at hexits
    unfold PathRequest.qualifies
    simp only [Bool.and_eq_true, decide_eq_true_eq]
    exact ⟨⟨⟨hcandidate.2.1, hexits.1.1⟩, hserves⟩, hexits.2⟩
  · intro relay hrelay hours
    rw [List.dropLast_concat] at hrelay
    rcases List.mem_append.mp (hsub relay hrelay) with hmiddle | hmiddle
    · exact (mem_middles.mp hmiddle).2.2.2 hours
    · -- Our own relay is among the exits, and another one was picked.
      have hmem := List.mem_of_mem_erase hmiddle
      have htwo : 2 ≤ (app.exits aton request).length := by
        have hpos := List.length_pos_of_mem hmiddle
        rw [List.length_erase_of_mem hexit] at hpos
        omega
      refine hown ⟨hreaches, ?_, htwo, relay, hmem, hours⟩
      by_contra hshort
      unfold exits PathRequest.withoutOurs at hmem
      rw [if_pos (Or.inr (by omega)), List.mem_filter] at hmem
      simp [hours] at hmem

end

/-! ### How many relays there are -/

/-- The relays that can be used, but for our own. -/
def strangers (app : TorApplication) : List Relay := app.allowed.filter fun relay => app.getRelay ≠ some relay

theorem beside_eq (last : Relay) : app.beside last = app.strangers.filter fun relay => relay ≠ last := by
  unfold beside strangers allowed
  rw [List.filter_filter, List.filter_filter]
  apply List.filter_congr
  intro relay _
  rw [Bool.eq_iff_iff]
  simp only [Bool.and_eq_true, decide_eq_true_eq]
  constructor
  · rintro ⟨⟨hallowed, hlast⟩, hours⟩
    exact ⟨⟨hlast, hours⟩, hallowed⟩
  · rintro ⟨⟨hlast, hours⟩, hallowed⟩
    exact ⟨⟨hallowed, hlast⟩, hours⟩

theorem length_beside_of_ne {last : Relay} (hallowed : last ∈ app.allowed) (hours : app.getRelay ≠ some last) :
    (app.beside last).length + 1 = app.strangers.length := by
  have hmem : last ∈ app.strangers := List.mem_filter.mpr ⟨hallowed, decide_eq_true hours⟩
  have hnodup : app.strangers.Nodup := app.nodup_allowed.filter _
  have herase : app.beside last = app.strangers.erase last := by
    rw [beside_eq, hnodup.erase_eq_filter]
    apply List.filter_congr
    intro relay _
    rw [Bool.eq_iff_iff]
    simp
  have hpos := List.length_pos_of_mem hmem
  rw [herase, List.length_erase_of_mem hmem]
  omega

theorem length_beside_of_eq {last : Relay} (hours : app.getRelay = some last) :
    (app.beside last).length = app.strangers.length := by
  rw [beside_eq, List.filter_eq_self.mpr]
  intro relay hrelay
  have hstranger := of_decide_eq_true (List.mem_filter.mp hrelay).2
  refine decide_eq_true ?_
  rintro rfl
  exact hstranger hours

/-- Every relay that can be used is a middle relay, a candidate, or our own. -/
theorem length_strangers (aton : Bytes → Option Address) (app : TorApplication) (request : PathRequest) :
    app.strangers.length = (app.middles aton request).length +
    ((app.candidates aton request).filter fun relay => app.getRelay ≠ some relay).length := by
  unfold strangers middles candidates
  rw [← List.countP_eq_length_filter, ← List.countP_eq_length_filter, ← List.countP_eq_length_filter,
    List.countP_eq_countP_filter_add _ _ fun relay => request.isCandidate aton relay]
  exact Nat.add_comm _ _

theorem length_candidates {last : Relay} (hlast : last ∈ app.candidates aton request)
    (hours : app.getRelay = some last) :
    ((app.candidates aton request).filter fun relay => app.getRelay ≠ some relay).length + 1 =
      (app.candidates aton request).length := by
  have herase : ((app.candidates aton request).filter fun relay => app.getRelay ≠ some relay) =
      (app.candidates aton request).erase last := by
    rw [nodup_candidates.erase_eq_filter, hours]
    apply List.filter_congr
    intro relay _
    rw [Bool.eq_iff_iff, bne_iff_ne, decide_eq_true_eq, ne_eq, ne_eq, Option.some.injEq, Eq.comm]
  have hpos := List.length_pos_of_mem hlast
  rw [herase, List.length_erase_of_mem hlast]
  omega

theorem qualifies_of_qualified {relay : Relay} (h : relay ∈ app.qualified aton request) :
    relay ∈ app.relays ∧ request.qualifies aton relay = true := by
  unfold qualified PathRequest.withoutOurs at h
  split at h
  · exact List.mem_filter.mp (List.mem_filter.mp h).1
  · exact List.mem_filter.mp h

theorem candidate_of_qualified (hport : ¬app.NoPort aton request) {last : Relay}
    (hzero : (request.host.intHost aton).getD 0 = 0 ∨ request.port ≠ some 0)
    (h : last ∈ app.qualified aton request) : last ∈ app.candidates aton request := by
  obtain ⟨hmem, hqualifies⟩ := qualifies_of_qualified h
  unfold PathRequest.qualifies at hqualifies
  simp only [Bool.and_eq_true, decide_eq_true_eq] at hqualifies
  obtain ⟨⟨⟨hallowed, hcountry⟩, hserves⟩, hignored⟩ := hqualifies
  have hconvertible : Convertible aton request := by
    by_contra hno
    unfold Convertible at hno
    rw [not_or, not_not] at hno
    exact hport ⟨hno.1, hno.2, List.ne_nil_of_mem (List.mem_filter.mpr ⟨hmem, hallowed⟩)⟩
  refine mem_candidates.mpr ⟨hmem, hallowed, ?_⟩
  unfold PathRequest.isCandidate
  simp only [Bool.and_eq_true, decide_eq_true_eq]
  exact ⟨⟨hcountry, passes_of_serves aton request hconvertible hzero hserves⟩, hignored⟩

/-- Our own relay counts as the last one only for a long path. -/
theorem three_le_of_ours {last : Relay} (h : last ∈ app.qualified aton request) (hours : app.getRelay = some last) :
    3 ≤ request.length := by
  by_contra hshort
  unfold qualified PathRequest.withoutOurs at h
  rw [if_pos (Or.inr (by omega)), List.mem_filter] at h
  simp [hours] at h

/-- Where a relay qualifies and the others suffice, there are enough relays for the code, but for
the two exceptions. -/
theorem few_of_not_reaches (hlength : 1 ≤ request.length) (hport : ¬app.NoPort aton request)
    (hzero : ¬app.PortZero aton request) (hcrowded : ¬app.Crowded aton request) (hreaches : ¬app.Reaches aton request) :
    ∀ last ∈ app.qualified aton request, (app.beside last).length < request.length - 1 := by
  intro last hlast
  by_contra hmany
  have hmany : request.length - 1 ≤ (app.beside last).length := Nat.le_of_not_lt hmany
  have hnonzero : (request.host.intHost aton).getD 0 = 0 ∨ request.port ≠ some 0 := by
    by_contra hno
    rw [not_or, not_not] at hno
    exact hzero ⟨hno.1, hno.2, last, hlast, hmany⟩
  have hcandidate := candidate_of_qualified hport hnonzero hlast
  have hallowed : last ∈ app.allowed := (List.mem_filter.mp hcandidate).1
  have hcount := length_strangers aton app request
  by_cases hours : app.getRelay = some last
  · have hbeside := length_beside_of_eq hours
    have hthree := three_le_of_ours hlast hours
    have hsplit := length_candidates hcandidate hours
    by_cases hrare : (app.candidates aton request).length > RARE_EXIT_POLICY_CUTOFF
    · have hexits : app.exits aton request =
          (app.candidates aton request).filter fun relay => app.getRelay ≠ some relay := by
        unfold exits PathRequest.withoutOurs
        rw [if_pos (Or.inl hrare)]
      have hne : app.exits aton request ≠ [] := by
        apply List.ne_nil_of_length_pos
        rw [hexits]
        unfold RARE_EXIT_POLICY_CUTOFF at hrare
        omega
      have hfew : ¬request.length ≤ app.strangers.length := by
        intro henough
        exact hreaches ⟨hne, by rw [hexits]; omega⟩
      exact hcrowded ⟨hrare, last, hlast, hours, hthree, by omega⟩
    · have hexits : app.exits aton request = app.candidates aton request := by
        unfold exits PathRequest.withoutOurs
        rw [if_neg (by omega)]
      refine hreaches ⟨?_, ?_⟩
      · rw [hexits]
        exact List.ne_nil_of_mem hcandidate
      · rw [hexits]
        omega
  · have hbeside := length_beside_of_ne hallowed hours
    have hmem : last ∈ (app.candidates aton request).filter fun relay => app.getRelay ≠ some relay :=
      List.mem_filter.mpr ⟨hcandidate, decide_eq_true hours⟩
    have hsub : ((app.candidates aton request).filter fun relay => app.getRelay ≠ some relay).length ≤
        (app.exits aton request).length := by
      unfold exits PathRequest.withoutOurs
      split
      · exact Nat.le_refl _
      · exact List.length_filter_le _ _
    refine hreaches ⟨?_, by omega⟩
    apply List.ne_nil_of_length_pos
    exact Nat.lt_of_lt_of_le (List.length_pos_of_mem hmem) hsub

theorem not_reaches_of_portZero (h : app.PortZero aton request) : ¬app.Reaches aton request := by
  obtain ⟨hhost, hport, -⟩ := h
  have hnone : app.candidates aton request = [] := by
    apply List.filter_eq_nil_iff.mpr
    intro relay _
    have hpasses : request.passes aton relay = false := by
      have hfalse : relay.willExitTo aton (request.passedHost aton) request.port "TCP" = .ok false := by
        rw [willExitTo_passed, if_neg fun hzero => hhost hzero.1, hport]
        rfl
      simp [PathRequest.passes, hfalse, Except.toOption]
    simp [PathRequest.isCandidate, hpasses]
  rintro ⟨hexits, -⟩
  apply hexits
  unfold exits PathRequest.withoutOurs
  rw [hnone]
  simp

theorem not_reaches_of_crowded (h : app.Crowded aton request) : ¬app.Reaches aton request := by
  obtain ⟨hrare, last, -, hours, hthree, hbeside⟩ := h
  have hcount := length_strangers aton app request
  rw [length_beside_of_eq hours] at hbeside
  rintro ⟨-, henough⟩
  unfold exits PathRequest.withoutOurs at henough
  rw [if_pos (Or.inl hrare)] at henough
  omega

/-! ### When the path is right -/

/-- Random numbers that begin with two given ones. -/
def draws (first second : Rat) : Nat → Rat
  | 0 => first
  | 1 => second
  | _ => 0

theorem draws_range {first second : Rat} (h : 0 ≤ first ∧ first < 1) (h' : 0 ≤ second ∧ second < 1) (i : Nat) :
    0 ≤ draws first second i ∧ draws first second i < 1 := by
  match i with
  | 0 => exact h
  | 1 => exact h'
  | _ + 2 => exact ⟨le_rfl, one_pos⟩

theorem zero_range : (0 : Rat) ≤ 0 ∧ (0 : Rat) < 1 := ⟨le_rfl, one_pos⟩

/-- Whatever is drawn, the outcome is right. -/
def AlwaysSound (aton : Bytes → Option Address) (app : TorApplication) (request : PathRequest) : Prop :=
  ∀ random : Nat → Rat, (∀ i, 0 ≤ random i ∧ random i < 1) → app.Sound aton request (app.makePath aton request "TCP" random)

theorem not_sound_of_noPort (h : app.NoPort aton request) : ¬app.AlwaysSound aton request := by
  intro hsound
  have hconvertible : ¬Convertible aton request := by
    unfold Convertible
    rw [not_or, not_not]
    exact ⟨h.1, h.2.1⟩
  have herror : app.makePath aton request "TCP" (draws 0 0) = .error .typeError := by
    unfold makePath
    rw [allowableRelays_error aton request hconvertible app.getRelay h.2.2, PyExcept.error_bind]
  have hfalse := hsound (draws 0 0) (draws_range zero_range zero_range)
  rw [herror] at hfalse
  exact hfalse

/-- When the code reaches a path and its outcome is right, the path that grows from the picked exit is legal. -/
theorem legal_of_pick (hlength : 1 ≤ request.length) (hreaches : app.Reaches aton request) {score : Relay → Rat}
    {random : Nat → Rat} {exitRelay : Relay}
    (hmake : app.makePath aton request "TCP" random =
      .ok ((pickRandomRelayByScore Relay.getScore (random 0) (app.exits aton request)).bind fun exitRelay =>
        extendPath score random (request.length - 1) 1
          (app.middles aton request ++ (app.exits aton request).erase exitRelay) [exitRelay]))
    (hsound : app.Sound aton request (app.makePath aton request "TCP" random))
    (hpick : pickRandomRelayByScore Relay.getScore (random 0) (app.exits aton request) = some exitRelay) :
    ∃ path, extendPath score random (request.length - 1) 1
      (app.middles aton request ++ (app.exits aton request).erase exitRelay) [exitRelay] = some path ∧
        app.LegalPath aton request path := by
  rw [hmake] at hsound
  unfold TorApplication.Sound at hsound
  split at hsound
  · rename_i path heq
    have hpath := Except.ok.inj heq
    rw [hpick, Option.bind_some] at hpath
    exact ⟨path, hpath, hsound⟩
  · rename_i heq
    exact absurd hreaches ((path_eq_none_iff hlength).mp (Except.ok.inj heq))
  · exact hsound.elim

theorem not_sound_of_wrongExit (hlength : 1 ≤ request.length) (hport : ¬app.NoPort aton request)
    (h : app.WrongExit aton request) : ¬app.AlwaysSound aton request := by
  intro hsound
  obtain ⟨hreaches, exitRelay, hexit, hserves⟩ := h
  obtain ⟨score, -, hmake⟩ := makePath_eq hport
  obtain ⟨first, hlow, hhigh, hpick⟩ := pick_exists getScore_pos hexit
  obtain ⟨path, hextend, hlegal⟩ := legal_of_pick hlength hreaches (hmake (draws first 0))
    (hsound (draws first 0) (draws_range ⟨hlow, hhigh⟩ zero_range)) hpick
  obtain ⟨new, rfl, -⟩ := extendPath_spec (nodup_pool exitRelay) hextend
  have hlast := hlegal.last exitRelay (by rw [List.getLast?_concat]; rfl)
  unfold PathRequest.qualifies at hlast
  simp [hserves] at hlast

theorem not_sound_of_ownMiddle (hlength : 1 ≤ request.length) (hport : ¬app.NoPort aton request)
    (h : app.OwnMiddle aton request) : ¬app.AlwaysSound aton request := by
  intro hsound
  obtain ⟨hreaches, hthree, htwo, ourRelay, hours, heq⟩ := h
  obtain ⟨score, hpositive, hmake⟩ := makePath_eq hport
  -- Another relay is picked as the exit, and then our own for the place in front of it.
  obtain ⟨exitRelay, hother⟩ : ∃ exitRelay, exitRelay ∈ (app.exits aton request).erase ourRelay := by
    apply List.exists_mem_of_length_pos
    rw [List.length_erase_of_mem hours]
    omega
  have hne : exitRelay ≠ ourRelay := by
    rintro rfl
    exact nodup_exits.not_mem_erase hother
  have hmiddle : ourRelay ∈ app.middles aton request ++ (app.exits aton request).erase exitRelay :=
    List.mem_append_right _ ((List.mem_erase_of_ne hne.symm).mpr hours)
  obtain ⟨first, hlow, hhigh, hpick⟩ := pick_exists getScore_pos (List.mem_of_mem_erase hother)
  obtain ⟨second, hlow', hhigh', hpick'⟩ := pick_exists hpositive hmiddle
  obtain ⟨path, hextend, hlegal⟩ := legal_of_pick hlength hreaches (hmake (draws first second))
    (hsound (draws first second) (draws_range ⟨hlow, hhigh⟩ ⟨hlow', hhigh'⟩)) hpick
  rw [show request.length - 1 = request.length - 2 + 1 by omega, extendPath] at hextend
  have hnext : pickRandomRelayByScore score (draws first second 1)
      (app.middles aton request ++ (app.exits aton request).erase exitRelay) = some ourRelay := hpick'
  rw [hnext] at hextend
  obtain ⟨new, rfl, -⟩ := extendPath_spec ((nodup_pool exitRelay).erase ourRelay) hextend
  refine hlegal.ours ourRelay ?_ heq
  rw [show new ++ [ourRelay, exitRelay] = new ++ [ourRelay] ++ [exitRelay] by simp, List.dropLast_concat]
  exact List.mem_append_right new List.mem_cons_self

/-- Nothing is returned, although a relay qualifies and the others suffice. -/
theorem not_sound_of_overlooked (hlength : 1 ≤ request.length) (hport : ¬app.NoPort aton request)
    (hreaches : ¬app.Reaches aton request) {last : Relay} (hlast : last ∈ app.qualified aton request)
    (henough : request.length - 1 ≤ (app.beside last).length) : ¬app.AlwaysSound aton request := by
  intro hsound
  obtain ⟨score, -, hmake⟩ := makePath_eq hport
  have hnone := hsound (draws 0 0) (draws_range zero_range zero_range)
  rw [hmake, (path_eq_none_iff hlength).mpr hreaches] at hnone
  have hfew := hnone last hlast
  omega

end TorApplication

/-- `make_path` is right for every outcome of the picks, but for five cases: an address without a
port, candidates that pass for the port only, our own relay among several candidates for a long
path, port 0, and our own relay left out for too many candidates where it is needed. -/
theorem makePath_sound_iff (aton : Bytes → Option Address) (app : TorApplication) (request : PathRequest)
    (hlength : 1 ≤ request.length) :
    (∀ random : Nat → Rat, (∀ i, 0 ≤ random i ∧ random i < 1) →
        app.Sound aton request (app.makePath aton request "TCP" random)) ↔
      ¬app.NoPort aton request ∧ ¬app.WrongExit aton request ∧ ¬app.OwnMiddle aton request ∧
        ¬app.PortZero aton request ∧ ¬app.Crowded aton request := by
  constructor
  · intro hsound
    have hport : ¬app.NoPort aton request := fun h => TorApplication.not_sound_of_noPort h hsound
    refine ⟨hport, fun h => ?_, fun h => ?_, fun h => ?_, fun h => ?_⟩
    · exact TorApplication.not_sound_of_wrongExit hlength hport h hsound
    · exact TorApplication.not_sound_of_ownMiddle hlength hport h hsound
    · obtain ⟨-, -, last, hlast, henough⟩ := id h
      exact TorApplication.not_sound_of_overlooked hlength hport (TorApplication.not_reaches_of_portZero h) hlast
        henough hsound
    · obtain ⟨-, last, hlast, -, -, henough⟩ := id h
      exact TorApplication.not_sound_of_overlooked hlength hport (TorApplication.not_reaches_of_crowded h) hlast
        henough.ge hsound
  · rintro ⟨hport, hwrong, hown, hzero, hcrowded⟩ random -
    obtain ⟨score, -, hmake⟩ := TorApplication.makePath_eq hport
    rw [hmake]
    cases hpath : (pickRandomRelayByScore Relay.getScore (random 0) (app.exits aton request)).bind fun exitRelay =>
        extendPath score random (request.length - 1) 1
          (app.middles aton request ++ (app.exits aton request).erase exitRelay) [exitRelay] with
    | none =>
      have hreaches := (TorApplication.path_eq_none_iff hlength).mp hpath
      exact TorApplication.few_of_not_reaches hlength hport hzero hcrowded hreaches
    | some path => exact TorApplication.legalPath_of_some hlength hwrong hown hpath

/-- Our own relay is the last one of these. -/
def exampleApp (own : List ExitPolicyLine) : TorApplication where
  relays := [exampleRelay 1 "A" [.new true (.address 0xC0000202) (.single 80), .new false .any .any],
    exampleRelay 2 "B" acceptsAll, exampleRelay 3 "C" own]
  keys := (by decide : ["A", "B", "C"].Nodup)
  fingerprint := some "C"

def exampleRequest (length : Nat) (host : Host) : PathRequest where
  length := length
  host := host
  port := some 80
  exitCountry := none
  ignoreExits := []

def exampleName : Host := .str "bitblinder.com".toUTF8.toList

def exampleAddress : Host := .str "192.0.2.1".toUTF8.toList

theorem makePath_sound_name :
    (exampleApp acceptsAll).AlwaysSound exampleAton (exampleRequest 2 exampleName) := by
  refine (makePath_sound_iff exampleAton (exampleApp acceptsAll) (exampleRequest 2 exampleName) (by decide)).mpr
    ⟨?_, ?_, ?_, ?_, ?_⟩
  · exact fun h => by cases h.2.1
  · rintro ⟨-, relay, hrelay, hserves⟩
    have hall : ∀ relay ∈ (exampleApp acceptsAll).exits exampleAton (exampleRequest 2 exampleName),
        (exampleRequest 2 exampleName).serves exampleAton relay = true := by
      decide +kernel
    rw [hall relay hrelay] at hserves
    cases hserves
  · exact fun h => absurd h.2.1 (by decide)
  · exact fun h => by cases h.2.1
  · exact fun h => absurd h.1 (by decide +kernel)

/-- The last relay accepts port 80 of another address only; and with three hops our own relay stands
in front of the last one. -/
theorem makePath_illegal :
    ((exampleApp rejectsWeb).makePath exampleAton (exampleRequest 2 exampleAddress) "TCP" (TorApplication.draws 0 0) =
        .ok (some [exampleRelay 2 "B" acceptsAll,
          exampleRelay 1 "A" [.new true (.address 0xC0000202) (.single 80), .new false .any .any]]) ∧
      (exampleRelay 1 "A" [.new true (.address 0xC0000202) (.single 80), .new false .any .any]).desc.willExitTo
        0xC0000201 80 = false) ∧
    (exampleApp acceptsAll).makePath exampleAton (exampleRequest 3 exampleName) "TCP"
        (TorApplication.draws 0 (99 / 100)) =
      .ok (some [exampleRelay 2 "B" acceptsAll, exampleRelay 3 "C" acceptsAll,
        exampleRelay 1 "A" [.new true (.address 0xC0000202) (.single 80), .new false .any .any]]) ∧
    (exampleApp acceptsAll).getRelay = some (exampleRelay 3 "C" acceptsAll) := by
  decide +kernel

end BitBlinder.Tor.Paths
