import BitBlinder.Runs
import Mathlib.Algebra.Ring.Nat

/-!
# Forwarding a port and testing it

`ForwardedPort.py` with its two base classes in `UPNPPort.py` and `TestablePort.py`.
The fields from `upnpRequests` to `timersSet` are what goes on outside: requests to the
UPnP program, server tests, probes and delayed calls, which have numbers. The fields
after them record what happened, and no function reads them: whether the last call was
`stop`, whether the test was stopped, whether a start after a stop has not led to a test
yet, whether a mapping was made whose removal was not requested, the tests begun, the
events of those that ended, and the probes launched after a stop.
-/

namespace BitBlinder.Client

set_option autoImplicit false

def MAX_TESTS : Nat := 15

inductive TrafficType where
  | tcp
  | udp
  deriving DecidableEq

inductive PortTestType where
  | tcp
  | tcpReply
  | udp
  | udpReply
  deriving DecidableEq

inductive PortState where
  | unknown
  | yes
  | no
  | unsupported

inductive PortEvent where
  | reachable
  | unreachable
  | reachabilityUnknown
  deriving DecidableEq

structure PortConfig where
  trafficType : TrafficType
  isBound : Bool

def PortConfig.portTestType (config : PortConfig) : PortTestType :=
  match config.trafficType, config.isBound with
  | .tcp, false => .tcp
  | .tcp, true => .tcpReply
  | .udp, false => .udp
  | .udp, true => .udpReply

/-- The types that `test_incoming_port` has a test for; it raises on the other one. -/
def PortTestType.Known (t : PortTestType) : Prop := t = .tcp ∨ t = .tcpReply ∨ t = .udp

instance (t : PortTestType) : Decidable t.Known := inferInstanceAs (Decidable (_ ∨ _))

/-- What a probe meets with: whether the external address is known, BitBlinder is ready and the last
circuit is done, and the exit of the circuit that is built when some exits are to be ignored. -/
structure ProbeContext where
  externalIp : Bool
  ready : Bool
  circuitDone : Bool
  buildCircuit : List Nat → Option Nat

/-- A circuit is known by its exit. -/
structure ForwardedPort where
  startedUPNP : Bool
  usedUPNP : Bool
  testsStarted : Bool
  reachable : Option Bool
  probeRunning : Bool
  circ : Option Nat
  ignoreExits : List Nat
  numProbes : Nat
  circuitFailures : Nat
  nextScheduledTest : Option Nat
  reachableState : PortState
  upnpState : PortState
  upnpRequests : Nat
  serverTests : Nat
  probes : Nat
  timers : List Nat
  timersSet : Nat
  stopped : Bool
  interrupted : Bool
  owed : Bool
  mapped : Bool
  begun : Nat
  ended : List PortEvent
  strayProbes : Nat

namespace ForwardedPort

/-! ### `TestablePort` -/

def onTestDone (s : ForwardedPort) : ForwardedPort := { s with testsStarted := false, probeRunning := false }

def onReachable (s : ForwardedPort) : ForwardedPort :=
  { onTestDone { s with reachable := some true } with
    reachableState := .yes
    ended := s.ended ++ [.reachable] }

def onUnreachable (reachabilityResult : Option Bool) (s : ForwardedPort) : ForwardedPort :=
  { onTestDone { s with reachable := reachabilityResult } with
    reachableState := .no
    ended := s.ended ++ [if reachabilityResult = some false then .unreachable else .reachabilityUnknown] }

/-- A new test begins unless there is one. -/
def startTest (config : PortConfig) (s : ForwardedPort) : ForwardedPort :=
  if !s.testsStarted then
    let s := { s with testsStarted := true, begun := s.begun + 1, interrupted := s.stopped, owed := false }
    if config.portTestType.Known then { s with serverTests := s.serverTests + 1 } else s
  else s

def scheduleNextTest (s : ForwardedPort) : ForwardedPort :=
  { s with
    nextScheduledTest := some s.timersSet
    timers := s.timers ++ [s.timersSet]
    timersSet := s.timersSet + 1 }

/-- The circuit that there is, or a new one, if need be with exits that were tried before. -/
def findCircuit (env : ProbeContext) (s : ForwardedPort) : ForwardedPort :=
  let s := if s.circ = none ∨ env.circuitDone = true then { s with circ := env.buildCircuit s.ignoreExits } else s
  if s.circ = none then { s with ignoreExits := [], circ := env.buildCircuit [] } else s

def handleLaunch (s : ForwardedPort) : ForwardedPort :=
  { s with
    probes := s.probes + 1
    strayProbes := if s.stopped then s.strayProbes + 1 else s.strayProbes }

def startProbe (env : ProbeContext) (s : ForwardedPort) : ForwardedPort :=
  if s.probeRunning = false ∧ s.testsStarted = true ∧ s.reachable ≠ some true then
    if !env.externalIp then scheduleNextTest s
    else if !env.ready then scheduleNextTest s
    else
      let s := findCircuit env s
      if s.circ = none then scheduleNextTest s
      else handleLaunch { s with probeRunning := true, numProbes := s.numProbes + 1 }
  else s

/-- The variables that a circuit test begins with. -/
def resetTest (s : ForwardedPort) : ForwardedPort :=
  { s with
    ignoreExits := []
    numProbes := 0
    circuitFailures := 0
    nextScheduledTest := none
    reachable := some false }

def startCircuitTest (env : ProbeContext) (s : ForwardedPort) : ForwardedPort := startProbe env (resetTest s)

def onServerTestDone (config : PortConfig) (env : ProbeContext) (isReachable : Option Bool) (s : ForwardedPort) :
    ForwardedPort :=
  match isReachable with
  | some true => onReachable s
  | some false => onUnreachable (some false) s
  | none => if config.trafficType = .tcp then startCircuitTest env s else onUnreachable none s

/-- `built` is whether the circuit's status is `BUILT`. -/
def connectionFailed (built : Bool) (s : ForwardedPort) : ForwardedPort :=
  let s := { s with probeRunning := false }
  match s.circ with
  | none => s
  | some exit =>
    let s := { s with ignoreExits := s.ignoreExits ++ [exit] }
    if ∀ k ∈ s.nextScheduledTest, k ∉ s.timers then
      let s := if built then { s with circ := none } else { s with circuitFailures := s.circuitFailures + 1 }
      if (s.numProbes : Int) - s.circuitFailures < MAX_TESTS then scheduleNextTest s else onUnreachable (some false) s
    else s

def stopTest (s : ForwardedPort) : ForwardedPort :=
  { s with
    timers := match s.nextScheduledTest with
      | some k => s.timers.erase k
      | none => s.timers
    nextScheduledTest := none }

/-! ### `UPNPPort` -/

def startUpnp (s : ForwardedPort) : ForwardedPort :=
  if !s.startedUPNP then { s with startedUPNP := true, upnpRequests := s.upnpRequests + 1 } else s

/-- `on_upnp_done` logs what `start_test` raises. -/
def onUpnpDone (config : PortConfig) (s : ForwardedPort) : ForwardedPort :=
  startTest config { s with startedUPNP := false }

def upnpSucceeded (config : PortConfig) (s : ForwardedPort) : ForwardedPort :=
  { onUpnpDone config s with usedUPNP := true, upnpState := .yes, mapped := true }

def upnpFailed (config : PortConfig) (failure : String) (s : ForwardedPort) : ForwardedPort :=
  let s := { onUpnpDone config s with usedUPNP := false }
  let s := if failure = "UNSUPPORTED" then { s with upnpState := .unsupported } else s
  { s with upnpState := .no }

/-- The removal is requested if the binding was made. -/
def stopUpnp (s : ForwardedPort) : ForwardedPort := if s.usedUPNP then { s with mapped := false } else s

/-! ### `ForwardedPort` -/

def start (s : ForwardedPort) : ForwardedPort :=
  startUpnp { s with
    reachableState := .unknown
    upnpState := .unknown
    stopped := false
    owed := s.owed || s.stopped }

def stop (s : ForwardedPort) : ForwardedPort :=
  { stopTest (stopUpnp s) with stopped := true, interrupted := true, owed := false }

/-- The calls, and what comes of the operations that are running. -/
inductive Event where
  | start
  | stop
  | upnpSucceeded
  | upnpFailed (failure : String)
  | serverTestDone (isReachable : Option Bool) (env : ProbeContext)
  | probeMade
  | probeFailed (built : Bool)
  | timer (k : Nat) (env : ProbeContext)

def step (config : PortConfig) (s : ForwardedPort) : Event → Option ForwardedPort
  | .start => some (start s)
  | .stop => some (stop s)
  | .upnpSucceeded =>
    if 0 < s.upnpRequests then some (upnpSucceeded config { s with upnpRequests := s.upnpRequests - 1 }) else none
  | .upnpFailed failure =>
    if 0 < s.upnpRequests then some (upnpFailed config failure { s with upnpRequests := s.upnpRequests - 1 }) else none
  | .serverTestDone isReachable env =>
    if 0 < s.serverTests then
      some (onServerTestDone config env isReachable { s with serverTests := s.serverTests - 1 })
    else none
  | .probeMade => if 0 < s.probes then some (onReachable { s with probes := s.probes - 1 }) else none
  | .probeFailed built => if 0 < s.probes then some (connectionFailed built { s with probes := s.probes - 1 }) else none
  | .timer k env => if k ∈ s.timers then some (startProbe env { s with timers := s.timers.erase k }) else none

/-- A port that was not started yet. -/
def init : ForwardedPort where
  startedUPNP := false
  usedUPNP := false
  testsStarted := false
  reachable := none
  probeRunning := false
  circ := none
  ignoreExits := []
  numProbes := 0
  circuitFailures := 0
  nextScheduledTest := none
  reachableState := .unknown
  upnpState := .unknown
  upnpRequests := 0
  serverTests := 0
  probes := 0
  timers := []
  timersSet := 0
  stopped := true
  interrupted := false
  owed := false
  mapped := false
  begun := 0
  ended := []
  strayProbes := 0

/-! ### The claim and its condition -/

/-- What the test is waiting for: the server, a probe or the next one. -/
def activities (s : ForwardedPort) : Nat := s.serverTests + s.probes + s.timers.length

structure Lifecycle (s : ForwardedPort) : Prop where
  oneTest : s.activities ≤ 1
  counted : (s.numProbes : Int) - s.circuitFailures ≤ MAX_TESTS
  ended : s.begun = s.ended.length + if s.testsStarted then 1 else 0
  alive : s.testsStarted = true → s.interrupted = false → s.activities = 1
  quiet : s.strayProbes = 0
  unmapped : s.stopped = true → s.mapped = false
  renewed : s.owed = true → s.upnpRequests = 1

/-- A probe that is due would be launched. -/
def Launches (env : ProbeContext) (s : ForwardedPort) : Prop :=
  env.externalIp = true ∧ env.ready = true ∧ (findCircuit env s).circ ≠ none

instance (env : ProbeContext) (s : ForwardedPort) : Decidable (Launches env s) := inferInstanceAs (Decidable (_ ∧ _))

/-- The UPnP attempt of a start that is to lead to a test does not end while another test is under way,
and there is a test for the port. -/
def Renews (config : PortConfig) (s : ForwardedPort) : Prop :=
  (s.owed = true → s.testsStarted = false) ∧
    (s.stopped = false → s.testsStarted = false → config.portTestType.Known)

instance (config : PortConfig) (s : ForwardedPort) : Decidable (Renews config s) := inferInstanceAs (Decidable (_ ∧ _))

/-- Nothing that was running when the port was stopped makes a mapping or comes to a probe before the
next start, and a mapping that was made is still known as such when the port is stopped. -/
def Settled (config : PortConfig) (s : ForwardedPort) : Event → Prop
  | .start | .probeMade | .probeFailed _ => True
  | .stop => s.mapped = true → s.usedUPNP = true
  | .upnpSucceeded => s.stopped = false ∧ Renews config s
  | .upnpFailed _ => Renews config s
  | .serverTestDone isReachable env =>
    s.stopped = true → isReachable = none → config.trafficType = .tcp → ¬Launches env (resetTest s)
  | .timer _ env => s.stopped = true → ¬Launches env s

instance (config : PortConfig) (s : ForwardedPort) : ∀ e, Decidable (Settled config s e)
  | .start | .probeMade | .probeFailed _ => isTrue trivial
  | .stop => inferInstanceAs (Decidable (_ → _))
  | .upnpSucceeded => inferInstanceAs (Decidable (_ ∧ _))
  | .upnpFailed _ => inferInstanceAs (Decidable (Renews config s))
  | .serverTestDone _ _ => inferInstanceAs (Decidable (_ → _ → _ → _))
  | .timer _ _ => inferInstanceAs (Decidable (_ → _))

/-! ### What holds in any case -/

variable {config : PortConfig} {env : ProbeContext} {s t : ForwardedPort}

/-- How the flags stand to what goes on. -/
structure Sane (s : ForwardedPort) : Prop where
  requests : s.upnpRequests = if s.startedUPNP then 1 else 0
  activities : s.activities ≤ if s.testsStarted then 1 else 0
  running : s.probes = if s.probeRunning then 1 else 0
  circuit : s.probeRunning = true → s.circ ≠ none
  handle : ∀ k ∈ s.timers, s.nextScheduledTest = some k
  pending : s.probes + s.timers.length = 1 → s.reachable = some false
  probing : s.numProbes ≤ MAX_TESTS + s.circuitFailures
  waiting : s.timers.length = 1 → s.numProbes < MAX_TESTS + s.circuitFailures
  ended : s.begun = s.ended.length + if s.testsStarted then 1 else 0

/-- The part of the claim that depends on when operations end. -/
structure Timely (s : ForwardedPort) : Prop where
  alive : s.testsStarted = true → s.interrupted = false → s.activities = 1
  quiet : s.strayProbes = 0
  unmapped : s.stopped = true → s.mapped = false
  renewed : s.owed = true → s.upnpRequests = 1

theorem lifecycle_of (hs : Sane s) (ht : Timely s) : Lifecycle s := by
  refine ⟨?_, ?_, hs.ended, ht.alive, ht.quiet, ht.unmapped, ht.renewed⟩
  · have hle := hs.activities
    split at hle <;> omega
  · have hle := hs.probing
    omega

theorem Lifecycle.timely (h : Lifecycle s) : Timely s := ⟨h.alive, h.quiet, h.unmapped, h.renewed⟩

theorem sane_init : Sane init := by
  constructor <;> simp [init, ForwardedPort.activities]

theorem timely_init : Timely init := by
  constructor <;> simp [init]

/-! ### Probes -/

theorem findCircuit_eq (env : ProbeContext) (s : ForwardedPort) :
    ∃ circ ignoreExits, findCircuit env s = { s with circ, ignoreExits } := by
  unfold findCircuit
  dsimp only
  split
  · split
    · exact ⟨_, _, rfl⟩
    · exact ⟨_, s.ignoreExits, rfl⟩
  · split
    · exact ⟨_, _, rfl⟩
    · exact ⟨s.circ, s.ignoreExits, rfl⟩

/-- A test that is waiting launches a probe or waits for the next time. -/
theorem startProbe_cases (env : ProbeContext) (hrunning : s.probeRunning = false) (hstarted : s.testsStarted = true)
    (hreachable : s.reachable = some false) :
    ∃ circ ignoreExits,
      Launches env s ∧ circ ≠ none ∧
          startProbe env s =
            handleLaunch { s with circ, ignoreExits, probeRunning := true, numProbes := s.numProbes + 1 } ∨
        ¬Launches env s ∧ startProbe env s = scheduleNextTest { s with circ, ignoreExits } := by
  obtain ⟨circ, ignoreExits, hfind⟩ := findCircuit_eq env s
  have hdue : s.probeRunning = false ∧ s.testsStarted = true ∧ s.reachable ≠ some true := by
    rw [hreachable]
    exact ⟨hrunning, hstarted, by simp⟩
  unfold startProbe Launches
  rw [if_pos hdue]
  cases hip : env.externalIp with
  | false => exact ⟨s.circ, s.ignoreExits, Or.inr ⟨by simp, rfl⟩⟩
  | true =>
    cases hready : env.ready with
    | false => exact ⟨s.circ, s.ignoreExits, Or.inr ⟨by simp, rfl⟩⟩
    | true =>
      refine ⟨circ, ignoreExits, ?_⟩
      dsimp only
      rw [hfind]
      by_cases hcirc : circ = none
      · exact Or.inr ⟨by simp [hcirc], by rw [if_pos hcirc]; rfl⟩
      · exact Or.inl ⟨by simp [hcirc], hcirc, by rw [if_neg hcirc]; rfl⟩

theorem circ_findCircuit (env : ProbeContext) (s : ForwardedPort) : (findCircuit env s).circ =
    let first := if s.circ = none ∨ env.circuitDone = true then env.buildCircuit s.ignoreExits else s.circ
    if first = none then env.buildCircuit [] else first := by
  unfold findCircuit
  by_cases hfind : s.circ = none ∨ env.circuitDone = true
  · simp only [if_pos hfind]
    split <;> rfl
  · simp only [if_neg hfind]
    split <;> rfl

theorem launches_congr (hcirc : s.circ = t.circ) (hexits : s.ignoreExits = t.ignoreExits) :
    Launches env s ↔ Launches env t := by
  unfold Launches
  rw [circ_findCircuit, circ_findCircuit, hcirc, hexits]

/-- A test of which nothing is under way, as at the end of each of its operations. -/
structure Free (s : ForwardedPort) : Prop where
  requests : s.upnpRequests = if s.startedUPNP then 1 else 0
  idle : s.activities = 0
  started : s.testsStarted = true
  probing : s.numProbes ≤ MAX_TESTS + s.circuitFailures
  ended : s.begun = s.ended.length + 1
  quiet : s.strayProbes = 0
  unmapped : s.stopped = true → s.mapped = false
  renewed : s.owed = true → s.upnpRequests = 1

theorem Free.none (h : Free s) : s.serverTests = 0 ∧ s.probes = 0 ∧ s.timers = [] := by
  have hidle := h.idle
  unfold ForwardedPort.activities at hidle
  exact ⟨by omega, by omega, List.length_eq_zero_iff.mp (by omega)⟩

theorem free_of {serverTests probes : Nat} {timers : List Nat} (hs : Sane s) (ht : Timely s) (hbusy : 0 < s.activities)
    (hidle : ForwardedPort.activities { s with serverTests, probes, timers } = 0) :
    Free { s with serverTests, probes, timers } := by
  have hactivities := hs.activities
  have hended := hs.ended
  by_cases hstarted : s.testsStarted = true
  · rw [if_pos hstarted] at hended
    exact ⟨hs.requests, hidle, hstarted, hs.probing, hended, ht.quiet, ht.unmapped, ht.renewed⟩
  · rw [if_neg hstarted] at hactivities
    omega

/-- A test that comes to its next probe. -/
structure Due (s : ForwardedPort) : Prop where
  free : Free s
  running : s.probeRunning = false
  reachable : s.reachable = some false
  room : s.numProbes < MAX_TESTS + s.circuitFailures

theorem sane_scheduleNextTest (h : Due s) : Sane (scheduleNextTest s) ∧ (scheduleNextTest s).activities = 1 := by
  obtain ⟨htests, hprobes, htimers⟩ := h.free.none
  have hactivities : (scheduleNextTest s).activities = 1 := by
    simp [scheduleNextTest, ForwardedPort.activities, htests, hprobes, htimers]
  refine ⟨⟨h.free.requests, ?_, ?_, ?_, ?_, ?_, Nat.le_of_lt h.room, fun _ => h.room, ?_⟩, hactivities⟩
  · rw [hactivities]
    simp [scheduleNextTest, h.free.started]
  · simp [scheduleNextTest, h.running, hprobes]
  · simp [scheduleNextTest, h.running]
  · intro k hk
    simp only [scheduleNextTest, htimers, List.nil_append, List.mem_singleton] at hk
    rw [hk]
    rfl
  · exact fun _ => h.reachable
  · simp [scheduleNextTest, h.free.started, h.free.ended]

theorem sane_handleLaunch {circ : Option Nat} (ignoreExits : List Nat) (h : Due s) (hcirc : circ ≠ none) :
    Sane (handleLaunch { s with circ, ignoreExits, probeRunning := true, numProbes := s.numProbes + 1 }) ∧
      (handleLaunch { s with circ, ignoreExits, probeRunning := true, numProbes := s.numProbes + 1 }).activities = 1 := by
  obtain ⟨htests, hprobes, htimers⟩ := h.free.none
  have hroom := h.room
  have hactivities : (handleLaunch { s with
      circ, ignoreExits, probeRunning := true, numProbes := s.numProbes + 1 }).activities = 1 := by
    simp [handleLaunch, ForwardedPort.activities, htests, hprobes, htimers]
  refine ⟨⟨h.free.requests, ?_, ?_, fun _ => hcirc, ?_, fun _ => h.reachable, ?_, ?_, ?_⟩, hactivities⟩
  · rw [hactivities]
    simp [handleLaunch, h.free.started]
  · simp [handleLaunch, hprobes]
  · intro k hk
    simp [handleLaunch, htimers] at hk
  · simp only [handleLaunch]
    omega
  · simp [handleLaunch, htimers]
  · simp [handleLaunch, h.free.started, h.free.ended]

/-- The parts of the state that a probe leaves alone. -/
structure Continues (env : ProbeContext) (s t : ForwardedPort) : Prop where
  sane : Sane t
  activities : t.activities = 1
  stopped : t.stopped = s.stopped
  mapped : t.mapped = s.mapped
  owed : t.owed = s.owed
  upnpRequests : t.upnpRequests = s.upnpRequests
  stray : Launches env s ∧ s.stopped = true ∧ t.strayProbes = s.strayProbes + 1 ∨
    (s.stopped = true → ¬Launches env s) ∧ t.strayProbes = s.strayProbes

theorem startProbe_continues (env : ProbeContext) (h : Due s) : Continues env s (startProbe env s) := by
  obtain ⟨circ, ignoreExits, hcase⟩ := startProbe_cases env h.running h.free.started h.reachable
  rcases hcase with ⟨hlaunches, hcirc, heq⟩ | ⟨hnot, heq⟩
  · rw [heq]
    obtain ⟨hsane, hactivities⟩ := sane_handleLaunch ignoreExits h hcirc
    refine ⟨hsane, hactivities, rfl, rfl, rfl, rfl, ?_⟩
    cases hstopped : s.stopped with
    | true => exact Or.inl ⟨hlaunches, rfl, by simp [handleLaunch]⟩
    | false => exact Or.inr ⟨by simp, by simp [handleLaunch]⟩
  · rw [heq]
    have hdue : Due { s with circ, ignoreExits } :=
      ⟨⟨h.free.requests, h.free.idle, h.free.started, h.free.probing, h.free.ended, h.free.quiet, h.free.unmapped,
        h.free.renewed⟩, h.running, h.reachable, h.room⟩
    obtain ⟨hsane, hactivities⟩ := sane_scheduleNextTest hdue
    exact ⟨hsane, hactivities, rfl, rfl, rfl, rfl, Or.inr ⟨fun _ => hnot, rfl⟩⟩

/-- A probe that is due keeps the claim exactly when it is not launched on a stopped port. -/
theorem Continues.timely_iff (h : Continues env s t) (hs : Free s) :
    Timely t ↔ (s.stopped = true → ¬Launches env s) := by
  constructor
  · intro ht
    rcases h.stray with ⟨-, -, hcount⟩ | ⟨hnot, -⟩
    · have hzero := ht.quiet
      have hzero' := hs.quiet
      omega
    · exact hnot
  · intro hnot
    refine ⟨fun _ _ => h.activities, ?_, ?_, ?_⟩
    · rcases h.stray with ⟨hlaunches, hstopped, -⟩ | ⟨-, hcount⟩
      · exact absurd hlaunches (hnot hstopped)
      · exact hcount.trans hs.quiet
    · rw [h.stopped, h.mapped]
      exact hs.unmapped
    · rw [h.owed, h.upnpRequests]
      exact hs.renewed

/-! ### The end of a test -/

theorem onTestDone_spec {reachable : Option Bool} {reachableState : PortState} {e : PortEvent} (h : Free s) :
    Sane { onTestDone { s with reachable } with reachableState, ended := s.ended ++ [e] } ∧
      Timely { onTestDone { s with reachable } with reachableState, ended := s.ended ++ [e] } := by
  obtain ⟨htests, hprobes, htimers⟩ := h.none
  refine ⟨⟨h.requests, ?_, ?_, ?_, ?_, ?_, h.probing, ?_, ?_⟩, fun hstarted => (by cases hstarted), h.quiet, h.unmapped,
    h.renewed⟩
  · simp [onTestDone, ForwardedPort.activities, htests, hprobes, htimers]
  · simp [onTestDone, hprobes]
  · simp [onTestDone]
  · simp [onTestDone, htimers]
  · simp [onTestDone, htimers, hprobes]
  · simp [onTestDone, htimers]
  · simp [onTestDone, h.ended]

/-! ### The end of a UPnP attempt -/

/-- What a call of `start_test` leads to. -/
structure Tested (config : PortConfig) (s t : ForwardedPort) : Prop where
  sane : Sane t
  started : t.testsStarted = true
  stopped : t.stopped = s.stopped
  stray : t.strayProbes = s.strayProbes
  mapped : t.mapped = s.mapped
  requests : t.upnpRequests = s.upnpRequests
  goesOn : s.testsStarted = true → t.interrupted = s.interrupted ∧ t.owed = s.owed ∧ t.activities = s.activities
  begins : s.testsStarted = false → t.interrupted = s.stopped ∧ t.owed = false ∧
    (t.activities = 1 ↔ config.portTestType.Known)

theorem startTest_tested (config : PortConfig) (hs : Sane s) : Tested config s (startTest config s) := by
  by_cases hstarted : s.testsStarted = true
  · have heq : startTest config s = s := by simp [startTest, hstarted]
    rw [heq]
    exact ⟨hs, hstarted, rfl, rfl, rfl, rfl, fun _ => ⟨rfl, rfl, rfl⟩, fun h => by simp [hstarted] at h⟩
  · have hidle : s.activities = 0 := by
      have hle := hs.activities
      rw [if_neg hstarted] at hle
      omega
    have hended : s.begun = s.ended.length := by
      have heq := hs.ended
      rwa [if_neg hstarted] at heq
    unfold ForwardedPort.activities at hidle
    unfold startTest
    rw [if_pos (by simpa using hstarted)]
    dsimp only
    by_cases hknown : config.portTestType.Known
    · rw [if_pos hknown]
      refine ⟨⟨hs.requests, ?_, hs.running, hs.circuit, hs.handle, hs.pending, hs.probing, hs.waiting, ?_⟩,
        rfl, rfl, rfl, rfl, rfl, fun h => absurd h hstarted, fun _ => ⟨rfl, rfl, ?_⟩⟩
      · simp only [ForwardedPort.activities, if_true]
        omega
      · simp [hended]
      · refine iff_of_true ?_ hknown
        simp only [ForwardedPort.activities]
        omega
    · rw [if_neg hknown]
      refine ⟨⟨hs.requests, ?_, hs.running, hs.circuit, hs.handle, hs.pending, hs.probing, hs.waiting, ?_⟩,
        rfl, rfl, rfl, rfl, rfl, fun h => absurd h hstarted, fun _ => ⟨rfl, rfl, ?_⟩⟩
      · simp only [ForwardedPort.activities, if_true]
        omega
      · simp [hended]
      · refine iff_of_false ?_ hknown
        simp only [ForwardedPort.activities]
        omega

theorem sane_upnpEnded (hs : Sane s) (hone : 0 < s.upnpRequests) :
    Sane { s with upnpRequests := s.upnpRequests - 1, startedUPNP := false } ∧ s.upnpRequests = 1 := by
  have hrequests : s.upnpRequests = 1 := by
    have heq := hs.requests
    split at heq <;> omega
  refine ⟨⟨?_, hs.activities, hs.running, hs.circuit, hs.handle, hs.pending, hs.probing, hs.waiting, hs.ended⟩, hrequests⟩
  simp [hrequests]

/-- The end of a UPnP attempt leads to a test, as far as the condition says. -/
theorem Tested.timely_iff (h : Tested config { s with upnpRequests := s.upnpRequests - 1, startedUPNP := false } t)
    (hs : Timely s) (hone : s.upnpRequests = 1) {mapped : Bool} {usedUPNP : Bool} {upnpState : PortState} :
    Timely { t with mapped, usedUPNP, upnpState } ↔ (s.stopped = true → mapped = false) ∧ Renews config s := by
  have hgoesOn := h.goesOn
  have hbegins := h.begins
  have hzero : t.upnpRequests = 0 := by rw [h.requests, hone]
  constructor
  · intro ht
    refine ⟨fun hstopped => ht.unmapped (h.stopped.trans hstopped), ?_, ?_⟩
    · intro howed
      by_contra hstarted
      obtain ⟨-, howed', -⟩ := hgoesOn (eq_true_of_ne_false hstarted)
      have hone' := ht.renewed (howed'.trans howed)
      have hzero' : t.upnpRequests = 1 := hone'
      omega
    · intro hstopped hstarted
      obtain ⟨hinterrupted, -, hknown⟩ := hbegins hstarted
      exact hknown.mp (ht.alive h.started (hinterrupted.trans hstopped))
  · rintro ⟨hmapped, howed, hknown⟩
    refine ⟨?_, ?_, ?_, ?_⟩
    · intro _ hinterrupted
      cases hstarted : s.testsStarted with
      | true =>
        obtain ⟨hsame, -, hactivities⟩ := hgoesOn hstarted
        exact hactivities.trans (hs.alive hstarted (hsame.symm.trans hinterrupted))
      | false =>
        obtain ⟨hsame, -, hactivities⟩ := hbegins hstarted
        exact hactivities.mpr (hknown (hsame.symm.trans hinterrupted) hstarted)
    · exact h.stray.trans hs.quiet
    · exact fun hstopped => hmapped (h.stopped.symm.trans hstopped)
    · intro howed'
      cases hstarted : s.testsStarted with
      | true =>
        obtain ⟨-, hsame, -⟩ := hgoesOn hstarted
        have hfalse := howed (hsame.symm.trans howed')
        rw [hstarted] at hfalse
        cases hfalse
      | false =>
        obtain ⟨-, hnot, -⟩ := hbegins hstarted
        cases hnot.symm.trans howed'

/-- What only UPnP reads is of no account to the test. -/
theorem sane_upnp {mapped : Bool} {usedUPNP : Bool} {upnpState : PortState} (hs : Sane s) :
    Sane { s with mapped, usedUPNP, upnpState } :=
  ⟨hs.requests, hs.activities, hs.running, hs.circuit, hs.handle, hs.pending, hs.probing, hs.waiting, hs.ended⟩

/-! ### The events -/

theorem sane_start (hs : Sane s) : Sane (start s) := by
  unfold start startUpnp
  have hrequests := hs.requests
  cases hstarted : s.startedUPNP with
  | true =>
    rw [hstarted] at hrequests
    exact ⟨hrequests, hs.activities, hs.running, hs.circuit, hs.handle, hs.pending, hs.probing, hs.waiting, hs.ended⟩
  | false =>
    rw [hstarted] at hrequests
    exact ⟨by simp [hrequests], hs.activities, hs.running, hs.circuit, hs.handle, hs.pending, hs.probing, hs.waiting,
      hs.ended⟩

theorem upnpRequests_start (hs : Sane s) : (start s).upnpRequests = 1 := by
  have hrequests := hs.requests
  unfold start startUpnp
  cases hstarted : s.startedUPNP <;> simp [hrequests, hstarted]

theorem timely_start (hs : Sane s) (ht : Timely s) : Timely (start s) := by
  have hrequests := upnpRequests_start hs
  have hsame : (start s).testsStarted = s.testsStarted ∧ (start s).interrupted = s.interrupted ∧
      (start s).activities = s.activities ∧ (start s).strayProbes = s.strayProbes ∧ (start s).stopped = false := by
    unfold start startUpnp
    split <;> exact ⟨rfl, rfl, rfl, rfl, rfl⟩
  obtain ⟨hstarted, hinterrupted, hactivities, hstray, hstopped⟩ := hsame
  refine ⟨?_, ?_, ?_, fun _ => hrequests⟩
  · rw [hstarted, hinterrupted, hactivities]
    exact ht.alive
  · rw [hstray]
    exact ht.quiet
  · rw [hstopped]
    exact fun h => by cases h

/-- Stopping cancels the timer that there may be. -/
theorem stop_eq (hs : Sane s) : stop s = { s with
    mapped := s.mapped && !s.usedUPNP
    timers := []
    nextScheduledTest := none
    stopped := true
    interrupted := true
    owed := false } := by
  have htimers : (stopTest s).timers = [] := by
    have hactivities := hs.activities
    unfold ForwardedPort.activities at hactivities
    cases htimers : s.timers with
    | nil => cases hnext : s.nextScheduledTest <;> simp [stopTest, htimers, hnext]
    | cons k rest =>
      have hnext : s.nextScheduledTest = some k := hs.handle k (by simp [htimers])
      have hrest : rest = [] := by
        rw [htimers, List.length_cons] at hactivities
        apply List.length_eq_zero_iff.mp
        split at hactivities <;> omega
      simp [stopTest, htimers, hnext, hrest]
  have hupnp : stopUpnp s = { s with mapped := s.mapped && !s.usedUPNP } := by
    unfold stopUpnp
    by_cases hused : s.usedUPNP = true
    · have hnot : (s.mapped && !s.usedUPNP) = false := by simp [hused]
      rw [if_pos hused, hnot]
    · have hsame : (s.mapped && !s.usedUPNP) = s.mapped := by simp [hused]
      rw [if_neg hused, hsame]
  have hboth : stopTest { s with mapped := s.mapped && !s.usedUPNP } =
      { stopTest s with mapped := s.mapped && !s.usedUPNP } := rfl
  rw [stop, hupnp, hboth]
  simp only [htimers]
  rfl

theorem stop_spec (hs : Sane s) (ht : Timely s) :
    Sane (stop s) ∧ (Timely (stop s) ↔ (s.mapped = true → s.usedUPNP = true)) := by
  have hactivities := hs.activities
  have hpending := hs.pending
  unfold ForwardedPort.activities at hactivities
  rw [stop_eq hs]
  refine ⟨⟨hs.requests, ?_, hs.running, hs.circuit, fun k hk => (by cases hk), fun hone => ?_, hs.probing,
    fun h => (by cases h), hs.ended⟩, ?_⟩
  · simp only [ForwardedPort.activities, List.length_nil]
    omega
  · apply hpending
    simp only [List.length_nil] at hone
    split at hactivities <;> omega
  · constructor
    · intro ht' hmade
      have hnot := ht'.unmapped rfl
      simpa [hmade] using hnot
    · intro hused
      refine ⟨fun _ h => (by cases h), ht.quiet, fun _ => ?_, fun h => (by cases h)⟩
      cases hmade : s.mapped with
      | false => rfl
      | true => simp [hused hmade]

theorem serverTestDone_spec (hs : Sane s) (ht : Timely s) (hone : 0 < s.serverTests) (isReachable : Option Bool)
    (env : ProbeContext) :
    Sane (onServerTestDone config env isReachable { s with serverTests := s.serverTests - 1 }) ∧
      (Timely (onServerTestDone config env isReachable { s with serverTests := s.serverTests - 1 }) ↔
        Settled config s (.serverTestDone isReachable env)) := by
  have hactivities := hs.activities
  unfold ForwardedPort.activities at hactivities
  have hfree : Free { s with serverTests := s.serverTests - 1 } := by
    apply free_of hs ht
    · unfold ForwardedPort.activities
      omega
    · simp only [ForwardedPort.activities]
      split at hactivities <;> omega
  cases isReachable with
  | some answer =>
    have hsettled : Settled config s (.serverTestDone (some answer) env) := fun _ h => by cases h
    cases answer with
    | true => exact ⟨(onTestDone_spec hfree).1, iff_of_true (onTestDone_spec hfree).2 hsettled⟩
    | false => exact ⟨(onTestDone_spec hfree).1, iff_of_true (onTestDone_spec hfree).2 hsettled⟩
  | none =>
    simp only [onServerTestDone]
    by_cases htcp : config.trafficType = .tcp
    · rw [if_pos htcp]
      have hdue : Due (resetTest { s with serverTests := s.serverTests - 1 }) := by
        have hrunning := hs.running
        have hprobes : s.probes = 0 := hfree.none.2.1
        refine ⟨⟨hfree.requests, hfree.idle, hfree.started, Nat.zero_le _, hfree.ended, hfree.quiet, hfree.unmapped,
          hfree.renewed⟩, ?_, rfl, Nat.zero_lt_succ _⟩
        rw [hprobes] at hrunning
        simpa [resetTest] using hrunning
      have hcontinues := startProbe_continues env hdue
      refine ⟨hcontinues.sane, (hcontinues.timely_iff hdue.free).trans ?_⟩
      simp only [Settled, htcp]
      rw [launches_congr (s := resetTest { s with serverTests := s.serverTests - 1 }) (t := resetTest s) rfl rfl]
      simp [resetTest]
    · rw [if_neg htcp]
      exact ⟨(onTestDone_spec hfree).1, iff_of_true (onTestDone_spec hfree).2 fun _ _ h => absurd h htcp⟩

theorem free_probe (hs : Sane s) (ht : Timely s) (hone : 0 < s.probes) : Free { s with probes := s.probes - 1 } := by
  have hactivities := hs.activities
  unfold ForwardedPort.activities at hactivities
  apply free_of hs ht
  · unfold ForwardedPort.activities
    omega
  · simp only [ForwardedPort.activities]
    split at hactivities <;> omega

theorem probeMade_spec (hs : Sane s) (ht : Timely s) (hone : 0 < s.probes) :
    Sane (onReachable { s with probes := s.probes - 1 }) ∧ Timely (onReachable { s with probes := s.probes - 1 }) :=
  onTestDone_spec (free_probe hs ht hone)

/-- A test goes on by a timer, or ends when no probe is left. -/
theorem retry_spec (h : Free s) (hrunning : s.probeRunning = false) (hreachable : s.reachable = some false) :
    Sane (if (s.numProbes : Int) - s.circuitFailures < MAX_TESTS then scheduleNextTest s
        else onUnreachable (some false) s) ∧
      Timely (if (s.numProbes : Int) - s.circuitFailures < MAX_TESTS then scheduleNextTest s
        else onUnreachable (some false) s) := by
  split
  · obtain ⟨hsane, hactivities⟩ := sane_scheduleNextTest ⟨h, hrunning, hreachable, by omega⟩
    exact ⟨hsane, fun _ _ => hactivities, h.quiet, h.unmapped, h.renewed⟩
  · exact onTestDone_spec h

theorem probeFailed_spec (hs : Sane s) (ht : Timely s) (hone : 0 < s.probes) (built : Bool) :
    Sane (connectionFailed built { s with probes := s.probes - 1 }) ∧
      Timely (connectionFailed built { s with probes := s.probes - 1 }) := by
  have hactivities := hs.activities
  have hrunning := hs.running
  have hprobing := hs.probing
  unfold ForwardedPort.activities at hactivities
  have hfree := free_probe hs ht hone
  obtain ⟨-, -, htimers⟩ := hfree.none
  have hreachable : s.reachable = some false := by
    apply hs.pending
    split at hactivities <;> omega
  have hprobeRunning : s.probeRunning = true := by
    by_contra hnot
    rw [if_neg hnot] at hrunning
    omega
  obtain ⟨exit, hcirc⟩ := Option.ne_none_iff_exists'.mp (hs.circuit hprobeRunning)
  have hinactive : ∀ k ∈ s.nextScheduledTest, k ∉ s.timers := by
    intro k _ hk
    rw [show s.timers = [] from htimers] at hk
    cases hk
  unfold connectionFailed
  simp only [hcirc]
  rw [if_pos hinactive]
  cases built with
  | true =>
    have hnext : Free { s with
        probes := s.probes - 1, probeRunning := false, ignoreExits := s.ignoreExits ++ [exit], circ := none } :=
      ⟨hfree.requests, hfree.idle, hfree.started, hprobing, hfree.ended, hfree.quiet, hfree.unmapped, hfree.renewed⟩
    exact retry_spec hnext rfl hreachable
  | false =>
    have hnext : Free { s with
        probes := s.probes - 1, probeRunning := false, ignoreExits := s.ignoreExits ++ [exit], circ := some exit
        circuitFailures := s.circuitFailures + 1 } :=
      ⟨hfree.requests, hfree.idle, hfree.started, Nat.le_succ_of_le hprobing, hfree.ended, hfree.quiet,
        hfree.unmapped, hfree.renewed⟩
    exact retry_spec hnext rfl hreachable

theorem timer_spec (hs : Sane s) (ht : Timely s) {k : Nat} (hk : k ∈ s.timers) (env : ProbeContext) :
    Sane (startProbe env { s with timers := s.timers.erase k }) ∧
      (Timely (startProbe env { s with timers := s.timers.erase k }) ↔ Settled config s (.timer k env)) := by
  have hactivities := hs.activities
  unfold ForwardedPort.activities at hactivities
  have hpos : 0 < s.timers.length := List.length_pos_of_mem hk
  have hlength : s.timers.length = 1 := by split at hactivities <;> omega
  have hfree : Free { s with timers := s.timers.erase k } := by
    apply free_of hs ht
    · unfold ForwardedPort.activities
      omega
    · simp only [ForwardedPort.activities, List.length_erase_of_mem hk]
      split at hactivities <;> omega
  have hprobes : s.probes = 0 := hfree.none.2.1
  have hdue : Due { s with timers := s.timers.erase k } := by
    have hrunning := hs.running
    refine ⟨hfree, ?_, hs.pending (by omega), hs.waiting hlength⟩
    rw [hprobes] at hrunning
    simpa using hrunning
  have hcontinues := startProbe_continues env hdue
  refine ⟨hcontinues.sane, (hcontinues.timely_iff hfree).trans ?_⟩
  simp only [Settled]
  rw [launches_congr (s := { s with timers := s.timers.erase k }) (t := s) rfl rfl]

theorem step_spec {e : Event} (hs : Sane s) (ht : Timely s) (h : step config s e = some t) :
    Sane t ∧ (Timely t ↔ Settled config s e) := by
  cases e with
  | start =>
    cases h
    exact ⟨sane_start hs, iff_of_true (timely_start hs ht) trivial⟩
  | stop =>
    cases h
    exact stop_spec hs ht
  | upnpSucceeded =>
    obtain ⟨hone, h⟩ := Option.ite_none_right_eq_some.mp h
    cases h
    obtain ⟨hended, hrequests⟩ := sane_upnpEnded hs hone
    have htested := startTest_tested config hended
    refine ⟨?_, (htested.timely_iff ht hrequests).trans ?_⟩
    · exact sane_upnp htested.sane
    · simp [Settled]
  | upnpFailed failure =>
    obtain ⟨hone, h⟩ := Option.ite_none_right_eq_some.mp h
    cases h
    obtain ⟨hended, hrequests⟩ := sane_upnpEnded hs hone
    have htested := startTest_tested config hended
    have heq : upnpFailed config failure { s with upnpRequests := s.upnpRequests - 1 } =
        { startTest config { s with upnpRequests := s.upnpRequests - 1, startedUPNP := false } with
          usedUPNP := false, upnpState := .no } := by
      simp only [upnpFailed, onUpnpDone]
      split <;> rfl
    rw [heq]
    refine ⟨?_, (htested.timely_iff ht hrequests).trans ?_⟩
    · exact sane_upnp htested.sane
    · exact and_iff_right fun hstopped => htested.mapped.trans (ht.unmapped hstopped)
  | serverTestDone isReachable env =>
    obtain ⟨hone, h⟩ := Option.ite_none_right_eq_some.mp h
    cases h
    exact serverTestDone_spec hs ht hone isReachable env
  | probeMade =>
    obtain ⟨hone, h⟩ := Option.ite_none_right_eq_some.mp h
    cases h
    obtain ⟨hsane, htimely⟩ := probeMade_spec hs ht hone
    exact ⟨hsane, iff_of_true htimely trivial⟩
  | probeFailed built =>
    obtain ⟨hone, h⟩ := Option.ite_none_right_eq_some.mp h
    cases h
    obtain ⟨hsane, htimely⟩ := probeFailed_spec hs ht hone built
    exact ⟨hsane, iff_of_true htimely trivial⟩
  | timer k env =>
    obtain ⟨hk, h⟩ := Option.ite_none_right_eq_some.mp h
    cases h
    exact timer_spec hs ht hk env

/-- The claim holds in every state of a run exactly when nothing that was running when the port was
stopped makes a mapping or comes to a probe before the next start, the UPnP attempt of a start after
a stop does not end while a test is under way, the mapping is known as such when the port is stopped,
and there is a test for the port. -/
theorem port_forwarding_lifecycle (config : PortConfig) {es : List Event} {s : ForwardedPort}
    (h : Run (step config) (fun _ _ => True) init es s) :
    (∀ first t, first <+: es → Run (step config) (fun _ _ => True) init first t → Lifecycle t) ↔
      EachStep (step config) (Settled config) init es := by
  apply h.forall_prefix_iff (I := fun s => Sane s ∧ Timely s)
  · exact fun hs => lifecycle_of hs.1 hs.2
  · intro s t e hs hstep hsettled
    obtain ⟨hsane, hiff⟩ := step_spec hs.1 hs.2 hstep
    exact ⟨hsane, hiff.mpr hsettled⟩
  · intro s t e hs hstep hgood
    exact (step_spec hs.1 hs.2 hstep).2.mp hgood.timely
  · exact ⟨sane_init, timely_init⟩

/-- A TCP port that is bound elsewhere. -/
def exampleConfig : PortConfig where
  trafficType := .tcp
  isBound := true

/-- Everything is ready for a probe. -/
def readyContext : ProbeContext where
  externalIp := true
  ready := true
  circuitDone := false
  buildCircuit := fun _ => some 3

/-- BitBlinder is not ready yet. -/
def unreadyContext : ProbeContext where
  externalIp := true
  ready := false
  circuitDone := false
  buildCircuit := fun _ => some 3

/-- The second probe finds the port reachable, after which it is stopped and started again. -/
theorem port_forwarding_lifecycle_restart :
    ∃ s, Run (step exampleConfig) (fun _ _ => True) init [.start, .upnpSucceeded, .serverTestDone none unreadyContext,
        .timer 0 readyContext, .probeFailed true, .timer 1 readyContext, .probeMade, .stop, .start, .upnpFailed "",
        .serverTestDone (some false) readyContext] s ∧
      ∀ first t, first <+: [.start, .upnpSucceeded, .serverTestDone none unreadyContext, .timer 0 readyContext,
          .probeFailed true, .timer 1 readyContext, .probeMade, .stop, .start, .upnpFailed "",
          .serverTestDone (some false) readyContext] →
        Run (step exampleConfig) (fun _ _ => True) init first t → Lifecycle t := by
  have hend : (exec (step exampleConfig) init [.start, .upnpSucceeded, .serverTestDone none unreadyContext,
      .timer 0 readyContext, .probeFailed true, .timer 1 readyContext, .probeMade, .stop, .start, .upnpFailed "",
      .serverTestDone (some false) readyContext]).any (fun s => s.ended = [.reachable, .unreachable]) = true := by
    decide
  have hsettled : EachStep (step exampleConfig) (Settled exampleConfig) init [.start, .upnpSucceeded,
      .serverTestDone none unreadyContext, .timer 0 readyContext, .probeFailed true, .timer 1 readyContext, .probeMade,
      .stop, .start, .upnpFailed "", .serverTestDone (some false) readyContext] := by
    decide
  obtain ⟨s, hrun, -⟩ := exists_run hend (eachStep_true _ _)
  exact ⟨s, hrun, (port_forwarding_lifecycle exampleConfig hrun).mpr hsettled⟩

/-- A port that is stopped while its test waits for the next probe is never tested again: the test is
neither resumed nor replaced by the next start. -/
theorem stopped_test_is_never_resumed :
    ∃ s, Run (step exampleConfig) (fun _ _ => True) init [.start, .upnpFailed "", .serverTestDone none unreadyContext,
        .stop, .start, .upnpFailed ""] s ∧
      s.stopped = false ∧ s.owed = true ∧ s.testsStarted = true ∧ s.begun = 1 ∧ s.ended = [] ∧ s.upnpRequests = 0 ∧
      s.activities = 0 ∧ ¬Lifecycle s := by
  have hend : (exec (step exampleConfig) init [.start, .upnpFailed "", .serverTestDone none unreadyContext, .stop,
      .start, .upnpFailed ""]).any (fun s => decide (s.stopped = false ∧ s.owed = true ∧ s.testsStarted = true ∧
        s.begun = 1 ∧ s.ended = [] ∧ s.upnpRequests = 0 ∧ s.activities = 0)) = true := by
    decide
  obtain ⟨s, hrun, hdecide⟩ := exists_run hend (eachStep_true _ _)
  obtain ⟨hstopped, howed, hstarted, hbegun, hended, hrequests, hactivities⟩ := of_decide_eq_true hdecide
  refine ⟨s, hrun, hstopped, howed, hstarted, hbegun, hended, hrequests, hactivities, fun hgood => ?_⟩
  have hone := hgood.renewed howed
  rw [hrequests] at hone
  cases hone

end ForwardedPort

end BitBlinder.Client
