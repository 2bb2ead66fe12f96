import BitBlinder.Runs
import Mathlib.Logic.Function.Basic

/-!
# The circuits and streams of an application

`Circuit`, `Stream` and the parts of `SocksApplication` that join them. Circuits and
streams have the numbers in the order of their creation, a set of them is a list
without repetitions, and a circuit has no id until Tor tells it. Which circuit is the
best for a stream is not fixed: any usable one, or none. To close a stream or a
circuit at Tor sends a command, and what comes of it are the events. `waited` lists
the streams that were put on the pending streams of a circuit, and `settled` what
became of them there; no function reads these two.
-/

namespace BitBlinder.Tor.Socks

set_option autoImplicit false

inductive StreamStatus where
  | new | newresolve | remap | sentconnect | sentresolve | succeeded | failed | closed | detached
  deriving DecidableEq

/-- What Tor says in CIRC events. -/
inductive CircEvent where
  | launched | extended | built | failed | closed
  deriving DecidableEq

inductive CircStatus where
  | prelaunch | launched | extended | parSetup | built | failed | closed
  deriving DecidableEq

def CircEvent.status : CircEvent → CircStatus
  | launched => .launched
  | extended => .extended
  | built => .built
  | failed => .failed
  | closed => .closed

/-- `detachHandler` is the `handle_stream` of the application, or nothing. -/
structure Stream where
  status : StreamStatus
  circuit : Option Nat
  detachHandler : Bool
  handleAttempts : Nat

/-- `creating` says that EXTENDCIRCUIT was sent and has no reply yet. -/
structure Circuit where
  id : Option Nat
  isBitBlinderCircuit : Bool
  sendPayments : Bool
  status : CircStatus
  done : Bool
  succeeded : Bool
  parClient : Bool
  streams : List Nat
  pendingStreams : List Nat
  queuedDHTRequests : List Nat
  builtDeferred : Option Bool
  creating : Bool
  creationFailed : Bool

def Stream.isDone (stream : Stream) : Bool := stream.status = .closed

namespace Circuit

def isOpen (circ : Circuit) : Bool := !(circ.status = .closed || circ.status = .failed || circ.done)

def isDone (circ : Circuit) : Bool := !circ.isOpen

def isLaunching (circ : Circuit) : Bool := circ.status ∈ [.prelaunch, .launched, .extended, .parSetup]

def isReady (circ : Circuit) : Bool := circ.status = .built

def getBuiltDeferred (circ : Circuit) : Option Bool :=
  if circ.succeeded then some true else circ.builtDeferred

/-- A circuit of `create_circuit`. -/
def launch (sendPayments : Bool) : Circuit where
  id := none
  isBitBlinderCircuit := true
  sendPayments := sendPayments
  status := .prelaunch
  done := false
  succeeded := false
  parClient := false
  streams := []
  pendingStreams := []
  queuedDHTRequests := []
  builtDeferred := none
  creating := true
  creationFailed := false

/-- A circuit of another program, made when there is an event of it. -/
def observe (id : Nat) (event : CircEvent) : Circuit where
  id := some id
  isBitBlinderCircuit := false
  sendPayments := true
  status := event.status
  done := event = .closed ∨ event = .failed
  succeeded := false
  parClient := false
  streams := []
  pendingStreams := []
  queuedDHTRequests := []
  builtDeferred := none
  creating := false
  creationFailed := false

end Circuit

/-- How a stream stops waiting for a circuit. -/
inductive Outcome where
  | attached | detachHandler | closed
  deriving DecidableEq

structure SocksApplication where
  circuit : Nat → Circuit
  stream : Nat → Stream
  circuitCount : Nat
  streamCount : Nat
  circuits : List Nat
  liveCircuits : List Nat
  torReady : Bool
  waited : List (Nat × Nat)
  settled : List ((Nat × Nat) × Outcome)

namespace SocksApplication

def setCircuit (c : Nat) (f : Circuit → Circuit) (app : SocksApplication) : SocksApplication :=
  { app with circuit := Function.update app.circuit c (f (app.circuit c)) }

def setStream (x : Nat) (f : Stream → Stream) (app : SocksApplication) : SocksApplication :=
  { app with stream := Function.update app.stream x (f (app.stream x)) }

def settle (c x : Nat) (outcome : Outcome) (app : SocksApplication) : SocksApplication :=
  { app with settled := app.settled ++ [((c, x), outcome)] }

def getCircuit (id : Nat) (app : SocksApplication) : Option Nat :=
  app.circuits.find? fun c => (app.circuit c).id = some id

/-! ### Streams of a circuit -/

def addStream (c x : Nat) (app : SocksApplication) : SocksApplication :=
  app.setCircuit c fun circ => { circ with streams := circ.streams.insert x }

def addPending (c x : Nat) (app : SocksApplication) : SocksApplication :=
  let waited := if x ∈ (app.circuit c).pendingStreams then app.waited else app.waited ++ [(c, x)]
  { app.setCircuit c (fun circ => { circ with pendingStreams := circ.pendingStreams.insert x }) with waited }

def removeStream (c x : Nat) (outcome : Outcome) (app : SocksApplication) : SocksApplication :=
  if x ∈ (app.circuit c).streams then
    app.setCircuit c fun circ => { circ with streams := circ.streams.erase x }
  else if x ∈ (app.circuit c).pendingStreams then
    (app.setCircuit c fun circ => { circ with pendingStreams := circ.pendingStreams.erase x }).settle c x outcome
  else app

def numActiveStreams (c : Nat) (app : SocksApplication) : Nat :=
  (app.circuit c).pendingStreams.length +
    (app.circuit c).streams.countP fun x => (app.stream x).status ∉ [.closed, .failed, .detached]

def attach (c x : Nat) (app : SocksApplication) : SocksApplication × Bool :=
  if (app.stream x).isDone then (app, false)
  else if (app.circuit c).isDone then (app, false)
  else if !app.torReady then (app, false)
  else
    let app := if (app.circuit c).isReady then app.addStream c x else app.addPending c x
    (app.setStream x fun stream => { stream with circuit := some c }, true)

/-- A live circuit that accepts streams, if `best` is one. -/
def findOrBuildBestCircuit (best : Option Nat) (app : SocksApplication) : Option Nat :=
  best.filter fun c => c ∈ app.liveCircuits ∧ ((app.circuit c).isReady || (app.circuit c).isLaunching)

/-- Where it does not attach the stream, it closes it. -/
def handleStream (x : Nat) (best : Option Nat) (app : SocksApplication) : SocksApplication :=
  let app := app.setStream x fun stream => { stream with handleAttempts := stream.handleAttempts + 1 }
  if 2 < (app.stream x).handleAttempts then app
  else
    match app.findOrBuildBestCircuit best with
    | none => app
    | some c => (app.attach c x).1

/-- `Circuit.handle_stream`. -/
def circuitHandleStream (c x : Nat) (app : SocksApplication) : SocksApplication :=
  ((app.setStream x fun stream => { stream with detachHandler := false }).attach c x).1

/-! ### The end of a circuit -/

/-- What `on_done` does with a pending stream. -/
def leavePending (c : Nat) (best : List (Nat × Nat)) (app : SocksApplication) (x : Nat) : SocksApplication :=
  let app := app.setStream x fun stream => { stream with circuit := none }
  if (app.stream x).detachHandler then (app.settle c x .detachHandler).handleStream x (best.lookup x)
  else app.settle c x .closed

/-- `on_done` up to the pending streams. -/
def markDone (c : Nat) (app : SocksApplication) : SocksApplication :=
  { app.setCircuit c (fun circ => { circ with
      done := true
      status := if circ.status = .failed ∨ circ.status = .closed then circ.status else .closed }) with
    liveCircuits := app.liveCircuits.filter (· ≠ c) }

def onDone (c : Nat) (best : List (Nat × Nat)) (app : SocksApplication) : SocksApplication :=
  if (app.circuit c).done then app
  else
    let app := app.markDone c
    let app := (app.circuit c).pendingStreams.foldl (leavePending c best) app
    app.setCircuit c fun circ => { circ with pendingStreams := [] }

/-- `close`; the command to Tor has an effect only by its events. -/
def close (c : Nat) (best : List (Nat × Nat)) (app : SocksApplication) : SocksApplication := app.onDone c best

/-! ### The start of a circuit -/

def onLearnedId (c id : Nat) (best : List (Nat × Nat)) (app : SocksApplication) : SocksApplication :=
  let app := app.setCircuit c fun circ => { circ with id := some id }
  if (app.circuit c).done then (app.setCircuit c fun circ => { circ with done := false }).close c best
  else app.setCircuit c fun circ => { circ with parClient := true }

/-- What `on_par_ready` does with a pending stream. A stream that cannot be attached is dropped. -/
def attachPending (c : Nat) (app : SocksApplication) (x : Nat) : SocksApplication :=
  match app.attach c x with
  | (app, true) => app.settle c x .attached
  | (app, false) => if (app.stream x).isDone then app.settle c x .closed else app

def markReady (c : Nat) (app : SocksApplication) : SocksApplication :=
  app.setCircuit c fun circ => { circ with status := .built, succeeded := true }

/-- The requests that are queued are sent. -/
def onParReady (c : Nat) (app : SocksApplication) : SocksApplication :=
  let app := app.markReady c
  let app := (app.circuit c).pendingStreams.foldl (attachPending c) app
  app.setCircuit c fun circ => { circ with
    pendingStreams := []
    queuedDHTRequests := []
    builtDeferred := circ.builtDeferred.or (some true) }

/-! ### Events -/

def circStatusEvent (c : Nat) (event : CircEvent) (best : List (Nat × Nat)) (app : SocksApplication) :
    SocksApplication :=
  let app := app.setCircuit c fun circ => { circ with status := event.status }
  match event with
  | .launched | .extended => app
  | .closed | .failed => app.onDone c best
  | .built =>
    if (app.circuit c).isBitBlinderCircuit && (app.circuit c).sendPayments then
      let app := app.setCircuit c fun circ => { circ with status := .parSetup }
      -- `parClient.start` fails at once if Tor is not ready, and otherwise later, if ever.
      if app.torReady then app else app.onDone c best
    else app.onParReady c

/-- A stream leaves its circuit. -/
def leaveCircuit (x : Nat) (outcome : Outcome) (app : SocksApplication) : SocksApplication :=
  match (app.stream x).circuit with
  | none => app
  | some c => (app.removeStream c x outcome).setStream x fun stream => { stream with circuit := none }

/-- What `stream_status_event` does with the circuit id of the event, if there is one; without a
circuit for it, it does nothing else. -/
def takeCircuit (x : Nat) (circId : Option Nat) (app : SocksApplication) : SocksApplication × Bool :=
  match circId with
  | none => (app, true)
  | some id =>
    match app.getCircuit id with
    | none => (app.setStream x fun stream => { stream with circuit := none }, false)
    | some c => ((app.setStream x fun stream => { stream with circuit := some c }).addStream c x, true)

def streamStatusEvent (x : Nat) (status : StreamStatus) (circId best : Option Nat) (app : SocksApplication) :
    SocksApplication :=
  let app := app.setStream x fun stream => { stream with status := status }
  match app.takeCircuit x circId with
  | (app, false) => app
  | (app, true) =>
    match status with
    | .detached =>
      if (app.stream x).detachHandler then (app.leaveCircuit x .detachHandler).handleStream x best
      else app.leaveCircuit x .closed
    | .failed | .closed => app.leaveCircuit x .closed
    | _ => app

/-! ### Steps -/

end SocksApplication

inductive AppAction where
  | createCircuit (sendPayments : Bool)
  | creationSuccess (c id : Nat) (best : List (Nat × Nat))
  | creationFailure (c : Nat)
  | circEvent (id : Nat) (event : CircEvent) (best : List (Nat × Nat))
  | parReady (c : Nat)
  | parFailed (c : Nat) (best : List (Nat × Nat))
  | close (c : Nat) (best : List (Nat × Nat))
  | newStream (resolve detachHandler : Bool)
  | streamEvent (x : Nat) (status : StreamStatus) (circId best : Option Nat)
  | handleStream (x : Nat) (best : Option Nat)
  | circuitHandleStream (c x : Nat)
  | attach (c x : Nat)
  | sendDhtRequest (c request : Nat)
  | torReady (ready : Bool)

namespace SocksApplication

/-- A circuit that is made now. -/
def newCircuit (circ : Circuit) (app : SocksApplication) : SocksApplication :=
  { app.setCircuit app.circuitCount (fun _ => circ) with
    circuitCount := app.circuitCount + 1
    circuits := app.circuits ++ [app.circuitCount]
    liveCircuits := if circ.isOpen then app.liveCircuits ++ [app.circuitCount] else app.liveCircuits }

def step (app : SocksApplication) : AppAction → Option SocksApplication
  | .createCircuit sendPayments => some (app.newCircuit (.launch sendPayments))
  | .creationSuccess c id best =>
    if (app.circuit c).creating then
      some ((app.setCircuit c fun circ => { circ with creating := false }).onLearnedId c id best)
    else none
  | .creationFailure c =>
    if (app.circuit c).creating then
      some { app.setCircuit c (fun circ => { circ with creating := false, creationFailed := true }) with
        circuits := app.circuits.filter (· ≠ c)
        liveCircuits := app.liveCircuits.filter (· ≠ c) }
    else none
  | .circEvent id event best =>
    match app.getCircuit id with
    | none => some (app.newCircuit (.observe id event))
    | some c => some (app.circStatusEvent c event best)
  | .parReady c => if (app.circuit c).parClient then some (app.onParReady c) else none
  | .parFailed c best => if (app.circuit c).parClient then some (app.onDone c best) else none
  | .close c best => if c < app.circuitCount then some (app.close c best) else none
  | .newStream resolve detachHandler =>
    let status := if resolve then .newresolve else .new
    some { app.setStream app.streamCount (fun _ => { status, circuit := none, detachHandler, handleAttempts := 0 }) with
      streamCount := app.streamCount + 1 }
  | .streamEvent x status circId best =>
    if x < app.streamCount then some (app.streamStatusEvent x status circId best) else none
  | .handleStream x best => if x < app.streamCount then some (app.handleStream x best) else none
  | .circuitHandleStream c x =>
    if c < app.circuitCount ∧ x < app.streamCount then some (app.circuitHandleStream c x) else none
  | .attach c x => if c < app.circuitCount ∧ x < app.streamCount then some (app.attach c x).1 else none
  -- `DHTProxy` takes another circuit for its request when this one is done.
  | .sendDhtRequest c request =>
    if c < app.circuitCount ∧ (app.circuit c).isDone = false then
      some (if (app.circuit c).isReady then app
        else app.setCircuit c fun circ => { circ with queuedDHTRequests := circ.queuedDHTRequests ++ [request] })
    else none
  | .torReady ready => some { app with torReady := ready }

/-- No circuits and streams; those that are not made yet do not matter. -/
def initial : SocksApplication where
  circuit := fun _ => { Circuit.launch true with creating := false }
  stream := fun _ => { status := .new, circuit := none, detachHandler := false, handleAttempts := 0 }
  circuitCount := 0
  streamCount := 0
  circuits := []
  liveCircuits := []
  torReady := true
  waited := []
  settled := []

/-! ### What is where after a change -/

section
variable (c d x y : Nat) (f : Circuit → Circuit) (g : Stream → Stream) (outcome : Outcome) (app : SocksApplication)

theorem setCircuit_circuit :
    (app.setCircuit c f).circuit d = if d = c then f (app.circuit c) else app.circuit d := Function.update_apply ..

theorem setStream_stream :
    (app.setStream x g).stream y = if y = x then g (app.stream x) else app.stream y := Function.update_apply ..

@[simp] theorem setCircuit_circuit_self : (app.setCircuit c f).circuit c = f (app.circuit c) := Function.update_self ..

@[simp] theorem setStream_stream_self : (app.setStream x g).stream x = g (app.stream x) := Function.update_self ..

@[simp] theorem setCircuit_stream : (app.setCircuit c f).stream = app.stream := rfl

@[simp] theorem setCircuit_liveCircuits : (app.setCircuit c f).liveCircuits = app.liveCircuits := rfl

@[simp] theorem setCircuit_torReady : (app.setCircuit c f).torReady = app.torReady := rfl

@[simp] theorem setStream_circuit : (app.setStream x g).circuit = app.circuit := rfl

@[simp] theorem settle_circuit : (app.settle c x outcome).circuit = app.circuit := rfl

@[simp] theorem settle_stream : (app.settle c x outcome).stream = app.stream := rfl

end

end SocksApplication

end BitBlinder.Tor.Socks
