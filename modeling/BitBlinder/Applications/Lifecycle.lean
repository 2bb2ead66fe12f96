import BitBlinder.Runs
import BitBlinder.Callbacks
import Mathlib.Data.List.Basic

/-!
# Application lifecycle

`Application` with its deferreds. A request that comes in the middle of a transition is
parked as a callback of that transition's deferred. `requests`, `carriedOut` and `promised`
are a record of what was asked for, and no function reads them. The handlers of the events
that it triggers are not part of the model.
-/

namespace BitBlinder.Lifecycle

set_option autoImplicit false

inductive Failure where
  | failed
  | typeError
  | attributeError
  | alreadyCalledError

/-- The values are `True`, `False` and `None`. -/
abbrev Result : Type := Except Failure (Option Bool)

/-- Two callbacks that are added one behind the other, the second as an errback, are one here:
`stop_success` and `stop_failure`, and `_stop_when_started` twice. `fire` is `callback` and
`errback` of a deferred that is chained, and `resume` what hands on a result that was waited for. -/
inductive Callback where
  | stopDone
  | restart
  | start (restartDeferred : Nat)
  | stopWhenStarted (cancelDeferred : Nat)
  | fire (deferred : Nat)
  | resume (deferred : Nat)

/-- A process, and whether it has ended already. -/
structure Process where
  pid : Nat
  ended : Bool
  deriving DecidableEq

/-- What the overridden methods return at their `n`-th call: a deferred that has fired with a
result, or one that has not. A `launch` that raises ends like one that fails. -/
structure Subclass where
  launchDependencies : Nat → Option (Except Unit Unit)
  launch : Nat → Option (Except Unit (List Process))
  exit : Nat → Option (Except Unit Unit)

structure Application where
  heap : Deferreds Callback Result
  startupDeferred : Option Nat
  shutdownDeferred : Option Nat
  restartDeferred : Option Nat
  isRestarting : Bool
  processes : List Process
  /-- The startup waits for `launch`, and no longer for the dependencies. -/
  launching : Bool
  dependenciesCalls : Nat
  launchCalls : Nat
  exitCalls : Nat
  /-- A stop during a startup: the deferred of the startup and the one returned. -/
  requests : List (Nat × Nat)
  /-- Of these the ones for which `stop` was called again. -/
  carriedOut : List Nat
  /-- A start during a shutdown: the deferred of the shutdown and the one returned. -/
  promised : List (Nat × Nat)

inductive Action where
  | start
  | stop
  | restart
  | dependenciesDone (result : Except Unit Unit)
  | launchDone (result : Except Unit (List Process))
  | exitDone (result : Except Unit Unit)
  | processDone (p : Process)

namespace Application

def pending : Deferred Callback Result := ⟨0, .ok none, false, []⟩

/-- `defer.succeed(True)`. -/
def succeeded : Deferred Callback Result := ⟨1, .ok (some true), false, []⟩

def new : Application where
  heap := ⟨0, fun _ => pending, []⟩
  startupDeferred := none
  shutdownDeferred := none
  restartDeferred := none
  isRestarting := false
  processes := []
  launching := false
  dependenciesCalls := 0
  launchCalls := 0
  exitCalls := 0
  requests := []
  carriedOut := []
  promised := []

def isReady (s : Application) : Bool :=
  s.shutdownDeferred.isNone && s.startupDeferred.isNone && !s.processes.isEmpty

def isRunning (s : Application) : Bool :=
  s.startupDeferred.isSome || s.shutdownDeferred.isSome || s.isReady

/-- A process that has ended is removed again at once. -/
def addProcess (processes : List Process) (p : Process) : List Process :=
  if p ∈ processes ∨ p.ended then processes else processes ++ [p]

/-- Without a startup this raises, and `launch_failed` behind it does nothing. -/
def launchFinished (s : Application) (result : List Process) : Application :=
  match s.startupDeferred with
  | some d =>
    { s with
      startupDeferred := none
      processes := result.foldl addProcess []
      heap := s.heap.fire d (.ok (some true)) }
  | none => { s with processes := result.foldl addProcess [] }

def launchFailed (s : Application) : Application :=
  match s.startupDeferred with
  | some d => { s with startupDeferred := none, heap := s.heap.fire d (.ok (some false)) }
  | none => s

def launchResult (s : Application) : Except Unit (List Process) → Application
  | .ok result => s.launchFinished result
  | .error _ => s.launchFailed

def dependenciesDone (c : Subclass) (s : Application) : Application :=
  let t := { s with launchCalls := s.launchCalls + 1, launching := true }
  match c.launch s.launchCalls with
  | some result => t.launchResult result
  | none => t

def dependenciesResult (c : Subclass) (s : Application) : Except Unit Unit → Application
  | .ok _ => s.dependenciesDone c
  | .error _ => s.launchFailed

/-- `_start` without a deferred; when everything was there at once it returns no deferred. -/
def startUp (c : Subclass) (s : Application) : Application × Option Nat :=
  let t := { s with
    heap := s.heap.alloc pending
    restartDeferred := none
    startupDeferred := some s.heap.next
    launching := false
    dependenciesCalls := s.dependenciesCalls + 1 }
  let u := match c.launchDependencies s.dependenciesCalls with
    | some result => t.dependenciesResult c result
    | none => t
  (u, u.startupDeferred)

def succeed (s : Application) : Application × Option Nat :=
  ({ s with heap := s.heap.alloc succeeded }, some s.heap.next)

/-- The shutdown's callback will be `self._start(result, restartDeferred)`. -/
def startWhenStopped (s : Application) (d : Nat) : Application × Option Nat :=
  match s.restartDeferred with
  | some r => ({ s with promised := (d, r) :: s.promised }, some r)
  | none =>
    ({ s with
      heap := (s.heap.alloc pending).add d (.start s.heap.next)
      restartDeferred := some s.heap.next
      promised := (d, s.heap.next) :: s.promised }, some s.heap.next)

def start (c : Subclass) (s : Application) : Application × Option Nat :=
  let t := { s with isRestarting := false }
  if t.isReady then t.succeed
  else match t.startupDeferred with
    | some d => (t, some d)
    | none => match t.shutdownDeferred with
      | some d => t.startWhenStopped d
      | none => t.startUp c

def stopDone (s : Application) : Application := { s with shutdownDeferred := none }

/-- The part of `stop` for an application that is ready. An `exit` that has failed already leaves no
deferred to return. -/
def shutDown (c : Subclass) (s : Application) : Application × Option Nat :=
  let t := { s with exitCalls := s.exitCalls + 1 }
  match c.exit s.exitCalls with
  | none =>
    ({ t with
      heap := (t.heap.alloc pending).add t.heap.next .stopDone
      shutdownDeferred := some t.heap.next }, some t.heap.next)
  | some (.ok _) => t.stopDone.succeed
  | some (.error _) => (t.stopDone, none)

def stopLater (s : Application) (d : Nat) : Application × Option Nat :=
  ({ s with
    heap := (s.heap.alloc pending).add d (.stopWhenStarted s.heap.next)
    requests := (d, s.heap.next) :: s.requests }, some s.heap.next)

def stop (c : Subclass) (s : Application) : Application × Option Nat :=
  match s.shutdownDeferred with
  | some d => (s, some d)
  | none => match s.startupDeferred with
    | some d => s.stopLater d
    | none => if s.isReady then s.shutDown c else s.succeed

/-- Without a deferred from `stop` it raises. -/
def restart (c : Subclass) (s : Application) : Application :=
  let t := { s with isRestarting := true }
  if t.isRunning then
    match t.stop c with
    | (u, some d) =>
      let heap := u.heap.add d .restart
      { u with heap := if (heap.get d).calls = 0 then heap else heap.run d }
    | (u, none) => u
  else (t.start c).1

/-! ## Callbacks -/

def setResult (s : Application) (d : Nat) (r : Result) : Application := { s with heap := s.heap.setResult d r }

/-- `d` fires when `x` does, at once if `x` has. -/
def chainDeferred (s : Application) (x d : Nat) : Application :=
  if (s.heap.get x).calls = 0 then { s with heap := s.heap.add x (.fire d) }
  else { s with heap := s.heap.fire d (s.heap.get x).result }

/-- The callback of `d` has returned a deferred or `None`. -/
def returned (s : Application) (d : Nat) : Option Nat → Application
  | none => s.setResult d (.ok none)
  | some x =>
    if (s.heap.get x).calls = 0 ∨ (s.heap.get x).waiting then
      { s with heap := (s.heap.pause d).add x (.resume d) }
    else s.setResult d (s.heap.get x).result

/-- When the callback raises, the errback behind it does the same again. -/
def stopWhenStarted (c : Subclass) (s : Application) (d cancelDeferred : Nat) (retry : Bool) : Application :=
  match s.stop c with
  | (t, some x) => (t.chainDeferred x cancelDeferred).setResult d (.ok none)
  | (t, none) =>
    if retry then
      match t.stop c with
      | (u, some x) => (u.chainDeferred x cancelDeferred).setResult d (.ok none)
      | (u, none) => u.setResult d (.error .attributeError)
    else t.setResult d (.error .attributeError)

/-- A callback of `d` with the result so far. -/
def call (c : Subclass) (s : Application) (d : Nat) (result : Result) : Callback → Application
  | .stopDone =>
    match result with
    | .ok _ => s.stopDone
    | .error _ => s.stopDone.setResult d (.ok none)
  | .restart =>
    match result with
    | .ok _ => (s.start c).1.returned d (s.start c).2
    | .error _ => s
  | .start _ =>
    match result with
    -- `_start` takes one argument, and there are two
    | .ok _ => s.setResult d (.error .typeError)
    | .error _ => s
  | .stopWhenStarted cancelDeferred =>
    { s with carriedOut := cancelDeferred :: s.carriedOut }.stopWhenStarted c d cancelDeferred result.isOk
  | .fire x =>
    { s with heap := s.heap.fire x result }.setResult d
      (if (s.heap.get x).calls = 0 then .ok none else .error .alreadyCalledError)
  | .resume x => { s with heap := s.heap.resume x result }.setResult d (.ok none)

/-- The next callback of the deferred on top of the stack. -/
def tick (c : Subclass) (s : Application) : Application :=
  match s.heap.running with
  | [] => s
  | d :: rest =>
    match (s.heap.get d).callbacks with
    | [] => { s with heap := { s.heap with running := rest } }
    | callback :: _ => { s with heap := s.heap.advance d }.call c d (s.heap.get d).result callback

def ticks (c : Subclass) : Nat → Application → Application
  | 0, s => s
  | n + 1, s => s.tick c |>.ticks c n

/-- Enough for all callbacks that a call or a completion leads to. -/
def work (s : Application) : Nat := 2 * s.heap.total (fun _ => 1) s.heap.next + s.heap.running.length

def settle (c : Subclass) (s : Application) : Application := s.ticks c s.work

/-! ## Calls and completions -/

def exitDone (s : Application) (d : Nat) (result : Except Unit Unit) : Application :=
  { s with heap := s.heap.fire d (match result with
    | .ok _ => .ok (some true)
    | .error _ => .error .failed) }

/-- `_all_subprocesses_done` fires the shutdown's deferred. -/
def processDone (s : Application) (p : Process) : Application :=
  let t := { s with processes := s.processes.erase p }
  if t.processes.isEmpty then
    match t.shutdownDeferred with
    | some d => t.exitDone d (.ok ())
    | none => t
  else t

def act (c : Subclass) (s : Application) : Action → Option Application
  | .start => some (s.start c).1
  | .stop => some (s.stop c).1
  | .restart => some (s.restart c)
  | .dependenciesDone result =>
    if s.startupDeferred.isSome ∧ s.launching = false then some (s.dependenciesResult c result) else none
  | .launchDone result =>
    if s.startupDeferred.isSome ∧ s.launching = true then some (s.launchResult result) else none
  | .exitDone result => s.shutdownDeferred.map fun d => s.exitDone d result
  | .processDone p => if p ∈ s.processes then some (s.processDone p) else none

def step (c : Subclass) (s : Application) (a : Action) : Option Application := (s.act c a).map (settle c)

end Application

end BitBlinder.Lifecycle
