import BitBlinder.Runs
import BitBlinder.BitTorrent.RequestSequence
import Mathlib.Algebra.Order.Ring.Unbundled.Rat

/-!
# Announcing a torrent to its trackers

A `Rerequester` makes a request sequence whenever an event is to be announced, and
none while there is one. The sequences have the numbers in the order in which they
were made; those that were given up may still hear of their requests. `currentDeferred`
is `some true` when `_on_stopped` waits for it. `raised` lists the errors of the
callbacks, and no function reads it.
-/

namespace BitBlinder.BitTorrent

open Tiers

set_option autoImplicit false

structure TrackerConfig where
  minPeers : Nat
  rerequestInterval : Rat
  maxAnnounceRetryInterval : Rat

structure TorrentData where
  announceList : Option (List (List (List Char)))
  announce : List Char

/-- The event of an announcement, of which `update` is the empty one. -/
inductive Status where
  | update
  | started
  | completed
  | stopped
  deriving DecidableEq

/-- What an event meets with: whether announcing is possible, the outcomes of the requests to the
trackers that a cancelled sequence turns to, those of a new sequence, the time and `random.random()`. -/
structure Environment where
  canAnnounce : Bool
  cancelAnswers : List (Option String)
  answers : List (Option String)
  now : Rat
  random : Rat

structure Rerequester where
  announceList : List (List Tracker)
  sequences : Nat → RequestSequence
  count : Nat
  currentRequest : Option Nat
  currentStatus : Option Status
  currentDeferred : Option Bool
  updateEvent : Bool
  lastTime : Rat
  failWait : Option Rat
  interval : Rat
  errorMsg : Option String
  raised : List LookupError

namespace RequestSequence

/-- The first error of a tracker, or else the last warning. -/
def getErrorMessage (r : RequestSequence) : List ((Nat × Nat) × Tracker) → Option String → Except LookupError (Option String)
  | [], warning => .ok warning
  | (_, .url _) :: _, _ => .error .attributeError
  | (p, .connection _) :: rest, warning =>
    let t := r.tracker p
    if truthy t.trackerError then .ok t.trackerError
    else if truthy t.errorMsg then .ok t.errorMsg
    else r.getErrorMessage rest (if truthy t.trackerWarning then t.trackerWarning else warning)

def entries (r : RequestSequence) : List ((Nat × Nat) × Tracker) :=
  (positions r.announceList).filterMap fun p => (get? r.announceList p).map fun tracker => (p, tracker)

end RequestSequence

def isUdp (url : List Char) : Bool := (url.map Char.toLower).take 6 = ['u', 'd', 'p', ':', '/', '/']

def makeAnnounceTier (tier : List (List Char)) : List Tracker :=
  (tier.filter fun url => !isUdp url).map .connection

def extractTrackerList (torrentData : TorrentData) : List (List (List Char)) :=
  torrentData.announceList.getD [[torrentData.announce]]

/-- The loops over trackers read `baseURL`, which a string does not have. -/
def hasTrackerUrl (url : List Char) : List Tracker → Except LookupError Bool
  | [] => .ok false
  | .connection baseURL :: rest => if url = baseURL then .ok true else hasTrackerUrl url rest
  | .url _ :: _ => .error .attributeError

def hasNewTrackers (announceList : List (List Tracker)) : List (List Char) → Except LookupError Bool
  | [] => .ok false
  | url :: rest => do if ← hasTrackerUrl url announceList.flatten then hasNewTrackers announceList rest else .ok true

def trackerRemoved (urlList : List (List Char)) : List Tracker → Except LookupError Bool
  | [] => .ok false
  | .connection baseURL :: rest => if baseURL ∈ urlList then trackerRemoved urlList rest else .ok true
  | .url _ :: _ => .error .attributeError

def trackersRemoved (urlList : List (List Char)) : List (List Tracker) → Except LookupError Bool
  | [] => .ok false
  | tier :: rest => do
    let inTier ← trackerRemoved urlList tier
    let inRest ← trackersRemoved urlList rest
    .ok (inTier || inRest)

def newTrackers (tier : List Tracker) : List (List Char) → Except LookupError (List Tracker)
  | [] => .ok []
  | url :: rest => do
    let found ← hasTrackerUrl url tier
    let others ← newTrackers tier rest
    .ok (if found then others else .connection url :: others)

/-- Tier after tier, and what was added before an error stays. -/
def addTrackers : List (List (List Char)) → List (List Tracker) → List (List Tracker)
  | [], announceList => announceList
  | urls :: rest, announceList =>
    match newTrackers (announceList.headD []) urls with
    | .error _ => announceList
    | .ok trackers => (announceList.headD [] ++ trackers) :: addTrackers rest announceList.tail

namespace Rerequester

/-- Where no tier is left without the `udp` trackers, the list of the torrent is kept as it is. -/
def new (config : TrackerConfig) (torrentData : TorrentData) (shuffle : Nat → List Tracker → List Tracker) :
    Option Rerequester :=
  let announceList := extractTrackerList torrentData
  let shuffled := ((announceList.map makeAnnounceTier).filter fun tier => tier ≠ []).mapIdx shuffle
  let announceList := if shuffled = [] then announceList.map fun tier => tier.map .url else shuffled
  if announceList = [] then none
  else some {
    announceList := announceList
    sequences := fun _ => .new []
    count := 0
    currentRequest := none
    currentStatus := none
    currentDeferred := none
    updateEvent := false
    lastTime := 0
    failWait := none
    interval := config.rerequestInterval
    errorMsg := none
    raised := [] }

def setSequence (n : Nat) (r : RequestSequence) (s : Rerequester) : Rerequester :=
  { s with sequences := Function.update s.sequences n r }

def error (e : LookupError) (s : Rerequester) : Rerequester := { s with raised := s.raised ++ [e] }

/-- `_on_stopped` cancels the repeated update. -/
def fireDeferred (s : Rerequester) : Rerequester :=
  match s.currentDeferred with
  | none => s
  | some onStopped => { s with currentDeferred := none, updateEvent := s.updateEvent && !onStopped }

def onTrackerFailure (config : TrackerConfig) (cancelled : Bool) (n : Nat) (random : Rat) (s : Rerequester) : Rerequester :=
  let s := { s with currentRequest := none }
  if cancelled then s
  else
    let r := s.sequences n
    match r.getErrorMessage r.entries none with
    | .error e => s.error e
    | .ok msg =>
      let failWait := match s.failWait with
        | none => 5
        | some failWait => failWait * (14 / 10 + random * (2 / 10))
      { s with
        errorMsg := if truthy msg then msg else some "Failed to connect"
        failWait := some (min failWait config.maxAnnounceRetryInterval) }

/-- What it raises goes to `_on_tracker_failure`; connecting to the peers may be such a thing. -/
def onTrackerSuccess (config : TrackerConfig) (n : Nat) (connects : Bool) (now random : Rat) (s : Rerequester) :
    Rerequester :=
  let r := s.sequences n
  let s := { s with currentRequest := none }
  match get? s.announceList r.position with
  | none => (s.error .indexError).onTrackerFailure config false n random
  | some tmp =>
    let data := (r.tracker r.position).data
    let s := { s with
      announceList := s.announceList.modify r.tier fun tier => tmp :: tier.eraseIdx r.announceI
      currentStatus := some .update
      lastTime := now
      interval := ((data.bind Response.minInterval).orElse fun _ => data.bind Response.interval).getD s.interval
      failWait := none }
    match r.getErrorMessage r.entries none with
    | .error e => (s.error e).onTrackerFailure config false n random
    | .ok msg =>
      let s := { s with errorMsg := msg }
      if connects then s.fireDeferred else s.onTrackerFailure config false n random

/-- A sequence goes on, and its deferred calls back when it has fired. -/
def settle (config : TrackerConfig) (n : Nat) (r : RequestSequence) (connects : Bool) (env : Environment)
    (s : Rerequester) : Rerequester :=
  let results := r.fired.drop (s.sequences n).fired.length
  let s := s.setSequence n r
  if r.attached then
    match results with
    | [] => s
    | .success :: _ => s.onTrackerSuccess config n connects env.now env.random
    | .cancelled :: _ => s.onTrackerFailure config true n env.random
    | .exhausted :: _ => s.onTrackerFailure config false n env.random
  else s

/-- `_cancel_current_request`, and whether it raises. -/
def cancelCurrentRequest (config : TrackerConfig) (env : Environment) (s : Rerequester) : Rerequester × Bool :=
  match s.currentRequest with
  | none => (s.fireDeferred, false)
  | some n =>
    let (r, raises) := (s.sequences n).stop env.cancelAnswers
    let s := s.settle config n r false env
    if raises then (s, true) else ({ s with currentRequest := none }.fireDeferred, false)

/-- `_announce`, and whether it raises. The callbacks are added to the deferred that `start` returns. -/
def announce (env : Environment) (s : Rerequester) : Rerequester × Bool :=
  if env.canAnnounce then
    match s.currentRequest with
    | some _ => (s, true)
    | none =>
      let (r, raises) := (RequestSequence.new s.announceList).start env.answers
      let r := { r with attached := !raises && r.deferred }
      ({ s.setSequence s.count r with count := s.count + 1, currentRequest := some s.count }, raises)
  else (s, false)

def beginNewRequest (status : Status) (env : Environment) (s : Rerequester) : Rerequester × Bool :=
  { s with currentDeferred := some false, currentStatus := some status }.announce env

def start (config : TrackerConfig) (env : Environment) (s : Rerequester) : Rerequester :=
  match s.cancelCurrentRequest config env with
  | (s, true) => s
  | (s, false) => ({ s with updateEvent := true }.beginNewRequest .started env).1

def forceStop (config : TrackerConfig) (env : Environment) (s : Rerequester) : Rerequester :=
  (s.cancelCurrentRequest config env).1

def stop (config : TrackerConfig) (env : Environment) (s : Rerequester) : Rerequester :=
  match s.cancelCurrentRequest config env with
  | (s, true) => s
  | (s, false) =>
    if env.canAnnounce then
      match s.beginNewRequest .stopped env with
      | (s, true) => s
      | (s, false) => { s with currentDeferred := some true }
    else s

def finish (config : TrackerConfig) (env : Environment) (s : Rerequester) : Rerequester :=
  match s.cancelCurrentRequest config env with
  | (s, true) => s
  | (s, false) => (s.beginNewRequest .completed env).1

/-- Whether there are new trackers, and whether some were removed. -/
def changes (urlList : List (List Char)) (s : Rerequester) : Except LookupError (Bool × Bool) := do
  let hasNew ← hasNewTrackers s.announceList urlList
  let removed ← trackersRemoved urlList s.announceList
  .ok (hasNew, removed)

def setTrackers (config : TrackerConfig) (urlList : List (List Char)) (env : Environment) (s : Rerequester) : Rerequester :=
  match s.changes urlList with
  | .error _ | .ok (false, false) => s
  | .ok (hasNew, _) =>
    match s.cancelCurrentRequest config env with
    | (s, true) => s
    | (s, false) =>
      let s := { s with announceList := [makeAnnounceTier urlList] }
      if hasNew then { s with currentStatus := none }.start config env else s

def update (force : Bool) (env : Environment) (s : Rerequester) : Rerequester :=
  if force ∧ s.currentRequest = none then (s.announce env).1 else s

def shouldAnnounce (config : TrackerConfig) (howmany : Nat) (now : Rat) (s : Rerequester) : Bool :=
  let failWait := s.failWait.getD 0
  s.currentRequest = none && !(failWait ≠ 0 && now < s.lastTime + failWait) &&
    !(s.currentStatus = some .update && (now < s.lastTime + s.interval || config.minPeers < howmany))

def onUpdate (config : TrackerConfig) (howmany : Nat) (env : Environment) (s : Rerequester) : Rerequester :=
  if s.shouldAnnounce config howmany env.now then (s.announce env).1 else s

end Rerequester

inductive TrackerAction where
  | start (env : Environment)
  | forceStop (env : Environment)
  | stop (env : Environment)
  | finish (env : Environment)
  | setTrackers (urlList : List (List Char)) (env : Environment)
  | addTrackers (torrentData : TorrentData)
  | update (force : Bool) (env : Environment)
  | onUpdate (howmany : Nat) (env : Environment)
  | trackerSuccess (n : Nat) (p : Nat × Nat) (response : Option Response) (connects : Bool) (env : Environment)
  | trackerFailure (n : Nat) (p : Nat × Nat) (failure : TrackerFailure) (circuitDead : Bool) (env : Environment)

namespace Rerequester

/-- A tracker is heard of when its request is under way, also when the sequence was given up. -/
def step (config : TrackerConfig) (s : Rerequester) : TrackerAction → Option Rerequester
  | .start env => some (s.start config env)
  | .forceStop env => some (s.forceStop config env)
  | .stop env => some (s.stop config env)
  | .finish env => some (s.finish config env)
  | .setTrackers urlList env => some (s.setTrackers config urlList env)
  | .addTrackers torrentData => some { s with announceList := addTrackers (extractTrackerList torrentData) s.announceList }
  | .update force env => some (s.update force env)
  | .onUpdate howmany env => if s.updateEvent then some (s.onUpdate config howmany env) else none
  | .trackerSuccess n p response connects env =>
    if n < s.count ∧ ((s.sequences n).tracker p).requesting then
      some (s.settle config n (((s.sequences n).heard p).onSuccess p response env.answers) connects env)
    else none
  | .trackerFailure n p failure circuitDead env =>
    if n < s.count ∧ ((s.sequences n).tracker p).requesting then
      some (s.settle config n (((s.sequences n).heard p).onFailure p failure circuitDead env.answers) false env)
    else none

end Rerequester

namespace RequestSequence

variable {r : RequestSequence} {answers : List (Option String)}

/-- A sequence that waits is over after it was stopped; it may have come to the end of its list first. -/
structure Stopped (answers : List (Option String)) (r r' : RequestSequence) : Prop extends InOrder r' where
  announceList : r'.announceList = r.announceList
  isRunning : r'.isRunning = false
  attached : r'.attached = r.attached
  raised : r'.raised = r.raised ++ (contactAfter r.announceList answers r.position).errors
  fired : ∃ result, r'.fired = [result] ∧ result ≠ .success

theorem InOrder.fire {r : RequestSequence} (h : r.InOrder) (result : SequenceResult) : (r.fire result).InOrder := by
  unfold RequestSequence.fire
  split
  · exact { h with }
  · exact h

theorem fire_of_not_running (h : r.isRunning = false) (result : SequenceResult) : r.fire result = r := by
  unfold fire
  rw [h]
  rfl

theorem Waiting.stop_eq (h : r.Waiting) (answers : List (Option String)) :
    r.stop answers = ((r.onFailure r.position .cancelled false answers).fire .cancelled, false) := by
  have hnext : r.announceListNext = .ok r.position := h.found
  unfold stop
  rw [if_pos h.isRunning, hnext]

theorem Waiting.cancelled_leads (h : r.Waiting) (answers : List (Option String)) :
    Leads (contactAfter r.announceList answers r.position) r (r.onFailure r.position .cancelled false answers) := by
  have hleads := h.toBegun.onFailure_leads .cancelled false answers
  rwa [if_pos (TrackerConnection.onFailure_finished_of_not_retries rfl false)] at hleads

theorem Leads.going_or_exhausted {c : Contact} {r' : RequestSequence} (h : Leads c r r') :
    r'.InOrder ∧ (r'.Going ∨ r'.Ended .exhausted) := by
  have hreached := h.reached
  cases c with
  | waiting => exact ⟨hreached.inOrder, .inl hreached.toGoing⟩
  | exhausted => exact ⟨hreached.toInOrder, .inr hreached⟩
  | raised e => exact ⟨hreached.inOrder, .inl hreached.toGoing⟩

theorem Waiting.stopped (h : r.Waiting) (answers : List (Option String)) :
    Stopped answers r (r.stop answers).1 := by
  have hleads := h.cancelled_leads answers
  rw [h.stop_eq]
  obtain ⟨hinOrder, hgoing | hended⟩ := hleads.going_or_exhausted
  · have hfire := hinOrder.fire .cancelled
    dsimp only
    rw [fire_of_running hgoing.isRunning] at hfire ⊢
    exact { hfire with
      announceList := hleads.announceList
      isRunning := rfl
      attached := hleads.attached
      raised := hleads.raised
      fired := ⟨.cancelled, congrArg (· ++ [.cancelled]) hgoing.fired, nofun⟩ }
  · dsimp only
    rw [fire_of_not_running hended.isRunning]
    exact { hinOrder with
      announceList := hleads.announceList
      isRunning := hended.isRunning
      attached := hleads.attached
      raised := hleads.raised
      fired := ⟨.exhausted, hended.fired, nofun⟩ }

theorem Stuck.stop_eq {e : LookupError} (h : r.Stuck e) (answers : List (Option String)) :
    r.stop answers = (r.error e, true) := by
  have hnext : r.announceListNext = .error e := h.missing
  unfold stop
  rw [if_pos h.isRunning, hnext]

theorem Stuck.error {e : LookupError} (h : r.Stuck e) : (r.error e).Stuck e := { h with }

theorem stop_of_not_running (h : r.isRunning = false) (answers : List (Option String)) : r.stop answers = (r, false) := by
  unfold stop
  rw [h]
  rfl

end RequestSequence

namespace Rerequester

open RequestSequence

variable {config : TrackerConfig} {env : Environment} {s t : Rerequester} {n : Nat} {r : RequestSequence}

/-- The current request is given up, and the sequences stay as they are. -/
structure Freed (s t : Rerequester) : Prop where
  sequences : t.sequences = s.sequences
  count : t.count = s.count
  currentRequest : t.currentRequest = none
  raised : .indexError ∉ s.raised → .indexError ∉ t.raised

theorem Freed.of_eq {s' : Rerequester} (h : Freed s' t) (hsequences : s'.sequences = s.sequences)
    (hcount : s'.count = s.count) (hraised : .indexError ∉ s.raised → .indexError ∉ s'.raised) : Freed s t where
  sequences := h.sequences.trans hsequences
  count := h.count.trans hcount
  currentRequest := h.currentRequest
  raised hclean := h.raised (hraised hclean)

theorem getErrorMessage_error {entries : List ((Nat × Nat) × Tracker)} {warning : Option String} {e : LookupError}
    (h : r.getErrorMessage entries warning = .error e) : e = .attributeError := by
  induction entries generalizing warning with
  | nil => cases h
  | cons entry entries ih =>
    obtain ⟨p, tracker⟩ := entry
    cases tracker with
    | url text => exact (Except.error.inj h).symm
    | connection baseURL =>
      simp only [getErrorMessage] at h
      split at h
      · cases h
      · split at h
        · cases h
        · exact ih h

theorem onTrackerFailure_freed (cancelled : Bool) (n : Nat) (random : Rat) (s : Rerequester) :
    Freed s (s.onTrackerFailure config cancelled n random) := by
  unfold onTrackerFailure
  dsimp only
  split
  · exact ⟨rfl, rfl, rfl, id⟩
  · split
    case h_1 e he =>
      rw [getErrorMessage_error he]
      exact ⟨rfl, rfl, rfl, fun h => by simpa [error] using h⟩
    case h_2 => exact ⟨rfl, rfl, rfl, id⟩

@[simp] theorem onTrackerFailure_announceList (cancelled : Bool) (n : Nat) (random : Rat) (s : Rerequester) :
    (s.onTrackerFailure config cancelled n random).announceList = s.announceList := by
  unfold onTrackerFailure
  dsimp only
  split
  · rfl
  · split <;> rfl

theorem fireDeferred_freed (h : s.currentRequest = none) : Freed s s.fireDeferred := by
  unfold fireDeferred
  split
  · exact ⟨rfl, rfl, h, id⟩
  · exact ⟨rfl, rfl, h, id⟩

@[simp] theorem fireDeferred_announceList (s : Rerequester) : s.fireDeferred.announceList = s.announceList := by
  unfold fireDeferred
  split <;> rfl

/-- The position of the successful tracker is one of the list, which has only grown. -/
theorem onTrackerSuccess_freed {connects : Bool} {now random : Rat}
    (h : (s.sequences n).position ∈ positions s.announceList) :
    Freed s (s.onTrackerSuccess config n connects now random) := by
  unfold onTrackerSuccess
  dsimp only
  split
  case h_1 hnone =>
    have hlt := mem_positions.mp h
    exact absurd (List.getElem?_eq_none_iff.mp hnone) (Nat.not_le_of_lt hlt)
  case h_2 =>
    split
    case h_1 e he =>
      rw [getErrorMessage_error he]
      refine (onTrackerFailure_freed false n random _).of_eq rfl rfl fun hclean => ?_
      simpa [error] using hclean
    case h_2 =>
      split
      · exact (fireDeferred_freed rfl).of_eq rfl rfl id
      · exact (onTrackerFailure_freed false n random _).of_eq rfl rfl id

theorem settle_of_same {connects : Bool} (h : r.fired = (s.sequences n).fired) :
    s.settle config n r connects env = s.setSequence n r := by
  unfold settle
  dsimp only
  rw [h, List.drop_length]
  split <;> rfl

theorem settle_of_failure {connects : Bool} {result : SequenceResult} (hbefore : (s.sequences n).fired = [])
    (hfired : r.fired = [result]) (hresult : result ≠ .success) (hattached : r.attached = true) :
    s.settle config n r connects env =
      (s.setSequence n r).onTrackerFailure config (result = SequenceResult.cancelled) n env.random := by
  unfold settle
  dsimp only
  rw [hbefore, hfired, if_pos hattached]
  cases result with
  | success => exact absurd rfl hresult
  | cancelled => rfl
  | exhausted => rfl

theorem settle_of_success {connects : Bool} (hbefore : (s.sequences n).fired = []) (hfired : r.fired = [.success])
    (hattached : r.attached = true) :
    s.settle config n r connects env = (s.setSequence n r).onTrackerSuccess config n connects env.now env.random := by
  unfold settle
  dsimp only
  rw [hbefore, hfired, if_pos hattached]
  rfl

/-- What holds after every run. Only the current request can be running, its callbacks are there when its
first tracker could be started, and the list of the torrent has all the places that its copy has. -/
structure Sound (s : Rerequester) : Prop where
  regular : ∀ n < s.count, (s.sequences n).Regular
  current : ∀ n, s.currentRequest = some n → n < s.count
  alone : ∀ n < s.count, (s.sequences n).isRunning = true → s.currentRequest = some n
  attached : ∀ n < s.count, (s.sequences n).isRunning = true →
    lookup (s.sequences n).announceList (s.sequences n).position = .ok (s.sequences n).position →
    (s.sequences n).attached = true
  covers : ∀ n < s.count, (s.sequences n).isRunning = true →
    ∀ p ∈ positions (s.sequences n).announceList, p ∈ positions s.announceList
  clean : .indexError ∉ s.raised

@[simp] theorem setSequence_self (n : Nat) (r : RequestSequence) (s : Rerequester) :
    (s.setSequence n r).sequences n = r := Function.update_self _ _ _

theorem setSequence_of_ne {m : Nat} (h : m ≠ n) : (s.setSequence n r).sequences m = s.sequences m :=
  Function.update_of_ne h _ _

/-- A sequence goes on where it is, or ends. -/
theorem Sound.setSequence (hs : s.Sound) (hn : n < s.count) (hr : r.Regular)
    (hrun : r.isRunning = true → (s.sequences n).isRunning = true ∧ r.announceList = (s.sequences n).announceList ∧
      (lookup r.announceList r.position = .ok r.position → r.attached = true)) : (s.setSequence n r).Sound where
  regular m hm := by
    by_cases hmn : m = n
    · rw [hmn, setSequence_self]
      exact hr
    · rw [setSequence_of_ne hmn]
      exact hs.regular m hm
  current := hs.current
  alone m hm h := by
    by_cases hmn : m = n
    · subst hmn
      rw [setSequence_self] at h
      exact hs.alone m hn (hrun h).1
    · rw [setSequence_of_ne hmn] at h
      exact hs.alone m hm h
  attached m hm := by
    by_cases hmn : m = n
    · subst hmn
      rw [setSequence_self]
      exact fun h => (hrun h).2.2
    · rw [setSequence_of_ne hmn]
      exact hs.attached m hm
  covers m hm := by
    by_cases hmn : m = n
    · subst hmn
      rw [setSequence_self]
      intro h p hp
      obtain ⟨hold, hlist, -⟩ := hrun h
      rw [hlist] at hp
      exact hs.covers m hn hold p hp
    · rw [setSequence_of_ne hmn]
      exact hs.covers m hm
  clean := hs.clean

theorem Sound.freed (hs : s.Sound) (hfreed : Freed s t) (hidle : ∀ n < s.count, (s.sequences n).isRunning = false) :
    t.Sound := by
  have hnot (m) (hm : m < t.count) (hrun : (t.sequences m).isRunning = true) : False := by
    rw [hfreed.sequences] at hrun
    rw [hfreed.count] at hm
    exact Bool.false_ne_true ((hidle m hm).symm.trans hrun)
  exact {
    regular := fun m hm => by
      rw [hfreed.sequences]
      rw [hfreed.count] at hm
      exact hs.regular m hm
    current := fun m hm => by
      rw [hfreed.currentRequest] at hm
      cases hm
    alone := fun m hm hrun => (hnot m hm hrun).elim
    attached := fun m hm hrun => (hnot m hm hrun).elim
    covers := fun m hm hrun => (hnot m hm hrun).elim
    clean := hfreed.raised hs.clean }

theorem Sound.idle_of_none (hs : s.Sound) (hnone : s.currentRequest = none) (m : Nat) (hm : m < s.count) :
    (s.sequences m).isRunning = false := by
  rw [Bool.eq_false_iff]
  intro hrun
  have hcurrent := hs.alone m hm hrun
  rw [hnone] at hcurrent
  cases hcurrent

/-- When the sequence of the current request has ended, none is running. -/
theorem Sound.idle_of_ended (hs : s.Sound) (hn : s.currentRequest = some n) (hended : (s.sequences n).isRunning = false)
    (m : Nat) (hm : m < s.count) : (s.sequences m).isRunning = false := by
  rw [Bool.eq_false_iff]
  intro hrun
  have hmn : n = m := Option.some.inj (hn.symm.trans (hs.alone m hm hrun))
  subst hmn
  exact Bool.false_ne_true (hended.symm.trans hrun)

theorem Sound.of_same (hs : s.Sound) (hsequences : t.sequences = s.sequences) (hcount : t.count = s.count)
    (hcurrent : t.currentRequest = s.currentRequest) (hlist : t.announceList = s.announceList)
    (hraised : t.raised = s.raised) : t.Sound := by
  obtain ⟨hregular, hcur, halone, hattached, hcovers, hclean⟩ := hs
  constructor
  all_goals simp only [hsequences, hcount, hcurrent, hlist, hraised]
  all_goals assumption

/-- The current request, when there is one, waits for a tracker, and no lookup went beyond a tier. -/
structure Unstuck (s : Rerequester) : Prop where
  inside : ∀ n < s.count, .indexError ∉ (s.sequences n).raised
  waiting : ∀ n, s.currentRequest = some n → (s.sequences n).Waiting

theorem Unstuck.setSequence_iff (h : s.Unstuck) (hn : n < s.count) :
    (s.setSequence n r).Unstuck ↔ .indexError ∉ r.raised ∧ (s.currentRequest = some n → r.Waiting) := by
  constructor
  · intro ht
    have hinside := ht.inside n hn
    rw [setSequence_self] at hinside
    refine ⟨hinside, fun hcurrent => ?_⟩
    have hwaiting := ht.waiting n hcurrent
    rwa [setSequence_self] at hwaiting
  · rintro ⟨hinside, hwaiting⟩
    refine ⟨fun m hm => ?_, fun m hm => ?_⟩
    · by_cases hmn : m = n
      · rw [hmn, setSequence_self]
        exact hinside
      · rw [setSequence_of_ne hmn]
        exact h.inside m hm
    · by_cases hmn : m = n
      · subst hmn
        rw [setSequence_self]
        exact hwaiting hm
      · rw [setSequence_of_ne hmn]
        exact h.waiting m hm

theorem Unstuck.freed_iff (h : s.Unstuck) (hn : n < s.count) (hfreed : Freed (s.setSequence n r) t) :
    t.Unstuck ↔ .indexError ∉ r.raised := by
  constructor
  · intro ht
    have hinside := ht.inside n (hfreed.count ▸ hn)
    rwa [hfreed.sequences, setSequence_self] at hinside
  · intro hinside
    refine ⟨fun m hm => ?_, fun m hm => ?_⟩
    · rw [hfreed.count] at hm
      rw [hfreed.sequences]
      by_cases hmn : m = n
      · rw [hmn, setSequence_self]
        exact hinside
      · rw [setSequence_of_ne hmn]
        exact h.inside m hm
    · rw [hfreed.currentRequest] at hm
      cases hm

/-- A sequence that waited has got somewhere from inside of one of its trackers' callbacks. -/
theorem settle_leads (config : TrackerConfig) (env : Environment) (connects : Bool) (hs : s.Sound) (hn : n < s.count)
    {c : Contact}
    (hrun : (s.sequences n).isRunning = true) (hfired : (s.sequences n).fired = []) (hattached : r.attached = true)
    (hlist : r.announceList = (s.sequences n).announceList) (hraised : r.raised = (s.sequences n).raised ++ c.errors)
    (hreached : Reached c r) :
    (s.settle config n r connects env).Sound ∧
      (s.Unstuck → ((s.settle config n r connects env).Unstuck ↔ c.raises = false)) := by
  have hcurrent := hs.alone n hn hrun
  have hsound := hs.setSequence hn hreached.regular fun _ => ⟨hrun, hlist, fun _ => hattached⟩
  have hbefore (h : s.Unstuck) : .indexError ∉ (s.sequences n).raised := h.inside n hn
  cases c with
  | waiting =>
    have hgoing : r.Waiting := hreached
    rw [settle_of_same (hgoing.fired.trans hfired.symm)]
    refine ⟨hsound, fun h => ?_⟩
    rw [h.setSequence_iff hn, hraised]
    exact iff_of_true ⟨by simpa [Contact.errors] using hbefore h, fun _ => hgoing⟩ rfl
  | raised e =>
    have hstuck : r.Stuck e := hreached
    rw [settle_of_same (hstuck.fired.trans hfired.symm)]
    refine ⟨hsound, fun h => ?_⟩
    rw [h.setSequence_iff hn]
    refine iff_of_false (fun ⟨_, hwaiting⟩ => ?_) nofun
    have hboth := hstuck.missing.symm.trans (hwaiting hcurrent).found
    cases hboth
  | exhausted =>
    have hended : r.Ended .exhausted := hreached
    rw [settle_of_failure hfired hended.fired nofun hattached]
    have hfreed : Freed (s.setSequence n r)
        ((s.setSequence n r).onTrackerFailure config (.exhausted = SequenceResult.cancelled) n env.random) :=
      onTrackerFailure_freed _ n env.random _
    refine ⟨hsound.freed hfreed (hsound.idle_of_ended hcurrent ?_), fun h => ?_⟩
    · rw [setSequence_self]
      exact hended.isRunning
    · rw [h.freed_iff hn hfreed, hraised]
      exact iff_of_true (by simpa [Contact.errors] using hbefore h) rfl

/-- What happens to a sequence that has ended is of no consequence. -/
theorem settle_idle (config : TrackerConfig) (env : Environment) (connects : Bool) (hs : s.Sound) (hn : n < s.count)
    (hr : r.Regular)
    (hsame : r.fired = (s.sequences n).fired) (hraised : r.raised = (s.sequences n).raised)
    (hrun : r.isRunning = true → (s.sequences n).isRunning = true ∧ r.announceList = (s.sequences n).announceList ∧
      r.position = (s.sequences n).position ∧ r.attached = (s.sequences n).attached)
    (hwaiting : (s.sequences n).Waiting → r.Waiting) :
    (s.settle config n r connects env).Sound ∧ (s.Unstuck → (s.settle config n r connects env).Unstuck) := by
  rw [settle_of_same hsame]
  refine ⟨hs.setSequence hn hr fun h => ?_, fun h => ?_⟩
  · obtain ⟨hold, hlist, hposition, hattached⟩ := hrun h
    refine ⟨hold, hlist, fun hfound => ?_⟩
    rw [hlist, hposition] at hfound
    exact hattached.trans (hs.attached n hn hold hfound)
  · rw [h.setSequence_iff hn, hraised]
    exact ⟨h.inside n hn, fun hcurrent => hwaiting (h.waiting n hcurrent)⟩

/-- A tracker has answered, and its place is still one of the list. -/
theorem settle_answered (config : TrackerConfig) (env : Environment) (connects : Bool) (hs : s.Sound) (hn : n < s.count)
    (hw : (s.sequences n).Waiting) (hattached : (s.sequences n).attached = true) (hr : Answered (s.sequences n) r) :
    (s.settle config n r connects env).Sound ∧ (s.Unstuck → (s.settle config n r connects env).Unstuck) := by
  have hnot (h : r.isRunning = true) : False := Bool.false_ne_true (hr.isRunning.symm.trans h)
  have hsound := hs.setSequence hn (hr.toInOrder.regular hr.isRunning) fun hrun => (hnot hrun).elim
  have hposition : ((s.setSequence n r).sequences n).position ∈ positions (s.setSequence n r).announceList := by
    rw [setSequence_self, hr.position]
    exact hs.covers n hn hw.isRunning _ (mem_positions_of_lookup hw.found)
  have hfreed : Freed (s.setSequence n r)
      ((s.setSequence n r).onTrackerSuccess config n connects env.now env.random) := onTrackerSuccess_freed hposition
  rw [settle_of_success hw.fired hr.fired (hr.attached.trans hattached)]
  refine ⟨hsound.freed hfreed (hsound.idle_of_ended (hs.alone n hn hw.isRunning) ?_), fun h => ?_⟩
  · rw [setSequence_self]
    exact hr.isRunning
  · rw [h.freed_iff hn hfreed, hr.raised]
    exact h.inside n hn

theorem heard_finished (p : Nat × Nat) (r : RequestSequence) :
    ((r.heard p).tracker p).finished = (r.tracker p).finished := by
  unfold heard
  rw [setTracker_self]

theorem heard_onFailure (p : Nat × Nat) (r : RequestSequence) (failure : TrackerFailure) (circuitDead : Bool) :
    (((r.heard p).tracker p).onFailure failure circuitDead).finished =
      ((r.tracker p).onFailure failure circuitDead).finished := by
  unfold heard TrackerConnection.onFailure
  rw [setTracker_self]
  dsimp only
  split <;> rfl

theorem heard_onSuccess (p : Nat × Nat) (r : RequestSequence) (response : Option Response) :
    (((r.heard p).tracker p).onSuccess response).data = ((r.tracker p).onSuccess response).data := by
  unfold heard TrackerConnection.onSuccess
  rw [setTracker_self]
  cases response with
  | none => rfl
  | some response =>
    dsimp only
    split <;> rfl

/-- How far it goes when the tracker at `p` fails. -/
def failureContact (p : Nat × Nat) (failure : TrackerFailure) (circuitDead : Bool) (answers : List (Option String))
    (r : RequestSequence) : Contact :=
  if ((r.tracker p).onFailure failure circuitDead).finished then contactAfter r.announceList answers p
  else contact r.announceList answers p

/-- What comes from a tracker that is done, or of a sequence that is over. -/
theorem settle_heard_finished (config : TrackerConfig) (env : Environment) (connects : Bool) (hs : s.Sound)
    (hn : n < s.count) {p : Nat × Nat}
    (hp : ((s.sequences n).tracker p).requesting = true) (hdone : ((s.sequences n).tracker p).finished = true) :
    (s.settle config n ((s.sequences n).heard p) connects env).Sound ∧
      (s.Unstuck → (s.settle config n ((s.sequences n).heard p) connects env).Unstuck) := by
  have hr := (hs.regular n hn).heard_finished hp hdone
  refine settle_idle config env connects hs hn hr rfl rfl (fun hrun => ⟨hrun, rfl, rfl, rfl⟩) fun hw => ?_
  rcases hr.going hw.isRunning with hwaiting | ⟨e, hstuck⟩
  · exact hwaiting
  · have hboth := hw.found.symm.trans hstuck.missing
    cases hboth

theorem settle_heard_idle (config : TrackerConfig) (env : Environment) (connects : Bool) (hs : s.Sound)
    (hn : n < s.count) {p : Nat × Nat}
    (hp : ((s.sequences n).tracker p).requesting = true) (hopen : ((s.sequences n).tracker p).finished = false)
    (hnot : (s.sequences n).isRunning = false) (hidle : Idle p ((s.sequences n).heard p) r) :
    (s.settle config n r connects env).Sound ∧ (s.Unstuck → (s.settle config n r connects env).Unstuck) := by
  have hregular := hs.regular n hn
  have hall : Idle p (s.sequences n) r := (idle_setTracker p _ _).trans hidle
  have hended : r.isRunning = false := hall.isRunning.trans hnot
  have hinOrder := hall.inOrder hregular.toInOrder (hregular.mem_tried hp) (hregular.not_mem_dropLast hopen)
  refine settle_idle config env connects hs hn (hinOrder.regular hended) hall.fired hall.raised (fun hrun => ?_) fun hw => ?_
  · exact absurd (hended.symm.trans hrun) Bool.false_ne_true
  · exact absurd (hnot.symm.trans hw.isRunning) Bool.false_ne_true

/-- A failure is heard of. -/
theorem trackerFailure_step (hs : s.Sound) (hn : n < s.count) {p : Nat × Nat} {failure : TrackerFailure}
    {circuitDead : Bool} (hp : ((s.sequences n).tracker p).requesting = true) :
    (s.settle config n (((s.sequences n).heard p).onFailure p failure circuitDead env.answers) false env).Sound ∧
      (s.Unstuck →
        ((s.settle config n (((s.sequences n).heard p).onFailure p failure circuitDead env.answers) false env).Unstuck ↔
          ((s.sequences n).isRunning = true → ((s.sequences n).tracker p).finished = false →
            (failureContact p failure circuitDead env.answers (s.sequences n)).raises = false))) := by
  cases hdone : ((s.sequences n).tracker p).finished with
  | true =>
    rw [onFailure_of_finished ((heard_finished p _).trans hdone)]
    obtain ⟨hsound, hunstuck⟩ := settle_heard_finished config env false hs hn hp hdone
    exact ⟨hsound, fun h => iff_of_true (hunstuck h) nofun⟩
  | false =>
    cases hrun : (s.sequences n).isRunning with
    | false =>
      have hnot : ((s.sequences n).heard p).isRunning = false := hrun
      obtain ⟨hsound, hunstuck⟩ := settle_heard_idle config env false hs hn hp hdone hrun
        (onFailure_idle hnot failure circuitDead env.answers)
      exact ⟨hsound, fun h => iff_of_true (hunstuck h) nofun⟩
    | true =>
      obtain ⟨hw, rfl⟩ := (hs.regular n hn).waiting_of_requesting hrun hp hdone
      have hattached := hs.attached n hn hrun hw.found
      have hleads := hw.toBegun.heard.onFailure_leads failure circuitDead env.answers
      rw [show ((s.sequences n).heard (s.sequences n).position).position = (s.sequences n).position from rfl] at hleads
      rw [heard_onFailure] at hleads
      obtain ⟨hsound, hunstuck⟩ := settle_leads config env false hs hn hrun hw.fired
        (hleads.attached.trans hattached) hleads.announceList hleads.raised hleads.reached
      refine ⟨hsound, fun h => (hunstuck h).trans ?_⟩
      simp only [forall_const]
      rfl

theorem trackerSuccess_step (hs : s.Sound) (hn : n < s.count) {p : Nat × Nat} {response : Option Response}
    {connects : Bool} (hp : ((s.sequences n).tracker p).requesting = true) :
    (s.settle config n (((s.sequences n).heard p).onSuccess p response env.answers) connects env).Sound ∧
      (s.Unstuck →
        ((s.settle config n (((s.sequences n).heard p).onSuccess p response env.answers) connects env).Unstuck ↔
          ((s.sequences n).isRunning = true → ((s.sequences n).tracker p).finished = false →
            (((s.sequences n).tracker p).onSuccess response).data = none →
            (contactAfter (s.sequences n).announceList env.answers p).raises = false))) := by
  cases hdone : ((s.sequences n).tracker p).finished with
  | true =>
    rw [onSuccess_of_finished ((heard_finished p _).trans hdone)]
    obtain ⟨hsound, hunstuck⟩ := settle_heard_finished config env connects hs hn hp hdone
    exact ⟨hsound, fun h => iff_of_true (hunstuck h) nofun⟩
  | false =>
    cases hrun : (s.sequences n).isRunning with
    | false =>
      have hnot : ((s.sequences n).heard p).isRunning = false := hrun
      obtain ⟨hsound, hunstuck⟩ := settle_heard_idle config env connects hs hn hp hdone hrun
        (onSuccess_idle hnot response env.answers)
      exact ⟨hsound, fun h => iff_of_true (hunstuck h) nofun⟩
    | true =>
      obtain ⟨hw, rfl⟩ := (hs.regular n hn).waiting_of_requesting hrun hp hdone
      have hattached := hs.attached n hn hrun hw.found
      have hbegun := hw.toBegun.heard
      have hdata := heard_onSuccess (s.sequences n).position (s.sequences n) response
      cases hresponse : (((s.sequences n).tracker (s.sequences n).position).onSuccess response).data with
      | none =>
        have hleads := hbegun.onSuccess_leads env.answers (hdata.trans hresponse)
        obtain ⟨hsound, hunstuck⟩ := settle_leads config env connects hs hn hrun hw.fired
          (hleads.attached.trans hattached) hleads.announceList hleads.raised hleads.reached
        refine ⟨hsound, fun h => (hunstuck h).trans ?_⟩
        simp only [forall_const]
        rfl
      | some data =>
        have hisSome : ((((s.sequences n).heard (s.sequences n).position).tracker (s.sequences n).position).onSuccess
            response).data.isSome = true := by
          rw [hdata, hresponse]
          rfl
        have hanswered := hbegun.onSuccess_answered env.answers hisSome
        obtain ⟨hsound, hunstuck⟩ := settle_answered config env connects hs hn hw hattached
          { hanswered with }
        exact ⟨hsound, fun h => iff_of_true (hunstuck h) nofun⟩

theorem setSequence_same (n : Nat) (s : Rerequester) : s.setSequence n (s.sequences n) = s := by
  unfold setSequence
  rw [Function.update_eq_self]

theorem fireDeferred_failWait (s : Rerequester) :
    s.fireDeferred.failWait = s.failWait ∧ s.fireDeferred.errorMsg = s.errorMsg := by
  unfold fireDeferred
  split <;> exact ⟨rfl, rfl⟩

/-- A sequence that waited was stopped. -/
structure Cancelled (env : Environment) (n : Nat) (s t : Rerequester) : Prop where
  waiting : (s.sequences n).Waiting
  stopped : Stopped env.cancelAnswers (s.sequences n) ((s.sequences n).stop env.cancelAnswers).1
  announceList : t.announceList = s.announceList
  freed : Freed (s.setSequence n ((s.sequences n).stop env.cancelAnswers).1) t
  silent : ((s.sequences n).stop env.cancelAnswers).1.fired = [.cancelled] →
    t.failWait = s.failWait ∧ t.errorMsg = s.errorMsg

theorem cancelCurrentRequest_waiting (config : TrackerConfig) (env : Environment) (hs : s.Sound)
    (hcurrent : s.currentRequest = some n) (hw : (s.sequences n).Waiting) :
    (s.cancelCurrentRequest config env).2 = false ∧ Cancelled env n s (s.cancelCurrentRequest config env).1 := by
  have hstopped := hw.stopped env.cancelAnswers
  have hattached := hstopped.attached.trans (hs.attached n (hs.current n hcurrent) hw.isRunning hw.found)
  obtain ⟨result, hfired, hresult⟩ := hstopped.fired
  have hraises : ((s.sequences n).stop env.cancelAnswers).2 = false := congrArg Prod.snd (hw.stop_eq env.cancelAnswers)
  have hcancel : s.cancelCurrentRequest config env =
      ({ (s.setSequence n ((s.sequences n).stop env.cancelAnswers).1).onTrackerFailure config (result = SequenceResult.cancelled) n
          env.random with currentRequest := none }.fireDeferred, false) := by
    unfold cancelCurrentRequest
    rw [hcurrent]
    dsimp only
    rw [hraises, settle_of_failure hw.fired hfired hresult hattached]
    rfl
  rw [hcancel]
  have hfreed : Freed (s.setSequence n ((s.sequences n).stop env.cancelAnswers).1)
      ((s.setSequence n ((s.sequences n).stop env.cancelAnswers).1).onTrackerFailure config (result = SequenceResult.cancelled) n
        env.random) := onTrackerFailure_freed _ n env.random _
  refine ⟨rfl, hw, hstopped, ?_, (fireDeferred_freed rfl).of_eq hfreed.sequences hfreed.count hfreed.raised, fun h => ?_⟩
  · rw [fireDeferred_announceList]
    exact onTrackerFailure_announceList _ n env.random _
  · obtain rfl : result = .cancelled := List.singleton_inj.mp (hfired.symm.trans h)
    exact fireDeferred_failWait _

/-- The three ways in which cancelling may go: there is nothing to stop, `stop` raises for want of
a tracker, or the sequence is over, which may have gone on to a tracker that is not there. -/
theorem cancelCurrentRequest_cases (config : TrackerConfig) (env : Environment) (hs : s.Sound) :
    (∃ t, s.cancelCurrentRequest config env = (t, false) ∧ t.announceList = s.announceList ∧ Freed s t ∧
      ∀ n, s.currentRequest = some n → (s.sequences n).isRunning = false) ∨
    (∃ n e, s.currentRequest = some n ∧ (s.sequences n).Stuck e ∧
      s.cancelCurrentRequest config env = (s.setSequence n ((s.sequences n).error e), true)) ∨
    (∃ n, s.currentRequest = some n ∧ (s.cancelCurrentRequest config env).2 = false ∧
      Cancelled env n s (s.cancelCurrentRequest config env).1) := by
  cases hcurrent : s.currentRequest with
  | none =>
    refine .inl ⟨s.fireDeferred, ?_, fireDeferred_announceList s, fireDeferred_freed hcurrent, nofun⟩
    simp [cancelCurrentRequest, hcurrent]
  | some n =>
    have hn := hs.current n hcurrent
    cases hrun : (s.sequences n).isRunning with
    | false =>
      refine .inl ⟨{ s with currentRequest := none }.fireDeferred, ?_, fireDeferred_announceList _, ?_, ?_⟩
      · have hsettle : s.settle config n (s.sequences n) false env = s :=
          (settle_of_same rfl).trans (setSequence_same n s)
        simp [cancelCurrentRequest, hcurrent, stop_of_not_running hrun, hsettle]
      · exact (fireDeferred_freed rfl).of_eq rfl rfl id
      · intro m hm
        obtain rfl := Option.some.inj hm
        exact hrun
    | true =>
      rcases (hs.regular n hn).going hrun with hw | ⟨e, hstuck⟩
      · exact .inr (.inr ⟨n, rfl, cancelCurrentRequest_waiting config env hs hcurrent hw⟩)
      · refine .inr (.inl ⟨n, e, rfl, hstuck, ?_⟩)
        have hsettle : s.settle config n ((s.sequences n).error e) false env =
            s.setSequence n ((s.sequences n).error e) := settle_of_same rfl
        simp only [cancelCurrentRequest, hcurrent, hstuck.stop_eq, hsettle]
        rfl

/-- A sequence that is stopped does not turn to a tier that is empty. -/
def Cancels (env : Environment) (s : Rerequester) : Prop :=
  ∀ n ∈ s.currentRequest, contactAfter (s.sequences n).announceList env.cancelAnswers (s.sequences n).position ≠
    .raised .indexError

/-- A new sequence gets to a tracker that does not fail at once. -/
def Announces (announceList : List (List Tracker)) (env : Environment) : Prop :=
  env.canAnnounce = true → contact announceList env.answers (0, 0) = .waiting

theorem Sound.stuck (hs : s.Sound) (hn : n < s.count) {e : LookupError} (h : (s.sequences n).Stuck e) :
    (s.setSequence n ((s.sequences n).error e)).Sound :=
  hs.setSequence hn h.error.regular fun _ => ⟨h.isRunning, rfl, fun hfound => by
    have hboth := h.missing.symm.trans hfound
    cases hboth⟩

theorem Sound.cancelled (hs : s.Sound) (hcurrent : s.currentRequest = some n) (h : Cancelled env n s t) : t.Sound := by
  have hn := hs.current n hcurrent
  have hended := h.stopped.isRunning
  have hsound := hs.setSequence hn (h.stopped.toInOrder.regular hended) fun hrun =>
    absurd (hended.symm.trans hrun) Bool.false_ne_true
  refine hsound.freed h.freed (hsound.idle_of_ended hcurrent ?_)
  rw [setSequence_self]
  exact hended

theorem cancelCurrentRequest_sound (config : TrackerConfig) (env : Environment) (hs : s.Sound) :
    (s.cancelCurrentRequest config env).1.Sound := by
  rcases cancelCurrentRequest_cases config env hs with ⟨t, ht, -, hfreed, hidle⟩ | ⟨n, e, hcurrent, hstuck, ht⟩ |
    ⟨n, hcurrent, -, hcancelled⟩
  · rw [ht]
    refine hs.freed hfreed fun m hm => Bool.eq_false_iff.mpr fun hrun => ?_
    exact Bool.false_ne_true ((hidle m (hs.alone m hm hrun)).symm.trans hrun)
  · rw [ht]
    exact hs.stuck (hs.current n hcurrent) hstuck
  · exact hs.cancelled hcurrent hcancelled

theorem cancelCurrentRequest_done (config : TrackerConfig) (env : Environment) (hs : s.Sound)
    (h : (s.cancelCurrentRequest config env).2 = false) :
    (s.cancelCurrentRequest config env).1.currentRequest = none ∧
      (s.cancelCurrentRequest config env).1.announceList = s.announceList := by
  rcases cancelCurrentRequest_cases config env hs with ⟨t, ht, hlist, hfreed, -⟩ | ⟨n, e, -, -, ht⟩ |
    ⟨n, -, -, hcancelled⟩
  · rw [ht]
    exact ⟨hfreed.currentRequest, hlist⟩
  · rw [ht] at h
    cases h
  · exact ⟨hcancelled.freed.currentRequest, hcancelled.announceList⟩

/-- Cancelling does not raise as long as nothing is stuck, and leaves nothing stuck. -/
theorem cancelCurrentRequest_unstuck (config : TrackerConfig) (env : Environment) (hs : s.Sound) (h : s.Unstuck) :
    (s.cancelCurrentRequest config env).2 = false ∧
      ((s.cancelCurrentRequest config env).1.Unstuck ↔ s.Cancels env) := by
  rcases cancelCurrentRequest_cases config env hs with ⟨t, ht, -, hfreed, hidle⟩ | ⟨n, e, hcurrent, hstuck, -⟩ |
    ⟨n, hcurrent, hraises, hcancelled⟩
  · rw [ht]
    refine ⟨rfl, iff_of_true ⟨fun m hm => ?_, fun m hm => ?_⟩ fun n hcurrent => ?_⟩
    · rw [hfreed.sequences]
      exact h.inside m (hfreed.count ▸ hm)
    · rw [hfreed.currentRequest] at hm
      cases hm
    · exact absurd ((hidle n hcurrent).symm.trans (h.waiting n hcurrent).isRunning) Bool.false_ne_true
  · have hboth := hstuck.missing.symm.trans (h.waiting n hcurrent).found
    cases hboth
  · have hn := hs.current n hcurrent
    refine ⟨hraises, ?_⟩
    rw [h.freed_iff hn hcancelled.freed, hcancelled.stopped.raised]
    have hbefore := h.inside n hn
    have hiff : s.Cancels env ↔ contactAfter (s.sequences n).announceList env.cancelAnswers (s.sequences n).position ≠
        .raised .indexError := by
      simp [Cancels, hcurrent]
    rw [hiff]
    cases contactAfter (s.sequences n).announceList env.cancelAnswers (s.sequences n).position with
    | waiting | exhausted => exact iff_of_true (by simpa [Contact.errors] using hbefore) nofun
    | raised e =>
      cases e with
      | indexError => exact iff_of_false (fun h => h (by simp [Contact.errors])) (fun h => h rfl)
      | attributeError => exact iff_of_true (by simpa [Contact.errors] using hbefore) nofun

theorem attach_regular {r : RequestSequence} (h : r.Regular) (attached : Bool) :
    RequestSequence.Regular { r with attached := attached } where
  tried := h.tried
  failed := h.failed
  fresh := h.fresh
  going hrun := (h.going hrun).imp (fun hw => { hw with }) fun ⟨e, hstuck⟩ => ⟨e, { hstuck with }⟩

def addSequence (r : RequestSequence) (s : Rerequester) : Rerequester :=
  { s.setSequence s.count r with count := s.count + 1, currentRequest := some s.count }

@[simp] theorem addSequence_self (r : RequestSequence) (s : Rerequester) : (s.addSequence r).sequences s.count = r :=
  Function.update_self _ _ _

theorem addSequence_of_ne {m : Nat} (h : m ≠ s.count) : (s.addSequence r).sequences m = s.sequences m :=
  Function.update_of_ne h _ _

theorem Sound.addSequence (hs : s.Sound) (hnone : s.currentRequest = none) (hr : r.Regular)
    (hlist : r.announceList = s.announceList)
    (hattached : lookup r.announceList r.position = .ok r.position → r.isRunning = true → r.attached = true) :
    (s.addSequence r).Sound := by
  have hlt {m} (hm : m < s.count + 1) (hne : m ≠ s.count) : m < s.count := by omega
  have hnot {m} (hm : m < s.count) (h : (s.sequences m).isRunning = true) : False :=
    Bool.false_ne_true ((hs.idle_of_none hnone m hm).symm.trans h)
  refine ⟨fun m hm => ?_, fun m hm => ?_, fun m hm hrun => ?_, fun m hm hrun => ?_, fun m hm hrun => ?_, hs.clean⟩
  · by_cases hne : m = s.count
    · rw [hne, addSequence_self]
      exact hr
    · rw [addSequence_of_ne hne]
      exact hs.regular m (hlt hm hne)
  · obtain rfl := Option.some.inj hm
    exact Nat.lt_succ_self _
  all_goals by_cases hne : m = s.count
  · exact congrArg some hne.symm
  · rw [addSequence_of_ne hne] at hrun
    exact (hnot (hlt hm hne) hrun).elim
  · subst hne
    rw [addSequence_self] at hrun ⊢
    exact fun hfound => hattached hfound hrun
  · rw [addSequence_of_ne hne] at hrun
    exact (hnot (hlt hm hne) hrun).elim
  · subst hne
    rw [addSequence_self, hlist]
    exact fun _ hp => hp
  · rw [addSequence_of_ne hne] at hrun
    exact (hnot (hlt hm hne) hrun).elim

theorem addSequence_unstuck_iff (hnone : s.currentRequest = none) :
    (s.addSequence r).Unstuck ↔ s.Unstuck ∧ .indexError ∉ r.raised ∧ r.Waiting := by
  constructor
  · intro h
    have hinside := h.inside s.count (Nat.lt_succ_self _)
    have hwaiting := h.waiting s.count rfl
    rw [addSequence_self] at hinside hwaiting
    refine ⟨⟨fun m hm => ?_, fun m hm => ?_⟩, hinside, hwaiting⟩
    · have hm' := h.inside m (Nat.lt_succ_of_lt hm)
      rwa [addSequence_of_ne (Nat.ne_of_lt hm)] at hm'
    · rw [hnone] at hm
      cases hm
  · rintro ⟨h, hinside, hwaiting⟩
    refine ⟨fun m hm => ?_, fun m hm => ?_⟩
    · by_cases hne : m = s.count
      · rw [hne, addSequence_self]
        exact hinside
      · rw [addSequence_of_ne hne]
        exact h.inside m (Nat.lt_of_le_of_ne (Nat.le_of_lt_succ hm) hne)
    · obtain rfl := Option.some.inj hm
      rw [addSequence_self]
      exact hwaiting

/-- A new sequence after its start, with the callbacks on its deferred. -/
def started (announceList : List (List Tracker)) (answers : List (Option String)) : RequestSequence :=
  let (r, raises) := (RequestSequence.new announceList).start answers
  { r with attached := !raises && r.deferred }

theorem announce_eq (env : Environment) (hcan : env.canAnnounce = true) (hnone : s.currentRequest = none) :
    (s.announce env).1 = s.addSequence (started s.announceList env.answers) := by
  unfold announce
  rw [if_pos hcan, hnone]
  rfl

theorem started_reached (l : List (List Tracker)) (answers : List (Option String)) :
    Reached (contact l answers (0, 0)) (started l answers) := by
  have hreached := (start_leads l answers).1.reached
  revert hreached
  unfold started
  generalize contact l answers (0, 0) = c
  intro hreached
  cases c with
  | waiting =>
    have hw : ((RequestSequence.new l).start answers).1.Waiting := hreached
    exact { hw with }
  | exhausted =>
    have hended : ((RequestSequence.new l).start answers).1.Ended .exhausted := hreached
    exact { hended with }
  | raised e =>
    have hstuck : ((RequestSequence.new l).start answers).1.Stuck e := hreached
    exact { hstuck with }

theorem started_attached (l : List (List Tracker)) (answers : List (Option String)) (h : (started l answers).Waiting) :
    (started l answers).attached = true := by
  obtain ⟨hleads, hraises⟩ := start_leads l answers
  have hdeferred : ((RequestSequence.new l).start answers).1.deferred = true := h.deferred
  have hnot : ((RequestSequence.new l).start answers).2 = false := by
    rw [Bool.eq_false_iff]
    intro hraise
    obtain ⟨e, he⟩ := hraises.mp hraise
    have hreached := started_reached l answers
    rw [contact_of_error he] at hreached
    have hboth := hreached.missing.symm.trans h.found
    cases hboth
  show (!((RequestSequence.new l).start answers).2 && ((RequestSequence.new l).start answers).1.deferred) = true
  rw [hnot, hdeferred]
  rfl

theorem announce_sound (env : Environment) (hs : s.Sound) : (s.announce env).1.Sound := by
  cases hcan : env.canAnnounce with
  | false => simpa [announce, hcan] using hs
  | true =>
    cases hnone : s.currentRequest with
    | some n => simpa [announce, hcan, hnone] using hs
    | none =>
      rw [announce_eq env hcan hnone]
      have hreached := started_reached s.announceList env.answers
      refine hs.addSequence hnone hreached.regular (start_leads s.announceList env.answers).1.announceList ?_
      intro hfound hrun
      rcases hreached.regular.going hrun with hw | ⟨e, hstuck⟩
      · exact started_attached _ _ hw
      · have hboth := hstuck.missing.symm.trans hfound
        cases hboth

theorem announce_unstuck_iff (env : Environment) (hnone : s.currentRequest = none) :
    (s.announce env).1.Unstuck ↔ s.Unstuck ∧ Announces s.announceList env := by
  cases hcan : env.canAnnounce with
  | false =>
    have hsame : s.announce env = (s, false) := by simp [announce, hcan]
    rw [hsame]
    exact (and_iff_left fun h => absurd (hcan.symm.trans h) Bool.false_ne_true).symm
  | true =>
    rw [announce_eq env hcan hnone, addSequence_unstuck_iff hnone]
    refine and_congr_right fun _ => ?_
    have hraised : (started s.announceList env.answers).raised = [] ++ (contact s.announceList env.answers (0, 0)).errors :=
      (start_leads s.announceList env.answers).1.raised
    have hreached := started_reached s.announceList env.answers
    have hannounces : Announces s.announceList env ↔ contact s.announceList env.answers (0, 0) = .waiting :=
      ⟨fun h => h hcan, fun h _ => h⟩
    rw [hraised, hannounces]
    cases hcontact : contact s.announceList env.answers (0, 0) with
    | waiting =>
      rw [hcontact] at hreached
      exact iff_of_true ⟨List.not_mem_nil, hreached⟩ rfl
    | exhausted =>
      rw [hcontact] at hreached
      exact iff_of_false (fun h => absurd (hreached.isRunning.symm.trans h.2.isRunning) Bool.false_ne_true) nofun
    | raised e =>
      rw [hcontact] at hreached
      refine iff_of_false (fun h => ?_) nofun
      have hboth := hreached.missing.symm.trans h.2.found
      cases hboth

/-- The fields that no sequence depends on. -/
theorem Unstuck.of_same (h : s.Unstuck) (hsequences : t.sequences = s.sequences) (hcount : t.count = s.count)
    (hcurrent : t.currentRequest = s.currentRequest) : t.Unstuck where
  inside n hn := by
    rw [hsequences]
    exact h.inside n (hcount ▸ hn)
  waiting n hn := by
    rw [hsequences]
    exact h.waiting n (hcurrent ▸ hn)

theorem beginNewRequest_sound (status : Status) (env : Environment) (hs : s.Sound) :
    (s.beginNewRequest status env).1.Sound :=
  announce_sound env (hs.of_same rfl rfl rfl rfl rfl)

theorem beginNewRequest_unstuck_iff (status : Status) (env : Environment) (hnone : s.currentRequest = none) :
    (s.beginNewRequest status env).1.Unstuck ↔ s.Unstuck ∧ Announces s.announceList env := by
  have hsame : ({ s with currentDeferred := some false, currentStatus := some status } : Rerequester).Unstuck ↔ s.Unstuck :=
    ⟨fun h => h.of_same rfl rfl rfl, fun h => h.of_same rfl rfl rfl⟩
  have hiff := announce_unstuck_iff (s := { s with currentDeferred := some false, currentStatus := some status }) env hnone
  rwa [hsame] at hiff

/-- What follows a cancellation that did not raise. -/
structure Follows (config : TrackerConfig) (env : Environment) (s t : Rerequester) (ok : Prop) : Prop where
  sound : t.Sound
  unstuck : s.Unstuck → (t.Unstuck ↔ s.Cancels env ∧ ok)

theorem follows_of_cancel (config : TrackerConfig) (env : Environment) (hs : s.Sound) {f : Rerequester → Rerequester}
    {ok : Prop} (hf : ∀ u : Rerequester, u.Sound → u.currentRequest = none → u.announceList = s.announceList →
      (f u).Sound ∧ ((f u).Unstuck ↔ u.Unstuck ∧ ok))
    (ht : t = match s.cancelCurrentRequest config env with
      | (u, true) => u
      | (u, false) => f u) : Follows config env s t ok := by
  have hsound := cancelCurrentRequest_sound config env hs
  cases hcancel : s.cancelCurrentRequest config env with
  | mk u raises =>
    rw [hcancel] at hsound ht
    cases raises with
    | true =>
      subst ht
      refine ⟨hsound, fun h => ?_⟩
      have hraises := (cancelCurrentRequest_unstuck config env hs h).1
      rw [hcancel] at hraises
      cases hraises
    | false =>
      subst ht
      have hdone := cancelCurrentRequest_done config env hs (by rw [hcancel])
      rw [hcancel] at hdone
      obtain ⟨hsoundf, hiff⟩ := hf u hsound hdone.1 hdone.2
      refine ⟨hsoundf, fun h => hiff.trans ?_⟩
      have hcancels := (cancelCurrentRequest_unstuck config env hs h).2
      rw [hcancel] at hcancels
      exact and_congr_left fun _ => hcancels

theorem start_follows (config : TrackerConfig) (env : Environment) (hs : s.Sound) :
    Follows config env s (s.start config env) (Announces s.announceList env) := by
  refine follows_of_cancel config env hs (f := fun u => ({ u with updateEvent := true }.beginNewRequest .started env).1)
    (fun u hu hnone hlist => ⟨?_, ?_⟩) rfl
  · exact beginNewRequest_sound .started env (hu.of_same rfl rfl rfl rfl rfl)
  · have hiff := beginNewRequest_unstuck_iff (s := { u with updateEvent := true }) .started env hnone
    have hsame : ({ u with updateEvent := true } : Rerequester).Unstuck ↔ u.Unstuck :=
      ⟨fun h => h.of_same rfl rfl rfl, fun h => h.of_same rfl rfl rfl⟩
    rw [hsame] at hiff
    rw [← hlist]
    exact hiff

theorem finish_follows (config : TrackerConfig) (env : Environment) (hs : s.Sound) :
    Follows config env s (s.finish config env) (Announces s.announceList env) := by
  refine follows_of_cancel config env hs (f := fun u => (u.beginNewRequest .completed env).1)
    (fun u hu hnone hlist => ⟨beginNewRequest_sound .completed env hu, ?_⟩) rfl
  rw [← hlist]
  exact beginNewRequest_unstuck_iff .completed env hnone

theorem forceStop_follows (config : TrackerConfig) (env : Environment) (hs : s.Sound) :
    Follows config env s (s.forceStop config env) True := by
  refine follows_of_cancel config env hs (f := id) (fun u hu _ _ => ⟨hu, (and_iff_left trivial).symm⟩) ?_
  unfold forceStop
  split <;> simp [*]

/-- The rest of `stop`, after the cancellation. -/
def announceStopped (env : Environment) (s : Rerequester) : Rerequester :=
  if env.canAnnounce then
    match s.beginNewRequest .stopped env with
    | (s, true) => s
    | (s, false) => { s with currentDeferred := some true }
  else s

theorem announceStopped_same (env : Environment) (s : Rerequester) (hcan : env.canAnnounce = true) :
    (s.announceStopped env).sequences = (s.beginNewRequest .stopped env).1.sequences ∧
    (s.announceStopped env).count = (s.beginNewRequest .stopped env).1.count ∧
    (s.announceStopped env).currentRequest = (s.beginNewRequest .stopped env).1.currentRequest ∧
    (s.announceStopped env).announceList = (s.beginNewRequest .stopped env).1.announceList ∧
    (s.announceStopped env).raised = (s.beginNewRequest .stopped env).1.raised := by
  unfold announceStopped
  rw [if_pos hcan]
  split <;> simp [*]

theorem stop_follows (config : TrackerConfig) (env : Environment) (hs : s.Sound) :
    Follows config env s (s.stop config env) (Announces s.announceList env) := by
  refine follows_of_cancel config env hs (f := announceStopped env) (fun u hu hnone hlist => ?_) rfl
  rw [← hlist]
  cases hcan : env.canAnnounce with
  | false =>
    have hsame : u.announceStopped env = u := by simp [announceStopped, hcan]
    rw [hsame]
    exact ⟨hu, (and_iff_left fun h => absurd (hcan.symm.trans h) Bool.false_ne_true).symm⟩
  | true =>
    obtain ⟨hsequences, hcount, hcurrent, hannounce, hraised⟩ := u.announceStopped_same env hcan
    refine ⟨(beginNewRequest_sound .stopped env hu).of_same hsequences hcount hcurrent hannounce hraised, ?_⟩
    rw [← beginNewRequest_unstuck_iff .stopped env hnone]
    exact ⟨fun h => h.of_same hsequences.symm hcount.symm hcurrent.symm, fun h => h.of_same hsequences hcount hcurrent⟩

theorem start_unstuck_iff (config : TrackerConfig) (env : Environment) (hnone : s.currentRequest = none) :
    (s.start config env).Unstuck ↔ s.Unstuck ∧ Announces s.announceList env := by
  have hcancel : s.cancelCurrentRequest config env = (s.fireDeferred, false) := by
    simp [cancelCurrentRequest, hnone]
  have hfreed := fireDeferred_freed hnone
  have hiff := beginNewRequest_unstuck_iff (s := { s.fireDeferred with updateEvent := true }) .started env
    hfreed.currentRequest
  have hsame : ({ s.fireDeferred with updateEvent := true } : Rerequester).Unstuck ↔ s.Unstuck :=
    ⟨fun h => h.of_same hfreed.sequences.symm hfreed.count.symm (hnone.trans hfreed.currentRequest.symm),
      fun h => h.of_same hfreed.sequences hfreed.count (hfreed.currentRequest.trans hnone.symm)⟩
  rw [hsame] at hiff
  unfold start
  rw [hcancel, ← fireDeferred_announceList s]
  exact hiff

/-- Nothing runs, and then the list may be any other. -/
theorem Sound.setAnnounceList (hs : s.Sound) (hnone : s.currentRequest = none) (l : List (List Tracker)) :
    ({ s with announceList := l } : Rerequester).Sound :=
  hs.freed ⟨rfl, rfl, hnone, id⟩ (hs.idle_of_none hnone)

theorem setTrackers_follows (config : TrackerConfig) (urlList : List (List Char)) (env : Environment) (hs : s.Sound)
    {hasNew removed : Bool} (hchanges : s.changes urlList = .ok (hasNew, removed)) (hany : (hasNew || removed) = true) :
    Follows config env s (s.setTrackers config urlList env)
      (hasNew = true → Announces [makeAnnounceTier urlList] env) := by
  refine follows_of_cancel config env hs (f := fun u =>
    if hasNew then ({ u with announceList := [makeAnnounceTier urlList], currentStatus := none } : Rerequester).start config env
    else { u with announceList := [makeAnnounceTier urlList] }) (fun u hu hnone _ => ?_) ?_
  · have hlist := hu.setAnnounceList hnone [makeAnnounceTier urlList]
    cases hasNew with
    | false =>
      refine ⟨hlist, ?_⟩
      refine Iff.trans ?_ (and_iff_left nofun).symm
      exact ⟨fun h => h.of_same rfl rfl rfl, fun h => h.of_same rfl rfl rfl⟩
    | true =>
      have hstart := start_follows config env
        (s := { u with announceList := [makeAnnounceTier urlList], currentStatus := none }) (hlist.of_same rfl rfl rfl rfl rfl)
      have hiff := start_unstuck_iff config env
        (s := { u with announceList := [makeAnnounceTier urlList], currentStatus := none }) hnone
      have hsame : ({ u with announceList := [makeAnnounceTier urlList], currentStatus := none } : Rerequester).Unstuck ↔
          u.Unstuck := ⟨fun h => h.of_same rfl rfl rfl, fun h => h.of_same rfl rfl rfl⟩
      refine ⟨hstart.sound, (hiff.trans (and_congr_left fun _ => hsame)).trans (and_congr_right fun _ => ?_)⟩
      exact ⟨fun h _ => h, fun h => h rfl⟩
  · unfold setTrackers
    rw [hchanges]
    cases hasNew <;> cases removed
    · cases hany
    all_goals rfl

theorem width_addTrackers (urls : List (List (List Char))) (l : List (List Tracker)) (i : Nat) :
    width l i ≤ width (addTrackers urls l) i := by
  induction urls generalizing l i with
  | nil => exact Nat.le_refl _
  | cons tier urls ih =>
    unfold addTrackers
    split
    · exact Nat.le_refl _
    · cases l with
      | nil => simp [width]
      | cons row rows =>
        cases i with
        | zero => simp [width]
        | succ i => exact ih rows i

theorem Sound.addTrackers (hs : s.Sound) (urls : List (List (List Char))) :
    ({ s with announceList := addTrackers urls s.announceList } : Rerequester).Sound :=
  { hs with
    covers := fun n hn hrun p hp => mem_positions.mpr
      (Nat.lt_of_lt_of_le (mem_positions.mp (hs.covers n hn hrun p hp)) (width_addTrackers urls s.announceList p.1)) }

theorem currentRequest_of_shouldAnnounce {config : TrackerConfig} {howmany : Nat} {now : Rat}
    (h : s.shouldAnnounce config howmany now = true) : s.currentRequest = none := by
  simp only [shouldAnnounce, Bool.and_eq_true, decide_eq_true_eq] at h
  exact h.1.1

/-- What keeps the announcements going: a sequence that is stopped does not turn to an empty tier, a new one
gets to a tracker that does not fail at once, and one that goes on is not left without a tracker. -/
def Proper (config : TrackerConfig) (s : Rerequester) : TrackerAction → Prop
  | .start env | .stop env | .finish env => s.Cancels env ∧ Announces s.announceList env
  | .forceStop env => s.Cancels env
  | .setTrackers urlList env =>
    match s.changes urlList with
    | .ok (hasNew, removed) => (hasNew || removed) = true →
        s.Cancels env ∧ (hasNew = true → Announces [makeAnnounceTier urlList] env)
    | .error _ => True
  | .addTrackers _ => True
  | .update force env => force = true ∧ s.currentRequest = none → Announces s.announceList env
  | .onUpdate howmany env => s.shouldAnnounce config howmany env.now = true → Announces s.announceList env
  | .trackerSuccess n p response _ env =>
    (s.sequences n).isRunning = true → ((s.sequences n).tracker p).finished = false →
      (((s.sequences n).tracker p).onSuccess response).data = none →
      (contactAfter (s.sequences n).announceList env.answers p).raises = false
  | .trackerFailure n p failure circuitDead env =>
    (s.sequences n).isRunning = true → ((s.sequences n).tracker p).finished = false →
      (failureContact p failure circuitDead env.answers (s.sequences n)).raises = false

/-- One step keeps what holds always, and nothing gets stuck exactly when it is a proper one. -/
theorem step_unstuck (config : TrackerConfig) {a : TrackerAction} (hs : s.Sound) (hstep : step config s a = some t) :
    t.Sound ∧ (s.Unstuck → (t.Unstuck ↔ s.Proper config a)) := by
  cases a with
  | start env =>
    obtain rfl := Option.some.inj hstep
    have h := start_follows config env hs
    exact ⟨h.sound, h.unstuck⟩
  | forceStop env =>
    obtain rfl := Option.some.inj hstep
    have h := forceStop_follows config env hs
    exact ⟨h.sound, fun hu => (h.unstuck hu).trans (and_iff_left trivial)⟩
  | stop env =>
    obtain rfl := Option.some.inj hstep
    have h := stop_follows config env hs
    exact ⟨h.sound, h.unstuck⟩
  | finish env =>
    obtain rfl := Option.some.inj hstep
    have h := finish_follows config env hs
    exact ⟨h.sound, h.unstuck⟩
  | setTrackers urlList env =>
    obtain rfl := Option.some.inj hstep
    cases hchanges : s.changes urlList with
    | error e =>
      have hsame : s.setTrackers config urlList env = s := by simp [setTrackers, hchanges]
      rw [hsame]
      exact ⟨hs, fun h => iff_of_true h (by simp [Proper, hchanges])⟩
    | ok changed =>
      obtain ⟨hasNew, removed⟩ := changed
      cases hany : hasNew || removed with
      | false =>
        obtain ⟨rfl, rfl⟩ := Bool.or_eq_false_iff.mp hany
        have hsame : s.setTrackers config urlList env = s := by simp [setTrackers, hchanges]
        rw [hsame]
        exact ⟨hs, fun h => iff_of_true h (by simp [Proper, hchanges])⟩
      | true =>
        have h := setTrackers_follows config urlList env hs hchanges hany
        refine ⟨h.sound, fun hu => (h.unstuck hu).trans ?_⟩
        simp only [Proper, hchanges, hany, forall_const]
  | addTrackers torrentData =>
    obtain rfl := Option.some.inj hstep
    exact ⟨hs.addTrackers _, fun h => iff_of_true (h.of_same rfl rfl rfl) trivial⟩
  | update force env =>
    obtain rfl := Option.some.inj hstep
    unfold update
    split
    case isTrue hforce =>
      refine ⟨announce_sound env hs, fun h => (announce_unstuck_iff env hforce.2).trans ?_⟩
      exact ⟨fun h _ => h.2, fun hproper => ⟨h, hproper hforce⟩⟩
    case isFalse hforce => exact ⟨hs, fun h => iff_of_true h fun hboth => absurd hboth hforce⟩
  | onUpdate howmany env =>
    obtain ⟨-, ⟨⟩⟩ := Option.ite_none_right_eq_some.mp hstep
    unfold onUpdate
    split
    case isTrue hshould =>
      refine ⟨announce_sound env hs, fun h => (announce_unstuck_iff env (currentRequest_of_shouldAnnounce hshould)).trans ?_⟩
      exact ⟨fun h _ => h.2, fun hproper => ⟨h, hproper hshould⟩⟩
    case isFalse hshould => exact ⟨hs, fun h => iff_of_true h fun hboth => absurd hboth hshould⟩
  | trackerSuccess n p response connects env =>
    obtain ⟨⟨hn, hp⟩, ⟨⟩⟩ := Option.ite_none_right_eq_some.mp hstep
    exact trackerSuccess_step hs hn hp
  | trackerFailure n p failure circuitDead env =>
    obtain ⟨⟨hn, hp⟩, ⟨⟩⟩ := Option.ite_none_right_eq_some.mp hstep
    exact trackerFailure_step hs hn hp

/-- Every sequence goes through its trackers in order, none of them twice, all but the last in vain and
none after one that answered; no lookup goes beyond a tier; and a current request is one that runs, has its
callbacks and waits for a tracker. -/
structure Alive (s : Rerequester) : Prop where
  inOrder : ∀ n < s.count, (s.sequences n).tried <+: positions (s.sequences n).announceList
  once : ∀ n < s.count, (s.sequences n).tried.Nodup
  failed : ∀ n < s.count, ∀ q ∈ (s.sequences n).tried.dropLast, ((s.sequences n).tracker q).Failed
  answered : ∀ n < s.count, ∀ q ∈ (s.sequences n).tried, ((s.sequences n).tracker q).data.isSome = true →
    (s.sequences n).isRunning = false
  inside : (∀ n < s.count, .indexError ∉ (s.sequences n).raised) ∧ .indexError ∉ s.raised
  running : ∀ n, s.currentRequest = some n → (s.sequences n).isRunning = true ∧ (s.sequences n).attached = true ∧
    ((s.sequences n).tracker (s.sequences n).position).requesting = true ∧
    ((s.sequences n).tracker (s.sequences n).position).finished = false

theorem answered_not_running {r : RequestSequence} (h : r.Regular) {q : Nat × Nat} (hq : q ∈ r.tried)
    (hdata : (r.tracker q).data.isSome = true) : r.isRunning = false := by
  rw [Bool.eq_false_iff]
  intro hrun
  have hnone : (r.tracker q).data = none := by
    rcases h.going hrun with hw | ⟨e, hstuck⟩
    · rw [hw.tried] at hq
      rcases List.mem_append.mp hq with hq | hq
      · exact (hw.failed q hq).2
      · rw [List.mem_singleton.mp hq]
        exact hw.opened.2
    · exact (hstuck.failed q hq).2
  rw [hnone] at hdata
  cases hdata

theorem Sound.alive_iff (hs : s.Sound) : s.Alive ↔ s.Unstuck := by
  constructor
  · intro h
    refine ⟨h.inside.1, fun n hn => ?_⟩
    obtain ⟨hrun, -, hrequesting, hopen⟩ := h.running n hn
    exact ((hs.regular n (hs.current n hn)).waiting_of_requesting hrun hrequesting hopen).1
  · intro h
    exact {
      inOrder := fun n hn => (hs.regular n hn).tried
      once := fun n hn => (nodup_positions _).sublist (hs.regular n hn).tried.sublist
      failed := fun n hn => (hs.regular n hn).failed
      answered := fun n hn q hq hdata => answered_not_running (hs.regular n hn) hq hdata
      inside := ⟨h.inside, hs.clean⟩
      running := fun n hn => by
        have hw := h.waiting n hn
        exact ⟨hw.isRunning, hs.attached n (hs.current n hn) hw.isRunning hw.found, hw.requesting, hw.opened.1⟩ }

section Runs

variable {torrentData : TorrentData} {shuffle : Nat → List Tracker → List Tracker} {s₀ : Rerequester}

theorem new_sound (h : new config torrentData shuffle = some s₀) : s₀.Sound ∧ s₀.Unstuck := by
  obtain ⟨-, ⟨⟩⟩ := Option.ite_none_left_eq_some.mp h
  constructor
  · refine ⟨fun n hn => ?_, nofun, fun n hn => ?_, fun n hn => ?_, fun n hn => ?_, List.not_mem_nil⟩
    all_goals exact absurd hn (Nat.not_lt_zero _)
  · exact ⟨fun n hn => absurd hn (Nat.not_lt_zero _), nofun⟩

theorem run_sound (h : new config torrentData shuffle = some s₀) {as : List TrackerAction}
    (hrun : Run (step config) (fun _ _ => True) s₀ as s) : s.Sound :=
  hrun.invariant (fun hs _ hstep => (step_unstuck config hs hstep).1) (new_sound h).1

/-- Announcing goes on all along a run exactly when each of its steps is a proper one. -/
theorem alive_iff_proper (h : new config torrentData shuffle = some s₀) {as : List TrackerAction}
    (hrun : Run (step config) (fun _ _ => True) s₀ as s) :
    (∀ start t, start <+: as → Run (step config) (fun _ _ => True) s₀ start t → t.Alive) ↔
      EachStep (step config) (Proper config) s₀ as :=
  hrun.forall_prefix_iff (I := fun s => s.Sound ∧ s.Unstuck) (fun hs => hs.1.alive_iff.mpr hs.2)
    (fun hs hstep hproper =>
      have hnext := step_unstuck config hs.1 hstep
      ⟨hnext.1, (hnext.2 hs.2).mpr hproper⟩)
    (fun hs hstep halive =>
      have hnext := step_unstuck config hs.1 hstep
      (hnext.2 hs.2).mp (hnext.1.alive_iff.mp halive)) (new_sound h)

end Runs

instance (env : Environment) (s : Rerequester) : Decidable (s.Cancels env) :=
  inferInstanceAs (Decidable (∀ n ∈ s.currentRequest, contactAfter (s.sequences n).announceList env.cancelAnswers
    (s.sequences n).position ≠ .raised .indexError))

instance (l : List (List Tracker)) (env : Environment) : Decidable (Announces l env) :=
  inferInstanceAs (Decidable (env.canAnnounce = true → contact l env.answers (0, 0) = .waiting))

instance (config : TrackerConfig) (s : Rerequester) : ∀ a, Decidable (s.Proper config a)
  | .start env | .stop env | .finish env => inferInstanceAs (Decidable (s.Cancels env ∧ Announces s.announceList env))
  | .forceStop env => inferInstanceAs (Decidable (s.Cancels env))
  | .setTrackers urlList env =>
    show Decidable (match s.changes urlList with
      | .ok (hasNew, removed) => (hasNew || removed) = true →
          s.Cancels env ∧ (hasNew = true → Announces [makeAnnounceTier urlList] env)
      | .error _ => True) from
    match s.changes urlList with
    | .ok (hasNew, removed) => inferInstanceAs (Decidable ((hasNew || removed) = true →
        s.Cancels env ∧ (hasNew = true → Announces [makeAnnounceTier urlList] env)))
    | .error _ => isTrue trivial
  | .addTrackers _ => isTrue trivial
  | .update force env =>
    inferInstanceAs (Decidable (force = true ∧ s.currentRequest = none → Announces s.announceList env))
  | .onUpdate howmany env =>
    inferInstanceAs (Decidable (s.shouldAnnounce config howmany env.now = true → Announces s.announceList env))
  | .trackerSuccess n p response _ env =>
    inferInstanceAs (Decidable ((s.sequences n).isRunning = true → ((s.sequences n).tracker p).finished = false →
      (((s.sequences n).tracker p).onSuccess response).data = none →
      (contactAfter (s.sequences n).announceList env.answers p).raises = false))
  | .trackerFailure n p failure circuitDead env =>
    inferInstanceAs (Decidable ((s.sequences n).isRunning = true → ((s.sequences n).tracker p).finished = false →
      (failureContact p failure circuitDead env.answers (s.sequences n)).raises = false))

def exampleConfig : TrackerConfig where
  minPeers := 20
  rerequestInterval := 300
  maxAnnounceRetryInterval := 1800

def exampleTorrent : TorrentData where
  announceList := some [[['a']], [['b'], ['u', 'd', 'p', ':', '/', '/', 'c']]]
  announce := ['a']

def exampleEnvironment (answers : List (Option String)) : Environment where
  canAnnounce := true
  cancelAnswers := []
  answers := answers
  now := 1000
  random := 0

def exampleResponse : Response where
  failureMessage := none
  failureReason := none
  warningMessage := none
  interval := some 600
  minInterval := none

/-- The first tracker refuses at once and the second one answers; later the torrent is stopped. -/
def exampleActions : List TrackerAction :=
  [.start (exampleEnvironment [some "refused"]), .addTrackers exampleTorrent,
   .trackerSuccess 0 (1, 0) (some exampleResponse) true (exampleEnvironment []),
   .onUpdate 3 (exampleEnvironment []), .stop (exampleEnvironment []),
   .trackerFailure 1 (0, 0) .timeoutError true (exampleEnvironment []),
   .trackerFailure 1 (0, 0) .connectionClosed true (exampleEnvironment [])]

theorem example_announcing_alive : ∃ s₀ s, new exampleConfig exampleTorrent (fun _ tier => tier) = some s₀ ∧
    Run (step exampleConfig) (fun _ _ => True) s₀ exampleActions s ∧
    ((s.sequences 0).tried, (s.sequences 0).fired, (s.sequences 1).tried, s.currentRequest) =
      ([(0, 0), (1, 0)], [.success], [(0, 0), (1, 0)], some 1) ∧
    ∀ start t, start <+: exampleActions → Run (step exampleConfig) (fun _ _ => True) s₀ start t → t.Alive := by
  have hend : (new exampleConfig exampleTorrent (fun _ tier => tier)).any (fun s₀ =>
      (exec (step exampleConfig) s₀ exampleActions).any (fun s =>
        ((s.sequences 0).tried, (s.sequences 0).fired, (s.sequences 1).tried, s.currentRequest) =
          ([(0, 0), (1, 0)], [.success], [(0, 0), (1, 0)], some 1)) &&
      decide (EachStep (step exampleConfig) (Proper exampleConfig) s₀ exampleActions)) = true := by
    decide +kernel
  obtain ⟨s₀, hnew, hs₀⟩ := (Option.any_eq_true _ _).mp hend
  obtain ⟨hexec, hproper⟩ := Bool.and_eq_true_iff.mp hs₀
  obtain ⟨s, hrun, hs⟩ := exists_run hexec (eachStep_true _ _)
  exact ⟨s₀, s, hnew, hrun, of_decide_eq_true hs, (alive_iff_proper hnew hrun).mpr (of_decide_eq_true hproper)⟩

/-- Both trackers refuse at once: the deferred has fired before there were callbacks on it. -/
theorem refused_announcement_stuck : ∃ s₀ s, new exampleConfig exampleTorrent (fun _ tier => tier) = some s₀ ∧
    Run (step exampleConfig) (fun _ _ => True) s₀ [.start (exampleEnvironment [some "refused", some "refused"])] s ∧
    s.currentRequest = some 0 ∧ (s.sequences 0).isRunning = false ∧ ¬s.Alive := by
  have hend : (new exampleConfig exampleTorrent (fun _ tier => tier)).any (fun s₀ =>
      (exec (step exampleConfig) s₀ [.start (exampleEnvironment [some "refused", some "refused"])]).any (fun s =>
        s.currentRequest = some 0 ∧ (s.sequences 0).isRunning = false)) = true := by
    decide
  obtain ⟨s₀, hnew, hexec⟩ := (Option.any_eq_true _ _).mp hend
  obtain ⟨s, hrun, hs⟩ := exists_run hexec (eachStep_true _ _)
  obtain ⟨hcurrent, hnot⟩ := of_decide_eq_true hs
  exact ⟨s₀, s, hnew, hrun, hcurrent, hnot, fun h =>
    Bool.false_ne_true (hnot.symm.trans (h.running 0 hcurrent).1)⟩

end Rerequester

end BitBlinder.BitTorrent
