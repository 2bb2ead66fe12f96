import BitBlinder.Tiers
import Mathlib.Logic.Function.Basic

/-!
# Asking the trackers of a torrent one after the other

A `RequestSequence` starts the trackers of an announce list in the order of the tiers
until one of them answers. A request that `send_tracker_request` refuses fails before
`start` returns, and then the next tracker is started from inside of the failure:
`answers` has the outcomes of the requests that one event makes, the text of the
failure for those that fail at once. `tried` and `sent` list the trackers that were
started and the requests that were sent, `fired` what the deferred was given and
`raised` the errors of looking up a tracker; no function reads them.
-/

namespace BitBlinder.BitTorrent

open Tiers

set_option autoImplicit false

/-- An entry of an announce list. One that was taken from the torrent as it is has no `start`. -/
inductive Tracker where
  | connection (baseURL : List Char)
  | url (text : List Char)
  deriving DecidableEq

inductive LookupError where
  | indexError
  | attributeError
  deriving DecidableEq

inductive SequenceResult where
  | success
  | cancelled
  | exhausted
  deriving DecidableEq

inductive TrackerFailure where
  | cancelled
  | timeoutError
  | socksConnectError
  | tcpTimedOutError
  | connectError
  | connectionClosed
  | webError (text : String)
  | other (text : String)

namespace TrackerFailure

def retries : TrackerFailure → Bool
  | timeoutError | socksConnectError => true
  | cancelled | tcpTimedOutError | connectError | connectionClosed | webError _ | other _ => false

def errorMsg : TrackerFailure → String
  | cancelled => "Cancelled"
  | timeoutError | tcpTimedOutError => "timeout"
  | socksConnectError | connectError => "unreachable"
  | connectionClosed => "closed connection"
  | webError text | other text => text

end TrackerFailure

structure Response where
  failureMessage : Option String
  failureReason : Option String
  warningMessage : Option String
  interval : Option Rat
  minInterval : Option Rat

/-- Python's truth of a text that may be missing. -/
def truthy (text : Option String) : Bool := text.any fun s => s != ""

structure TrackerConnection where
  numRetries : Nat
  started : Bool
  finished : Bool
  requesting : Bool
  trackerError : Option String
  trackerWarning : Option String
  errorMsg : Option String
  data : Option Response

namespace TrackerConnection

def new : TrackerConnection where
  numRetries := 0
  started := false
  finished := false
  requesting := false
  trackerError := none
  trackerWarning := none
  errorMsg := none
  data := none

def maxRetries : Nat := 3

/-- A tracker whose circuit failed is asked again, and then it is not finished. -/
def onFailure (failure : TrackerFailure) (circuitDead : Bool) (t : TrackerConnection) : TrackerConnection :=
  if circuitDead ∧ failure.retries ∧ t.numRetries < maxRetries then { t with numRetries := t.numRetries + 1 }
  else { t with errorMsg := some failure.errorMsg, finished := true }

/-- `none` is a response that cannot be decoded. -/
def onSuccess (response : Option Response) (t : TrackerConnection) : TrackerConnection :=
  match response with
  | none => { t with errorMsg := some "Bad data from tracker", finished := true }
  | some r =>
    let trackerError := r.failureReason <|> r.failureMessage
    if truthy trackerError then { t with trackerError, errorMsg := trackerError, finished := true }
    else { t with trackerError, trackerWarning := r.warningMessage, data := some r, finished := true }

end TrackerConnection

/-- The trackers of the copied list that the sequence has are found by their position. -/
structure RequestSequence where
  announceList : List (List Tracker)
  tracker : Nat × Nat → TrackerConnection
  isRunning : Bool
  deferred : Bool
  attached : Bool
  tier : Nat
  announceI : Nat
  tried : List (Nat × Nat)
  sent : List (Nat × Nat)
  fired : List SequenceResult
  raised : List LookupError

/-- A string has no method to be called, and beyond the end of a tier there is nothing at all. -/
def lookup (announceList : List (List Tracker)) (p : Nat × Nat) : Except LookupError (Nat × Nat) :=
  match get? announceList p with
  | none => .error .indexError
  | some (.url _) => .error .attributeError
  | some (.connection _) => .ok p

namespace RequestSequence

def new (announceList : List (List Tracker)) : RequestSequence where
  announceList := announceList
  tracker := fun _ => .new
  isRunning := false
  deferred := false
  attached := false
  tier := 0
  announceI := 0
  tried := []
  sent := []
  fired := []
  raised := []

def setTracker (p : Nat × Nat) (t : TrackerConnection) (r : RequestSequence) : RequestSequence :=
  { r with tracker := Function.update r.tracker p t }

def position (r : RequestSequence) : Nat × Nat := (r.tier, r.announceI)

def announceListNext (r : RequestSequence) : Except LookupError (Nat × Nat) := lookup r.announceList r.position

/-- Whether the list was restarted, and the sequence that goes on. -/
def announceListFail (r : RequestSequence) : Bool × RequestSequence :=
  let r := { r with announceI := r.announceI + 1 }
  if r.announceI = width r.announceList r.tier then
    let r := { r with announceI := 0, tier := r.tier + 1 }
    if r.tier = r.announceList.length then (true, { r with tier := 0 }) else (false, r)
  else (false, r)

def fire (result : SequenceResult) (r : RequestSequence) : RequestSequence :=
  if r.isRunning then { r with isRunning := false, deferred := false, fired := r.fired ++ [result] } else r

def error (e : LookupError) (r : RequestSequence) : RequestSequence := { r with raised := r.raised ++ [e] }

/-- The start of a tracker, up to its request. -/
def begin (p : Nat × Nat) (r : RequestSequence) : RequestSequence :=
  { r.setTracker p { r.tracker p with started := true } with tried := r.tried ++ [p] }

/-- `_tracker_done` after a failure: the next tracker to be started, if there is one. -/
def goOn (r : RequestSequence) : RequestSequence × Option (Nat × Nat) :=
  if r.isRunning then
    match r.announceListFail with
    | (true, r) => (r.fire .exhausted, none)
    | (false, r) =>
      match r.announceListNext with
      | .error e => (r.error e, none)
      | .ok p => (r.begin p, some p)
  else (r, none)

/-- A request to the tracker at `p`, with what follows when it fails at once. There is no dead circuit then,
so that the tracker is done. -/
def send : List (Option String) → Nat × Nat → RequestSequence → RequestSequence
  | some text :: answers, p, r =>
    let r := { r.setTracker p ((r.tracker p).onFailure (.other text) false) with sent := r.sent ++ [p] }
    match r.goOn with
    | (r, some q) => send answers q r
    | (r, none) => r
  | _, p, r => { r.setTracker p { r.tracker p with requesting := true } with sent := r.sent ++ [p] }

def trackerDone (didSucceed : Bool) (answers : List (Option String)) (r : RequestSequence) : RequestSequence :=
  if didSucceed then r.fire .success
  else
    match r.goOn with
    | (r, some q) => send answers q r
    | (r, none) => r

def onFailure (p : Nat × Nat) (failure : TrackerFailure) (circuitDead : Bool) (answers : List (Option String))
    (r : RequestSequence) : RequestSequence :=
  if (r.tracker p).finished then r
  else
    let t := (r.tracker p).onFailure failure circuitDead
    if t.finished then (r.setTracker p t).trackerDone false answers else send answers p (r.setTracker p t)

def onSuccess (p : Nat × Nat) (response : Option Response) (answers : List (Option String)) (r : RequestSequence) :
    RequestSequence :=
  if (r.tracker p).finished then r
  else
    let t := (r.tracker p).onSuccess response
    (r.setTracker p t).trackerDone t.data.isSome answers

/-- What the lookup of the first tracker raises comes out of `start`. -/
def start (answers : List (Option String)) (r : RequestSequence) : RequestSequence × Bool :=
  if r.isRunning then (r, false)
  else
    let r := { r with isRunning := true, tier := 0, announceI := 0, deferred := true }
    match r.announceListNext with
    | .error e => (r.error e, true)
    | .ok p => (send answers p (r.begin p), false)

/-- `stop`, and whether it raises. -/
def stop (answers : List (Option String)) (r : RequestSequence) : RequestSequence × Bool :=
  if r.isRunning then
    match r.announceListNext with
    | .error e => (r.error e, true)
    | .ok p => ((r.onFailure p .cancelled false answers).fire .cancelled, false)
  else (r, false)

end RequestSequence

/-- How far it goes with the trackers from a position on, when those that fail at once are left behind. -/
inductive Contact where
  | waiting
  | exhausted
  | raised (e : LookupError)
  deriving DecidableEq

def Contact.errors : Contact → List LookupError
  | waiting | exhausted => []
  | raised e => [e]

def Contact.raises : Contact → Bool
  | waiting | exhausted => false
  | raised _ => true

def contact (announceList : List (List Tracker)) : List (Option String) → Nat × Nat → Contact
  | some _ :: answers, p =>
    match lookup announceList p with
    | .error e => .raised e
    | .ok _ =>
      match following announceList p with
      | none => .exhausted
      | some q => contact announceList answers q
  | _, p =>
    match lookup announceList p with
    | .error e => .raised e
    | .ok _ => .waiting

def contactAfter (announceList : List (List Tracker)) (answers : List (Option String)) (p : Nat × Nat) : Contact :=
  match following announceList p with
  | none => .exhausted
  | some q => contact announceList answers q

theorem mem_positions_of_lookup {l : List (List Tracker)} {p q : Nat × Nat} (h : lookup l p = .ok q) : p ∈ positions l := by
  unfold lookup at h
  split at h
  · cases h
  · cases h
  · exact mem_positions_of_get? ‹_›

theorem eq_of_lookup {l : List (List Tracker)} {p q : Nat × Nat} (h : lookup l p = .ok q) : q = p := by
  unfold lookup at h
  split at h
  · cases h
  · cases h
  · exact (Except.ok.inj h).symm

theorem contact_of_error {l : List (List Tracker)} {answers : List (Option String)} {p : Nat × Nat} {e : LookupError}
    (h : lookup l p = .error e) : contact l answers p = .raised e := by
  unfold contact
  split <;> rw [h]

namespace TrackerConnection

def Failed (t : TrackerConnection) : Prop := t.finished = true ∧ t.data = none

def Open (t : TrackerConnection) : Prop := t.finished = false ∧ t.data = none

variable {t : TrackerConnection}

theorem onFailure_data (failure : TrackerFailure) (circuitDead : Bool) : (t.onFailure failure circuitDead).data = t.data := by
  unfold onFailure
  split <;> rfl

theorem onFailure_finished_of_not_retries {failure : TrackerFailure} (h : failure.retries = false) (circuitDead : Bool) :
    (t.onFailure failure circuitDead).finished = true := by
  unfold onFailure
  rw [if_neg]
  rintro ⟨-, hretries, -⟩
  exact Bool.false_ne_true (h.symm.trans hretries)

theorem onSuccess_finished (response : Option Response) : (t.onSuccess response).finished = true := by
  unfold onSuccess
  split
  · rfl
  · dsimp only
    split <;> rfl

end TrackerConnection

namespace RequestSequence

open TrackerConnection

variable {r r' : RequestSequence} {p q : Nat × Nat} {answers : List (Option String)}

/-- Trackers are tried in the order of the list, all but the last one in vain. -/
structure InOrder (r : RequestSequence) : Prop where
  tried : r.tried <+: positions r.announceList
  failed : ∀ q ∈ r.tried.dropLast, (r.tracker q).Failed
  fresh : ∀ q ∉ r.tried, r.tracker q = .new

/-- The sequence has not ended. -/
structure Going (r : RequestSequence) : Prop where
  isRunning : r.isRunning = true
  deferred : r.deferred = true
  fired : r.fired = []
  fresh : ∀ q ∉ r.tried, r.tracker q = .new

/-- The tracker at the position was started, and is not done. -/
structure Begun (r : RequestSequence) : Prop extends Going r where
  found : lookup r.announceList r.position = .ok r.position
  tried : r.tried = before r.announceList r.position ++ [r.position]
  failed : ∀ q ∈ before r.announceList r.position, (r.tracker q).Failed
  opened : (r.tracker r.position).Open

structure Waiting (r : RequestSequence) : Prop extends Begun r where
  requesting : (r.tracker r.position).requesting = true

/-- The tracker at the position has failed. -/
structure Over (r : RequestSequence) : Prop extends Going r where
  position : r.position ∈ positions r.announceList
  tried : r.tried = before r.announceList r.position ++ [r.position]
  failed : ∀ q ∈ r.tried, (r.tracker q).Failed

/-- There is no tracker at the position. -/
structure Stuck (e : LookupError) (r : RequestSequence) : Prop extends Going r where
  missing : lookup r.announceList r.position = .error e
  position : before r.announceList r.position <+: positions r.announceList
  tried : r.tried = before r.announceList r.position
  failed : ∀ q ∈ r.tried, (r.tracker q).Failed

structure Ended (result : SequenceResult) (r : RequestSequence) : Prop extends InOrder r where
  isRunning : r.isRunning = false
  fired : r.fired = [result]

theorem Begun.inOrder (h : r.Begun) : r.InOrder where
  tried := h.tried ▸ prefix_of_mem (mem_positions_of_lookup h.found)
  failed q hq := h.failed q (by simpa [h.tried] using hq)
  fresh := h.fresh

theorem Over.inOrder (h : r.Over) : r.InOrder where
  tried := h.tried ▸ prefix_of_mem h.position
  failed q hq := h.failed q (List.dropLast_subset _ hq)
  fresh := h.fresh

theorem Stuck.inOrder {e : LookupError} (h : r.Stuck e) : r.InOrder where
  tried := h.tried ▸ h.position
  failed q hq := h.failed q (List.dropLast_subset _ hq)
  fresh := h.fresh

theorem announceListFail_eq (r : RequestSequence) :
    r.announceListFail = match following r.announceList r.position with
      | none => (true, { r with tier := 0, announceI := 0 })
      | some q => (false, { r with tier := q.1, announceI := q.2 }) := by
  unfold announceListFail following position
  dsimp only
  split
  · split <;> rfl
  · rfl

def Reached : Contact → RequestSequence → Prop
  | .waiting, r => r.Waiting
  | .exhausted, r => r.Ended .exhausted
  | .raised e, r => r.Stuck e

/-- What becomes of a sequence while it goes through its trackers. -/
structure Leads (c : Contact) (r r' : RequestSequence) : Prop where
  announceList : r'.announceList = r.announceList
  attached : r'.attached = r.attached
  raised : r'.raised = r.raised ++ c.errors
  reached : Reached c r'

/-- The next tracker, when there is one to be started. -/
structure Next (q : Nat × Nat) (r r' : RequestSequence) : Prop where
  announceList : r'.announceList = r.announceList
  attached : r'.attached = r.attached
  raised : r'.raised = r.raised
  position : r'.position = q
  begun : r'.Begun

theorem Next.leads {c : Contact} {r'' : RequestSequence} (h : Next q r r') (h' : Leads c r' r'') : Leads c r r'' where
  announceList := h'.announceList.trans h.announceList
  attached := h'.attached.trans h.attached
  raised := h'.raised.trans (congrArg (· ++ c.errors) h.raised)
  reached := h'.reached

theorem Over.goOn_none (h : r.Over) (hnext : following r.announceList r.position = none) :
    r.goOn = ({ r with tier := 0, announceI := 0 }.fire .exhausted, none) ∧
      Leads .exhausted r ({ r with tier := 0, announceI := 0 }.fire .exhausted) := by
  have hfire : { r with tier := 0, announceI := 0 }.fire .exhausted =
      { r with tier := 0, announceI := 0, isRunning := false, deferred := false, fired := r.fired ++ [.exhausted] } :=
    if_pos h.isRunning
  refine ⟨by simp [goOn, h.isRunning, announceListFail_eq, hnext], ?_⟩
  rw [hfire]
  refine ⟨rfl, rfl, (List.append_nil _).symm, { h.inOrder with isRunning := rfl, fired := ?_ }⟩
  exact congrArg (· ++ [.exhausted]) h.fired

theorem goOn_of_following (hrun : r.isRunning = true) (hnext : following r.announceList r.position = some q) :
    r.goOn = match lookup r.announceList q with
      | .error e => ({ r with tier := q.1, announceI := q.2 }.error e, none)
      | .ok p => ({ r with tier := q.1, announceI := q.2 }.begin p, some p) := by
  unfold goOn
  rw [if_pos hrun, announceListFail_eq, hnext]
  rfl

theorem Over.goOn_error (h : r.Over) {e : LookupError} (hnext : following r.announceList r.position = some q)
    (hq : lookup r.announceList q = .error e) :
    r.goOn = ({ r with tier := q.1, announceI := q.2 }.error e, none) ∧
      Leads (.raised e) r ({ r with tier := q.1, announceI := q.2 }.error e) := by
  refine ⟨by rw [goOn_of_following h.isRunning hnext, hq], rfl, rfl, rfl, ?_⟩
  exact {
    isRunning := h.isRunning
    deferred := h.deferred
    fired := h.fired
    fresh := h.fresh
    missing := hq
    position := prefix_of_following h.position hnext
    tried := h.tried.trans (before_following hnext).symm
    failed := h.failed }

@[simp] theorem begin_self (p : Nat × Nat) (r : RequestSequence) :
    (r.begin p).tracker p = { r.tracker p with started := true } := Function.update_self _ _ _

theorem begin_of_ne (h : q ≠ p) : (r.begin p).tracker q = r.tracker q := Function.update_of_ne h _ _

theorem Over.goOn_some (h : r.Over) (hnext : following r.announceList r.position = some q)
    (hq : lookup r.announceList q = .ok q) :
    r.goOn = ({ r with tier := q.1, announceI := q.2 }.begin q, some q) ∧
      Next q r ({ r with tier := q.1, announceI := q.2 }.begin q) := by
  have hbefore : before r.announceList q = r.tried := (before_following hnext).trans h.tried.symm
  have hnew : q ∉ r.tried := by
    have hnodup := (nodup_positions r.announceList).sublist (prefix_of_mem (mem_positions_of_lookup hq)).sublist
    rw [hbefore] at hnodup
    exact fun hmem => (List.nodup_append.mp hnodup).2.2 q hmem q (List.mem_singleton_self q) rfl
  have hfresh := h.fresh q hnew
  refine ⟨by rw [goOn_of_following h.isRunning hnext, hq], rfl, rfl, rfl, rfl, ?_⟩
  exact {
    isRunning := h.isRunning
    deferred := h.deferred
    fired := h.fired
    fresh := fun x hx => by
      obtain ⟨hx, hxq⟩ := not_or.mp (mt List.mem_append.mpr hx)
      have hne : x ≠ q := fun heq => hxq (heq ▸ List.mem_singleton_self _)
      exact (begin_of_ne hne).trans (h.fresh x hx)
    found := hq
    tried := congrArg (· ++ [q]) hbefore.symm
    failed := fun x hx => by
      have hx : x ∈ r.tried := hbefore ▸ hx
      have hne : x ≠ q := fun heq => hnew (heq ▸ hx)
      rw [begin_of_ne hne]
      exact h.failed x hx
    opened := by
      show (({ r with tier := q.1, announceI := q.2 }.begin q).tracker q).Open
      rw [begin_self]
      exact ⟨congrArg TrackerConnection.finished hfresh, congrArg TrackerConnection.data hfresh⟩ }

@[simp] theorem setTracker_self (p : Nat × Nat) (t : TrackerConnection) (r : RequestSequence) :
    (r.setTracker p t).tracker p = t := Function.update_self _ _ _

theorem setTracker_of_ne {t : TrackerConnection} (h : q ≠ p) : (r.setTracker p t).tracker q = r.tracker q :=
  Function.update_of_ne h _ _

theorem Begun.mem_tried (h : r.Begun) : r.position ∈ r.tried := by
  rw [h.tried]
  exact List.mem_append_right _ (List.mem_singleton_self _)

theorem Begun.ne_position (h : r.Begun) (hq : q ∈ before r.announceList r.position) : q ≠ r.position := by
  have hnodup := (nodup_positions r.announceList).sublist (h.tried ▸ h.inOrder.tried).sublist
  rintro rfl
  exact (List.nodup_append.mp hnodup).2.2 _ hq _ (List.mem_singleton_self _) rfl

/-- Only the tracker at the position changes. -/
theorem Going.setTracker {t : TrackerConnection} (h : r.Going) (hp : p ∈ r.tried) : (r.setTracker p t).Going where
  isRunning := h.isRunning
  deferred := h.deferred
  fired := h.fired
  fresh q hq := (setTracker_of_ne fun (heq : q = p) => hq (heq ▸ hp)).trans (h.fresh q hq)

theorem Begun.setTracker {t : TrackerConnection} (h : r.Begun) (ht : t.Open) : (r.setTracker r.position t).Begun :=
  { h.toGoing.setTracker h.mem_tried with
    found := h.found
    tried := h.tried
    failed := fun q hq => by
      rw [setTracker_of_ne (h.ne_position hq)]
      exact h.failed q hq
    opened := by
      show ((r.setTracker r.position t).tracker r.position).Open
      rwa [setTracker_self] }

theorem Begun.over {t : TrackerConnection} (h : r.Begun) (ht : t.Failed) : (r.setTracker r.position t).Over :=
  { h.toGoing.setTracker h.mem_tried with
    position := mem_positions_of_lookup h.found
    tried := h.tried
    failed := fun q hq => by
      by_cases heq : q = r.position
      · rw [heq, setTracker_self]
        exact ht
      · rw [setTracker_of_ne heq]
        have hq : q ∈ before r.announceList r.position ++ [r.position] := h.tried ▸ hq
        rcases List.mem_append.mp hq with hq | hq
        · exact h.failed q hq
        · exact absurd (List.mem_singleton.mp hq) heq }

theorem Begun.failed_onFailure (h : r.Begun) {failure : TrackerFailure} {circuitDead : Bool}
    (hdone : ((r.tracker r.position).onFailure failure circuitDead).finished = true) :
    ((r.tracker r.position).onFailure failure circuitDead).Failed :=
  ⟨hdone, (onFailure_data failure circuitDead).trans h.opened.2⟩

/-- The steps that leave the list, the callbacks and the errors alone. -/
theorem Leads.of_same {c : Contact} {r'' : RequestSequence} (h : Leads c r' r'')
    (hlist : r'.announceList = r.announceList) (hattached : r'.attached = r.attached) (hraised : r'.raised = r.raised) :
    Leads c r r'' where
  announceList := h.announceList.trans hlist
  attached := h.attached.trans hattached
  raised := h.raised.trans (congrArg (· ++ c.errors) hraised)
  reached := h.reached

theorem Begun.waiting (h : r.Begun) :
    (r.setTracker r.position { r.tracker r.position with requesting := true }).Waiting :=
  have hopen : Open { r.tracker r.position with requesting := true } := h.opened
  have hrequesting : ((r.setTracker r.position { r.tracker r.position with requesting := true }).tracker
      r.position).requesting = true := by
    rw [setTracker_self]
  { h.setTracker hopen with requesting := hrequesting }

theorem Begun.accepted (h : r.Begun) :
    Leads .waiting r
      { r.setTracker r.position { r.tracker r.position with requesting := true } with sent := r.sent ++ [r.position] } where
  announceList := rfl
  attached := rfl
  raised := (List.append_nil _).symm
  reached := { h.waiting with }

/-- After a failure the next tracker is started, and so on until one does not fail at once. -/
theorem Over.leads (h : r.Over) {answers : List (Option String)}
    (ih : ∀ {r' : RequestSequence}, r'.Begun → Leads (contact r'.announceList answers r'.position) r' (send answers r'.position r')) :
    Leads (contactAfter r.announceList answers r.position) r
      (match r.goOn with
      | (r', some q) => send answers q r'
      | (r', none) => r') := by
  unfold contactAfter
  cases hnext : following r.announceList r.position with
  | none =>
    obtain ⟨hgo, hleads⟩ := h.goOn_none hnext
    rw [hgo]
    exact hleads
  | some q =>
    cases hq : lookup r.announceList q with
    | error e =>
      obtain ⟨hgo, hleads⟩ := h.goOn_error hnext hq
      rw [hgo]
      dsimp only
      rw [contact_of_error hq]
      exact hleads
    | ok q' =>
      obtain rfl := eq_of_lookup hq
      obtain ⟨hgo, hbegun⟩ := h.goOn_some hnext hq
      rw [hgo]
      have hleads := hbegun.leads (ih hbegun.begun)
      rwa [hbegun.position, hbegun.announceList] at hleads

theorem Begun.send_leads (h : r.Begun) (answers : List (Option String)) :
    Leads (contact r.announceList answers r.position) r (send answers r.position r) := by
  induction answers generalizing r with
  | nil =>
    have hcontact : contact r.announceList [] r.position = .waiting := by simp [contact, h.found]
    rw [hcontact]
    exact h.accepted
  | cons answer answers ih =>
    cases answer with
    | none =>
      have hcontact : contact r.announceList (none :: answers) r.position = .waiting := by simp [contact, h.found]
      rw [hcontact]
      exact h.accepted
    | some text =>
      have hcontact : contact r.announceList (some text :: answers) r.position =
          contactAfter r.announceList answers r.position := by
        simp only [contact, h.found]
        rfl
      have hfailed : ((r.tracker r.position).onFailure (.other text) false).Failed :=
        h.failed_onFailure (onFailure_finished_of_not_retries rfl false)
      have hover : Over { r.setTracker r.position ((r.tracker r.position).onFailure (.other text) false) with
          sent := r.sent ++ [r.position] } := { h.over hfailed with }
      rw [hcontact]
      exact (hover.leads fun h' => ih h').of_same rfl rfl rfl

theorem Over.trackerDone_leads (h : r.Over) (answers : List (Option String)) :
    Leads (contactAfter r.announceList answers r.position) r (r.trackerDone false answers) :=
  h.leads fun h' => h'.send_leads answers

/-- A failure of the tracker that the sequence is at. -/
theorem Begun.onFailure_leads (h : r.Begun) (failure : TrackerFailure) (circuitDead : Bool)
    (answers : List (Option String)) :
    Leads (if ((r.tracker r.position).onFailure failure circuitDead).finished then
        contactAfter r.announceList answers r.position
      else contact r.announceList answers r.position) r (r.onFailure r.position failure circuitDead answers) := by
  unfold onFailure
  rw [h.opened.1]
  dsimp only [Bool.false_eq_true, if_false]
  split
  case isTrue hdone =>
    have hover := h.over (h.failed_onFailure hdone)
    exact (hover.trackerDone_leads answers).of_same rfl rfl rfl
  case isFalse hdone =>
    have hopen : ((r.tracker r.position).onFailure failure circuitDead).Open :=
      ⟨Bool.eq_false_iff.mpr hdone, (onFailure_data failure circuitDead).trans h.opened.2⟩
    exact ((h.setTracker hopen).send_leads answers).of_same rfl rfl rfl

theorem Begun.onSuccess_eq (h : r.Begun) (response : Option Response) (answers : List (Option String)) :
    r.onSuccess r.position response answers =
      (r.setTracker r.position ((r.tracker r.position).onSuccess response)).trackerDone
        ((r.tracker r.position).onSuccess response).data.isSome answers := by
  refine if_neg ?_
  rw [h.opened.1]
  exact Bool.false_ne_true

theorem Begun.onSuccess_leads (h : r.Begun) {response : Option Response} (answers : List (Option String))
    (hnone : ((r.tracker r.position).onSuccess response).data = none) :
    Leads (contactAfter r.announceList answers r.position) r (r.onSuccess r.position response answers) := by
  have hover := h.over ⟨onSuccess_finished response, hnone⟩
  rw [h.onSuccess_eq, hnone]
  exact (hover.trackerDone_leads answers).of_same rfl rfl rfl

theorem fire_of_running (h : r.isRunning = true) (result : SequenceResult) :
    r.fire result = { r with isRunning := false, deferred := false, fired := r.fired ++ [result] } := if_pos h

theorem InOrder.setTracker {t : TrackerConnection} (h : r.InOrder) (hp : p ∈ r.tried) (hlast : p ∉ r.tried.dropLast) :
    (r.setTracker p t).InOrder where
  tried := h.tried
  failed q hq := by
    rw [setTracker_of_ne fun (heq : q = p) => hlast (heq ▸ hq)]
    exact h.failed q hq
  fresh q hq := (setTracker_of_ne fun (heq : q = p) => hq (heq ▸ hp)).trans (h.fresh q hq)

/-- The sequence has ended with the tracker that it was at. -/
structure Answered (r r' : RequestSequence) : Prop extends InOrder r' where
  announceList : r'.announceList = r.announceList
  position : r'.position = r.position
  isRunning : r'.isRunning = false
  attached : r'.attached = r.attached
  raised : r'.raised = r.raised
  fired : r'.fired = [.success]

theorem Begun.onSuccess_answered (h : r.Begun) {response : Option Response} (answers : List (Option String))
    (hdata : ((r.tracker r.position).onSuccess response).data.isSome = true) :
    Answered r (r.onSuccess r.position response answers) := by
  have hrun (t : TrackerConnection) : (r.setTracker r.position t).isRunning = true := h.isRunning
  have hlast : r.position ∉ r.tried.dropLast := fun hmem =>
    Bool.false_ne_true (h.opened.1.symm.trans (h.inOrder.failed _ hmem).1)
  rw [h.onSuccess_eq, hdata, trackerDone, if_pos rfl, fire_of_running (hrun _)]
  exact { h.inOrder.setTracker h.mem_tried hlast with
    announceList := rfl
    position := rfl
    isRunning := rfl
    attached := rfl
    raised := rfl
    fired := congrArg (· ++ [SequenceResult.success]) h.fired }

theorem goOn_of_not_running (h : r.isRunning = false) : r.goOn = (r, none) := by
  unfold goOn
  rw [h]
  rfl

/-- Of a sequence that has ended, only the tracker at `p` goes on. -/
structure Idle (p : Nat × Nat) (r r' : RequestSequence) : Prop where
  announceList : r'.announceList = r.announceList
  isRunning : r'.isRunning = r.isRunning
  attached : r'.attached = r.attached
  tried : r'.tried = r.tried
  fired : r'.fired = r.fired
  raised : r'.raised = r.raised
  tracker : ∀ q, q ≠ p → r'.tracker q = r.tracker q

theorem idle_setTracker (p : Nat × Nat) (t : TrackerConnection) (r : RequestSequence) : Idle p r (r.setTracker p t) :=
  ⟨rfl, rfl, rfl, rfl, rfl, rfl, fun _ h => setTracker_of_ne h⟩

theorem Idle.trans {r'' : RequestSequence} (h : Idle p r r') (h' : Idle p r' r'') : Idle p r r'' where
  announceList := h'.announceList.trans h.announceList
  isRunning := h'.isRunning.trans h.isRunning
  attached := h'.attached.trans h.attached
  tried := h'.tried.trans h.tried
  fired := h'.fired.trans h.fired
  raised := h'.raised.trans h.raised
  tracker q hq := (h'.tracker q hq).trans (h.tracker q hq)

theorem Idle.inOrder (hidle : Idle p r r') (h : r.InOrder) (hp : p ∈ r.tried) (hlast : p ∉ r.tried.dropLast) :
    r'.InOrder where
  tried := by
    rw [hidle.tried, hidle.announceList]
    exact h.tried
  failed q hq := by
    rw [hidle.tried] at hq
    rw [hidle.tracker q fun heq => hlast (heq ▸ hq)]
    exact h.failed q hq
  fresh q hq := by
    rw [hidle.tried] at hq
    rw [hidle.tracker q fun heq => hq (heq ▸ hp)]
    exact h.fresh q hq

theorem send_idle (h : r.isRunning = false) (answers : List (Option String)) : Idle p r (send answers p r) := by
  unfold send
  split
  case h_1 text rest =>
    have hgo : { r.setTracker p ((r.tracker p).onFailure (.other text) false) with sent := r.sent ++ [p] }.goOn =
        ({ r.setTracker p ((r.tracker p).onFailure (.other text) false) with sent := r.sent ++ [p] }, none) :=
      goOn_of_not_running h
    simp only [hgo]
    exact { idle_setTracker p _ r with }
  case h_2 => exact { idle_setTracker p _ r with }

theorem trackerDone_of_not_running (h : r.isRunning = false) (didSucceed : Bool) (answers : List (Option String)) :
    r.trackerDone didSucceed answers = r := by
  unfold trackerDone fire
  rw [h, goOn_of_not_running h]
  cases didSucceed <;> rfl

theorem onFailure_idle (h : r.isRunning = false) (failure : TrackerFailure) (circuitDead : Bool)
    (answers : List (Option String)) : Idle p r (r.onFailure p failure circuitDead answers) := by
  have hnot (t : TrackerConnection) : (r.setTracker p t).isRunning = false := h
  unfold onFailure
  dsimp only
  split
  · exact ⟨rfl, rfl, rfl, rfl, rfl, rfl, fun _ _ => rfl⟩
  · split
    · rw [trackerDone_of_not_running (hnot _)]
      exact idle_setTracker p _ r
    · exact (idle_setTracker p _ r).trans (send_idle (hnot _) answers)

theorem onSuccess_idle (h : r.isRunning = false) (response : Option Response) (answers : List (Option String)) :
    Idle p r (r.onSuccess p response answers) := by
  have hnot (t : TrackerConnection) : (r.setTracker p t).isRunning = false := h
  unfold onSuccess
  dsimp only
  split
  · exact ⟨rfl, rfl, rfl, rfl, rfl, rfl, fun _ _ => rfl⟩
  · rw [trackerDone_of_not_running (hnot _)]
    exact idle_setTracker p _ r

/-- What holds of a sequence at all times: while it runs, it waits for the tracker that was started
last or has met with a position without one. -/
structure Regular (r : RequestSequence) : Prop extends InOrder r where
  going : r.isRunning = true → r.Waiting ∨ ∃ e, r.Stuck e

theorem Waiting.regular (h : r.Waiting) : r.Regular := { h.toBegun.inOrder with going := fun _ => .inl h }

theorem Stuck.regular {e : LookupError} (h : r.Stuck e) : r.Regular := { h.inOrder with going := fun _ => .inr ⟨e, h⟩ }

theorem InOrder.regular (h : r.InOrder) (hnot : r.isRunning = false) : r.Regular :=
  { h with going := fun hrun => absurd (hnot.symm.trans hrun) Bool.false_ne_true }

theorem Reached.regular {c : Contact} (h : Reached c r) : r.Regular := by
  cases c with
  | waiting => exact Waiting.regular h
  | exhausted => exact h.toInOrder.regular h.isRunning
  | raised e => exact Stuck.regular h

/-- A tracker answers: its request is no longer under way. -/
def heard (p : Nat × Nat) (r : RequestSequence) : RequestSequence :=
  r.setTracker p { r.tracker p with requesting := false }

theorem Regular.mem_tried (h : r.Regular) (hp : (r.tracker p).requesting = true) : p ∈ r.tried := by
  by_contra hnot
  rw [h.fresh p hnot] at hp
  cases hp

theorem Regular.not_mem_dropLast (h : r.Regular) (hp : (r.tracker p).finished = false) : p ∉ r.tried.dropLast :=
  fun hmem => Bool.false_ne_true (hp.symm.trans (h.failed p hmem).1)

/-- The tracker that a running sequence hears of is the one that it waits for. -/
theorem Regular.waiting_of_requesting (h : r.Regular) (hrun : r.isRunning = true)
    (hp : (r.tracker p).requesting = true) (hopen : (r.tracker p).finished = false) : r.Waiting ∧ p = r.position := by
  have hmem := h.mem_tried hp
  rcases h.going hrun with hw | ⟨e, hs⟩
  · refine ⟨hw, ?_⟩
    rw [hw.tried] at hmem
    rcases List.mem_append.mp hmem with hmem | hmem
    · exact absurd (hopen.symm.trans (hw.failed p hmem).1) Bool.false_ne_true
    · exact List.mem_singleton.mp hmem
  · exact absurd (hopen.symm.trans (hs.failed p hmem).1) Bool.false_ne_true

theorem Begun.heard (h : r.Begun) : (r.heard r.position).Begun := h.setTracker h.opened

/-- What comes from a tracker that is done changes nothing. -/
theorem Regular.heard_finished (h : r.Regular) (hp : (r.tracker p).requesting = true)
    (hdone : (r.tracker p).finished = true) : (r.heard p).Regular := by
  have hfailed {q} (hq : (r.tracker q).Failed) : ((r.heard p).tracker q).Failed := by
    by_cases heq : q = p
    · subst heq
      unfold RequestSequence.heard
      rw [setTracker_self]
      exact hq
    · unfold RequestSequence.heard
      rwa [setTracker_of_ne heq]
  have hfresh : ∀ q ∉ r.tried, (r.heard p).tracker q = .new := fun q hq =>
    (setTracker_of_ne fun (heq : q = p) => hq (heq ▸ h.mem_tried hp)).trans (h.fresh q hq)
  refine ⟨⟨h.tried, fun q hq => hfailed (h.failed q hq), hfresh⟩, fun hrun => ?_⟩
  rcases h.going hrun with hw | ⟨e, hs⟩
  · have hne : r.position ≠ p := fun heq =>
      Bool.false_ne_true (hw.opened.1.symm.trans ((congrArg (fun q => (r.tracker q).finished) heq).trans hdone))
    have hposition : (r.heard p).tracker r.position = r.tracker r.position := setTracker_of_ne hne
    refine .inl ⟨⟨⟨hw.isRunning, hw.deferred, hw.fired, hfresh⟩, hw.found, hw.tried, fun q hq => hfailed (hw.failed q hq),
      ?_⟩, ?_⟩
    · show ((r.heard p).tracker r.position).Open
      rw [hposition]
      exact hw.opened
    · show ((r.heard p).tracker r.position).requesting = true
      rw [hposition]
      exact hw.requesting
  · exact .inr ⟨e, ⟨hs.isRunning, hs.deferred, hs.fired, hfresh⟩, hs.missing, hs.position, hs.tried,
      fun q hq => hfailed (hs.failed q hq)⟩

theorem onFailure_of_finished {failure : TrackerFailure} {circuitDead : Bool} (h : (r.tracker p).finished = true) :
    r.onFailure p failure circuitDead answers = r := if_pos h

theorem onSuccess_of_finished {response : Option Response} (h : (r.tracker p).finished = true) :
    r.onSuccess p response answers = r := if_pos h

/-- A new sequence starts at the first tracker. -/
theorem start_leads (l : List (List Tracker)) (answers : List (Option String)) :
    Leads (contact l answers (0, 0)) (new l) ((new l).start answers).1 ∧
      (((new l).start answers).2 = true ↔ ∃ e, lookup l (0, 0) = .error e) := by
  have hnone : before l (0, 0) = [] := rfl
  have hstart : (new l).start answers =
      match lookup l (0, 0) with
      | .error e => ({ new l with isRunning := true, deferred := true }.error e, true)
      | .ok p => (send answers p ({ new l with isRunning := true, deferred := true }.begin p), false) := rfl
  cases hlookup : lookup l (0, 0) with
  | error e =>
    simp only [hlookup] at hstart
    rw [hstart, contact_of_error hlookup]
    refine ⟨⟨rfl, rfl, rfl, ?_⟩, iff_of_true rfl ⟨e, rfl⟩⟩
    exact {
      isRunning := rfl
      deferred := rfl
      fired := rfl
      fresh := fun _ _ => rfl
      missing := hlookup
      position := List.nil_prefix
      tried := rfl
      failed := fun q hq => nomatch hq }
  | ok p =>
    obtain rfl := eq_of_lookup hlookup
    simp only [hlookup] at hstart
    rw [hstart]
    refine ⟨?_, iff_of_false Bool.false_ne_true (fun ⟨e, he⟩ => nomatch he)⟩
    have hbegun : (begin (0, 0) { new l with isRunning := true, deferred := true }).Begun := {
      isRunning := rfl
      deferred := rfl
      fired := rfl
      fresh := fun q hq => begin_of_ne fun (heq : q = (0, 0)) => hq (List.mem_singleton.mpr heq)
      found := hlookup
      tried := rfl
      failed := fun q hq => nomatch hq
      opened := by
        show ((begin (0, 0) { new l with isRunning := true, deferred := true }).tracker (0, 0)).Open
        rw [begin_self]
        exact ⟨rfl, rfl⟩ }
    exact (hbegun.send_leads answers).of_same rfl rfl rfl

end RequestSequence

end BitBlinder.BitTorrent
