import BitBlinder.Runs
import Mathlib.Data.List.Nodup
import Mathlib.Logic.Function.Basic

/-!
# Downloads and their reports

An `HTTPDownload` tells its owner once how it ended: `success` checks the size of
what came and calls `successCB`, `failure` calls `failureCB` or, when there is none,
writes to the log. The first of them sets `requestDone`, and what comes later is
ignored. What a callback raises goes to the log and changes nothing. `reports` lists
the calls, and no function reads it.
-/

namespace BitBlinder.Http

set_option autoImplicit false

/-- The whitespace that `int` skips. -/
def isSpace (c : Char) : Bool :=
  c = ' ' || c = '\t' || c = '\n' || c = '\r' || c = Char.ofNat 11 || c = Char.ofNat 12

def strip (text : List Char) : List Char :=
  ((text.dropWhile isSpace).reverse.dropWhile isSpace).reverse

def parseNat (digits : List Char) : Option Nat :=
  if digits ≠ [] ∧ digits.all Char.isDigit then
    some (digits.foldl (fun n c => 10 * n + (c.toNat - '0'.toNat)) 0)
  else none

/-- Python's `int` of a string. -/
def parseInt (text : List Char) : Option Int :=
  match strip text with
  | '-' :: digits => (parseNat digits).map fun n => -(n : Int)
  | '+' :: digits => (parseNat digits).map Int.ofNat
  | digits => (parseNat digits).map Int.ofNat

inductive Failure where
  | timeoutError
  | launchError
  | connection (reason : String)
  | osError
  | attributeError
  | indexError
  | valueError
  | downloadSizeError (message : String)
  deriving DecidableEq

/-- `headers` has the values of `content-length`, in the order in which they came. -/
structure Protocol where
  headers : Option (List (List Char))
  transport : Bool

/-- A success is reported with the size of the data and the header that it was compared to. -/
inductive Report where
  | success (dataSize : Nat) (headerSize : Option Int)
  | failure (reason : Failure)
  | logged (reason : Failure)
  deriving DecidableEq

structure HTTPDownload where
  fileName : Option String
  file : List UInt8
  failureCB : Bool
  protocolInstance : Option Protocol
  requestDone : Bool
  reports : List Report

namespace HTTPDownload

/-- `getsize` is the size of the file on disk, if it can be read. -/
def dataSize (getsize : Option Nat) (d : HTTPDownload) : Except Failure Nat :=
  match d.fileName with
  | none => .ok d.file.length
  | some _ =>
    match getsize with
    | some size => .ok size
    | none => .error .osError

def headerSize (d : HTTPDownload) : Except Failure (Option Int) :=
  match d.protocolInstance with
  | none => .error .attributeError
  | some protocol =>
    match protocol.headers with
    | none => .ok none
    | some [] => .error .indexError
    | some (value :: _) =>
      match parseInt value with
      | some size => .ok (some size)
      | none => .error .valueError

/-- The size of the data, which is compared to the header if there is one. -/
def validate (getsize : Option Nat) (d : HTTPDownload) : Except Failure (Nat × Option Int) := do
  let dataSize ← d.dataSize getsize
  let headerSize ← d.headerSize
  match headerSize with
  | none => .ok (dataSize, none)
  | some size =>
    if size = (dataSize : Int) then .ok (dataSize, some size)
    else .error (.downloadSizeError
      ("Downloaded size was " ++ toString dataSize ++ ".  Header content-length size was " ++ toString size ++ "."))

def report (r : Report) (d : HTTPDownload) : HTTPDownload := { d with reports := d.reports ++ [r] }

/-- Closing the connection may raise, and then the log is all that hears of it. -/
def failure (reason : Failure) (closeRaises : Bool) (d : HTTPDownload) : HTTPDownload :=
  if d.requestDone then d
  else
    let d := { d with requestDone := true }
    if d.protocolInstance.any Protocol.transport ∧ closeRaises then d
    else d.report (if d.failureCB then .failure reason else .logged reason)

/-- What the checks raise is passed to `failure`. -/
def success (getsize : Option Nat) (closeRaises : Bool) (d : HTTPDownload) : HTTPDownload :=
  if d.requestDone then d
  else
    let d := { d with requestDone := true }
    match d.validate getsize with
    | .ok (dataSize, headerSize) => d.report (.success dataSize headerSize)
    | .error e => d.failure e closeRaises

/-- The protocol does not take in more when the download is done. -/
def dataReceived (data : List UInt8) (d : HTTPDownload) : HTTPDownload :=
  if d.requestDone then d else { d with file := d.file ++ data }

def handleHeader (value : List Char) (d : HTTPDownload) : HTTPDownload :=
  if d.requestDone then d
  else
    { d with protocolInstance := d.protocolInstance.map fun protocol =>
        { protocol with headers := some (protocol.headers.getD [] ++ [value]) } }

def new (fileName : Option String) (failureCB : Bool) : HTTPDownload where
  fileName := fileName
  file := []
  failureCB := failureCB
  protocolInstance := none
  requestDone := false
  reports := []

end HTTPDownload

/-- Downloads have the numbers in the order in which they are made. -/
structure Downloads where
  download : Nat → HTTPDownload
  count : Nat
  httpDownloads : List Nat

inductive DownloadAction where
  | init (fileName : Option String) (failureCB launchRaises : Bool)
  | buildProtocol (k : Nat) (transport : Bool)
  | handleHeader (k : Nat) (value : List Char)
  | dataReceived (k : Nat) (data : List UInt8)
  | success (k : Nat) (getsize : Option Nat) (closeRaises : Bool)
  | failure (k : Nat) (reason : Failure) (closeRaises : Bool)
  | timeout (k : Nat) (closeRaises : Bool)

namespace Downloads

def update (k : Nat) (f : HTTPDownload → HTTPDownload) (s : Downloads) : Downloads :=
  { s with download := Function.update s.download k (f (s.download k)) }

/-- `success` and `failure` leave the list at their end, unless the download was done before. -/
def notify (k : Nat) (f : HTTPDownload → HTTPDownload) (s : Downloads) : Downloads :=
  if (s.download k).requestDone then s.update k f
  else { s.update k f with httpDownloads := s.httpDownloads.erase k }

def add (d : HTTPDownload) (s : Downloads) : Downloads where
  download := Function.update s.download s.count d
  count := s.count + 1
  httpDownloads := s.httpDownloads ++ [s.count]

/-- There is no connection to be closed when the launch raises. -/
def init (fileName : Option String) (failureCB launchRaises : Bool) (s : Downloads) : Downloads :=
  let added := s.add (.new fileName failureCB)
  if launchRaises then added.notify s.count (.failure .launchError false) else added

def step (s : Downloads) : DownloadAction → Option Downloads
  | .init fileName failureCB launchRaises => some (s.init fileName failureCB launchRaises)
  | .buildProtocol k transport =>
    if k < s.count then
      some (s.update k fun d => { d with protocolInstance := some { headers := none, transport } })
    else none
  | .handleHeader k value => if k < s.count then some (s.update k (.handleHeader value)) else none
  | .dataReceived k data => if k < s.count then some (s.update k (.dataReceived data)) else none
  | .success k getsize closeRaises =>
    if k < s.count then some (s.notify k (.success getsize closeRaises)) else none
  | .failure k reason closeRaises => if k < s.count then some (s.notify k (.failure reason closeRaises)) else none
  | .timeout k closeRaises => if k < s.count then some (s.notify k (.failure .timeoutError closeRaises)) else none

def initial : Downloads where
  download := fun _ => .new none false
  count := 0
  httpDownloads := []

end Downloads

/-- A success is only reported with a header that it fits. -/
def Report.Fits : Report → Prop
  | .success dataSize headerSize => ∀ size ∈ headerSize, size = (dataSize : Int)
  | .failure _ | .logged _ => True

namespace HTTPDownload

/-- A download that is done was reported once, to the log only where nobody asked for failures. -/
structure Reported (d : HTTPDownload) : Prop where
  once : d.requestDone = true → d.reports.length = 1
  fits : ∀ r ∈ d.reports, r.Fits
  addressee : ∀ reason, .logged reason ∈ d.reports → d.failureCB = false

/-- The size of the data is known, and a header that there is has the same number. -/
def sizeMatches (getsize : Option Nat) (d : HTTPDownload) : Bool :=
  match d.dataSize getsize, d.protocolInstance with
  | .ok size, some protocol =>
    protocol.headers.all fun values => values.head?.any fun value => parseInt value = some (size : Int)
  | _, _ => false

def closeFails (closeRaises : Bool) (d : HTTPDownload) : Bool :=
  d.protocolInstance.any Protocol.transport && closeRaises

structure Sound (d : HTTPDownload) : Prop extends Reported d where
  quiet : d.requestDone = false → d.reports = []

theorem new_sound (fileName : Option String) (failureCB : Bool) : (new fileName failureCB).Sound where
  once h := nomatch h
  fits _ h := nomatch h
  addressee _ h := nomatch h
  quiet _ := rfl

variable {d : HTTPDownload} {getsize : Option Nat} {closeRaises : Bool} {reason : Failure}

theorem failure_of_done (h : d.requestDone = true) : d.failure reason closeRaises = d := if_pos h

theorem success_of_done (h : d.requestDone = true) : d.success getsize closeRaises = d := if_pos h

theorem failure_done : (d.failure reason closeRaises).requestDone = true := by
  unfold failure
  split
  case isTrue h => exact h
  case isFalse =>
    dsimp only
    split <;> rfl

/-- When the flag is set, `failure` does nothing any more. -/
theorem success_of_error {e : Failure} (hdone : d.requestDone = false) (h : d.validate getsize = .error e) :
    d.success getsize closeRaises = { d with requestDone := true } := by
  have hvalidate : { d with requestDone := true }.validate getsize = .error e := h
  simp [success, hdone, hvalidate, failure]

theorem success_of_ok {dataSize : Nat} {headerSize : Option Int} (hdone : d.requestDone = false)
    (h : d.validate getsize = .ok (dataSize, headerSize)) :
    d.success getsize closeRaises = { d with requestDone := true }.report (.success dataSize headerSize) := by
  have hvalidate : { d with requestDone := true }.validate getsize = .ok (dataSize, headerSize) := h
  simp [success, hdone, hvalidate]

theorem success_done : (d.success getsize closeRaises).requestDone = true := by
  cases hdone : d.requestDone with
  | true => rw [success_of_done hdone, hdone]
  | false =>
    cases h : d.validate getsize with
    | error e => rw [success_of_error hdone h]
    | ok sizes =>
      rw [success_of_ok hdone h]
      rfl

theorem validate_eq_ok_iff {dataSize : Nat} {headerSize : Option Int} :
    d.validate getsize = .ok (dataSize, headerSize) ↔
      d.dataSize getsize = .ok dataSize ∧ d.headerSize = .ok headerSize ∧
        (Report.success dataSize headerSize).Fits := by
  unfold validate
  cases d.dataSize getsize with
  | error e => exact iff_of_false nofun (fun h => nomatch h.1)
  | ok n =>
    cases d.headerSize with
    | error e => exact iff_of_false nofun (fun h => nomatch h.2.1)
    | ok size =>
      cases size with
      | none =>
        simp only [bind, Except.bind, Except.ok.injEq, Prod.mk.injEq, Report.Fits]
        constructor
        · rintro ⟨rfl, rfl⟩
          exact ⟨rfl, rfl, nofun⟩
        · rintro ⟨rfl, rfl, -⟩
          exact ⟨rfl, rfl⟩
      | some size =>
        simp only [bind, Except.bind]
        split
        case isTrue hsize =>
          simp only [Except.ok.injEq, Prod.mk.injEq]
          constructor
          · rintro ⟨rfl, rfl⟩
            refine ⟨rfl, rfl, fun size' hsize' => ?_⟩
            obtain rfl := Option.some.inj hsize'
            exact hsize
          · rintro ⟨rfl, rfl, -⟩
            exact ⟨rfl, rfl⟩
        case isFalse hsize =>
          refine iff_of_false nofun ?_
          rintro ⟨hn, hheader, hfits⟩
          obtain rfl := Except.ok.inj hn
          obtain rfl := Except.ok.inj hheader
          exact hsize (hfits size rfl)

/-- The checks pass exactly when the sizes match. -/
theorem validate_ok_iff : (∃ sizes, d.validate getsize = .ok sizes) ↔ d.sizeMatches getsize = true := by
  simp only [Prod.exists, validate_eq_ok_iff]
  unfold sizeMatches
  split
  case h_1 size protocol hsize hprotocol =>
    simp only [hsize, Except.ok.injEq, headerSize, hprotocol]
    rcases protocol with ⟨- | (- | ⟨value, values⟩), transport⟩
    · exact iff_of_true ⟨size, none, rfl, rfl, nofun⟩ rfl
    · simp
    · cases hvalue : parseInt value with
      | none => simp [hvalue]
      | some n => simp [hvalue, Report.Fits]
  case h_2 hnone =>
    refine iff_of_false ?_ Bool.false_ne_true
    rintro ⟨dataSize, headerSize, hsize, hheader, -⟩
    cases hprotocol : d.protocolInstance with
    | none => simp [HTTPDownload.headerSize, hprotocol] at hheader
    | some protocol => exact hnone dataSize protocol hsize hprotocol

theorem Sound.of_done (hdone : d.requestDone = true) (h : d.Reported) : d.Sound :=
  { h with quiet := fun hnot => absurd (hnot.symm.trans hdone) Bool.false_ne_true }

/-- The first report of a download. -/
theorem Sound.report (hs : d.Sound) (hnot : d.requestDone = false) {r : Report} (hfits : r.Fits)
    (hlogged : ∀ reason, r = .logged reason → d.failureCB = false) :
    ({ d with requestDone := true }.report r).Reported := by
  have hreports : ({ d with requestDone := true }.report r).reports = [r] := by
    simp [HTTPDownload.report, hs.quiet hnot]
  refine ⟨fun _ => congrArg List.length hreports, fun r' hr' => ?_, fun reason hreason => ?_⟩
  · rw [hreports, List.mem_singleton] at hr'
    exact hr' ▸ hfits
  · rw [hreports, List.mem_singleton] at hreason
    exact hlogged reason hreason.symm

theorem Sound.not_reported (hs : d.Sound) (hnot : d.requestDone = false) :
    ¬{ d with requestDone := true }.Reported := by
  intro h
  have hlength : d.reports.length = 1 := h.once rfl
  rw [hs.quiet hnot] at hlength
  exact absurd hlength (by decide)

theorem reported_success_iff (hs : d.Sound) :
    (d.success getsize closeRaises).Reported ↔ d.requestDone = true ∨ d.sizeMatches getsize = true := by
  cases hdone : d.requestDone with
  | true =>
    rw [success_of_done hdone]
    exact iff_of_true hs.toReported (.inl rfl)
  | false =>
    rw [or_iff_right Bool.false_ne_true, ← validate_ok_iff]
    cases h : d.validate getsize with
    | error e =>
      rw [success_of_error hdone h]
      exact iff_of_false (hs.not_reported hdone) nofun
    | ok sizes =>
      rw [success_of_ok hdone h]
      exact iff_of_true (hs.report hdone (validate_eq_ok_iff.mp h).2.2 nofun) ⟨sizes, rfl⟩

theorem reported_failure_iff (hs : d.Sound) :
    (d.failure reason closeRaises).Reported ↔ d.requestDone = true ∨ d.closeFails closeRaises = false := by
  cases hdone : d.requestDone with
  | true =>
    rw [failure_of_done hdone]
    exact iff_of_true hs.toReported (.inl rfl)
  | false =>
    rw [or_iff_right Bool.false_ne_true]
    cases hclose : d.closeFails closeRaises with
    | true =>
      have hcloses : d.protocolInstance.any Protocol.transport = true ∧ closeRaises = true := by
        simpa [closeFails] using hclose
      have hfailure : d.failure reason closeRaises = { d with requestDone := true } := by
        simp [failure, hdone, hcloses]
      rw [hfailure]
      exact iff_of_false (hs.not_reported hdone) nofun
    | false =>
      have hcloses : ¬(d.protocolInstance.any Protocol.transport = true ∧ closeRaises = true) := by
        rw [← Bool.and_eq_true]
        exact Bool.eq_false_iff.mp hclose
      have hfailure : d.failure reason closeRaises =
          { d with requestDone := true }.report (if d.failureCB then .failure reason else .logged reason) := by
        simp only [failure, hdone, hcloses, if_false, Bool.false_eq_true]
      rw [hfailure]
      refine iff_of_true (hs.report hdone ?_ ?_) rfl
      · split <;> trivial
      · intro reason' hreason
        split at hreason
        · cases hreason
        · simpa using ‹¬d.failureCB = true›

/-- What comes in over the network makes no difference to the reports. -/
theorem Sound.congr {d' : HTTPDownload} (hs : d.Sound) (hdone : d'.requestDone = d.requestDone)
    (hreports : d'.reports = d.reports) (hcallback : d'.failureCB = d.failureCB) : d'.Sound where
  once h := hreports ▸ hs.once (hdone ▸ h)
  fits := hreports ▸ hs.fits
  addressee reason h := hcallback.trans (hs.addressee reason (hreports ▸ h))
  quiet h := hreports.trans (hs.quiet (hdone ▸ h))

theorem Sound.dataReceived (hs : d.Sound) (data : List UInt8) : (d.dataReceived data).Sound := by
  unfold HTTPDownload.dataReceived
  split
  · exact hs
  · exact hs.congr rfl rfl rfl

theorem Sound.handleHeader (hs : d.Sound) (value : List Char) : (d.handleHeader value).Sound := by
  unfold HTTPDownload.handleHeader
  split
  · exact hs
  · exact hs.congr rfl rfl rfl

theorem dataReceived_done (data : List UInt8) : (d.dataReceived data).requestDone = d.requestDone := by
  unfold dataReceived
  split <;> rfl

theorem handleHeader_done (value : List Char) : (d.handleHeader value).requestDone = d.requestDone := by
  unfold handleHeader
  split <;> rfl

end HTTPDownload

namespace Downloads

/-- Every download is reported as it should be, and one that is done is in the list no more. -/
structure Reported (s : Downloads) : Prop where
  reported : ∀ k < s.count, (s.download k).Reported
  gone : ∀ k < s.count, (s.download k).requestDone = true → k ∉ s.httpDownloads

/-- A download that is told of its success has the size that was announced, and closing the
connection of one that fails does not raise. -/
def Proper (s : Downloads) : DownloadAction → Prop
  | .success k getsize _ => (s.download k).requestDone = true ∨ (s.download k).sizeMatches getsize = true
  | .failure k _ closeRaises | .timeout k closeRaises =>
    (s.download k).requestDone = true ∨ (s.download k).closeFails closeRaises = false
  | .init .. | .buildProtocol .. | .handleHeader .. | .dataReceived .. => True

instance (s : Downloads) (a : DownloadAction) : Decidable (s.Proper a) :=
  match a with
  | .success k getsize _ =>
    inferInstanceAs (Decidable ((s.download k).requestDone = true ∨ (s.download k).sizeMatches getsize = true))
  | .failure k _ closeRaises | .timeout k closeRaises =>
    inferInstanceAs (Decidable ((s.download k).requestDone = true ∨ (s.download k).closeFails closeRaises = false))
  | .init .. | .buildProtocol .. | .handleHeader .. | .dataReceived .. => isTrue trivial

structure Sound (s : Downloads) : Prop where
  sound : ∀ k < s.count, (s.download k).Sound
  gone : ∀ k < s.count, (s.download k).requestDone = true → k ∉ s.httpDownloads
  nodup : s.httpDownloads.Nodup
  listed : ∀ k ∈ s.httpDownloads, k < s.count

theorem initial_sound : Sound initial where
  sound _ h := absurd h (Nat.not_lt_zero _)
  gone _ h := absurd h (Nat.not_lt_zero _)
  nodup := List.nodup_nil
  listed _ h := nomatch h

variable {s : Downloads} {k : Nat} {f : HTTPDownload → HTTPDownload}

theorem Sound.reported (hs : s.Sound) : s.Reported where
  reported k hk := (hs.sound k hk).toReported
  gone := hs.gone

@[simp] theorem update_self : (s.update k f).download k = f (s.download k) := Function.update_self _ _ _

theorem update_of_ne {j : Nat} (h : j ≠ k) : (s.update k f).download j = s.download j := Function.update_of_ne h _ _

theorem Sound.update (hs : s.Sound) (hf : (s.download k).Sound → (f (s.download k)).Sound) (hk : k < s.count)
    (hdone : (f (s.download k)).requestDone = (s.download k).requestDone) : (s.update k f).Sound where
  sound j hj := by
    by_cases hjk : j = k
    · subst hjk
      rw [update_self]
      exact hf (hs.sound j hk)
    · rw [update_of_ne hjk]
      exact hs.sound j hj
  gone j hj h := by
    by_cases hjk : j = k
    · subst hjk
      rw [update_self, hdone] at h
      exact hs.gone j hk h
    · rw [update_of_ne hjk] at h
      exact hs.gone j hj h
  nodup := hs.nodup
  listed := hs.listed

theorem notify_download (j : Nat) : (s.notify k f).download j = (s.update k f).download j := by
  unfold notify
  split <;> rfl

theorem notify_count : (s.notify k f).count = s.count := by
  unfold notify
  split <;> rfl

theorem reported_of_notify (hk : k < s.count) (ht : (s.notify k f).Reported) : (f (s.download k)).Reported := by
  have h := ht.reported k (by rwa [notify_count])
  rwa [notify_download, update_self] at h

/-- A notification after which the download is done. -/
theorem Sound.notify (hs : s.Sound) (hk : k < s.count) (hf : (f (s.download k)).Reported)
    (hdone : (f (s.download k)).requestDone = true)
    (hsame : (s.download k).requestDone = true → f (s.download k) = s.download k) : (s.notify k f).Sound := by
  have hsound : (f (s.download k)).Sound := .of_done hdone hf
  unfold Downloads.notify
  split
  case isTrue h => exact hs.update (fun _ => hsound) hk (congrArg HTTPDownload.requestDone (hsame h))
  case isFalse =>
    refine ⟨fun j hj => ?_, fun j hj h => ?_, hs.nodup.erase k, fun j hj => hs.listed j (List.mem_of_mem_erase hj)⟩
    · by_cases hjk : j = k
      · subst hjk
        rw [update_self]
        exact hsound
      · rw [update_of_ne hjk]
        exact hs.sound j hj
    · by_cases hjk : j = k
      · subst hjk
        exact hs.nodup.not_mem_erase
      · rw [update_of_ne hjk] at h
        exact fun hmem => hs.gone j hj h (List.mem_of_mem_erase hmem)

theorem Sound.notify_failure (hs : s.Sound) (hk : k < s.count) (reason : Failure) {closeRaises : Bool}
    (h : (s.download k).requestDone = true ∨ (s.download k).closeFails closeRaises = false) :
    (s.notify k (.failure reason closeRaises)).Sound :=
  hs.notify hk ((HTTPDownload.reported_failure_iff (hs.sound k hk)).mpr h) HTTPDownload.failure_done
    HTTPDownload.failure_of_done

@[simp] theorem add_self (d : HTTPDownload) (s : Downloads) : (s.add d).download s.count = d :=
  Function.update_self _ _ _

theorem add_of_ne {j : Nat} (d : HTTPDownload) (h : j ≠ s.count) : (s.add d).download j = s.download j :=
  Function.update_of_ne h _ _

theorem Sound.add (hs : s.Sound) {d : HTTPDownload} (hd : d.Sound) (hnot : d.requestDone = false) :
    (s.add d).Sound := by
  have hold {j} (hj : j < s.count + 1) (hne : j ≠ s.count) : j < s.count := by omega
  refine ⟨fun j hj => ?_, fun j hj h hmem => ?_, ?_, fun j hj => ?_⟩
  · by_cases hjk : j = s.count
    · subst hjk
      rwa [add_self]
    · rw [add_of_ne d hjk]
      exact hs.sound j (hold hj hjk)
  · by_cases hjk : j = s.count
    · subst hjk
      rw [add_self] at h
      exact Bool.false_ne_true (hnot.symm.trans h)
    · rw [add_of_ne d hjk] at h
      rcases List.mem_append.mp hmem with hmem | hmem
      · exact hs.gone j (hold hj hjk) h hmem
      · exact hjk (List.mem_singleton.mp hmem)
  · have hnew : s.count ∉ s.httpDownloads := fun h => Nat.lt_irrefl _ (hs.listed _ h)
    have hnodup := hs.nodup.concat hnew
    rwa [List.concat_eq_append] at hnodup
  · rcases List.mem_append.mp hj with hj | hj
    · exact Nat.lt_succ_of_lt (hs.listed j hj)
    · exact Nat.lt_succ_of_le (Nat.le_of_eq (List.mem_singleton.mp hj))

theorem Sound.init (hs : s.Sound) (fileName : Option String) (failureCB launchRaises : Bool) :
    (s.init fileName failureCB launchRaises).Sound := by
  have hadded := hs.add (HTTPDownload.new_sound fileName failureCB) rfl
  unfold Downloads.init
  dsimp only
  split
  case isFalse => exact hadded
  case isTrue =>
    refine hadded.notify_failure (Nat.lt_succ_self _) .launchError (.inr ?_)
    rw [add_self]
    rfl

theorem step_sound {t : Downloads} {a : DownloadAction} (hs : s.Sound) (hstep : step s a = some t)
    (hok : s.Proper a) : t.Sound := by
  cases a with
  | init fileName failureCB launchRaises =>
    obtain rfl := Option.some.inj hstep
    exact hs.init fileName failureCB launchRaises
  | buildProtocol k transport =>
    obtain ⟨hk, ⟨⟩⟩ := Option.ite_none_right_eq_some.mp hstep
    exact hs.update (fun h => h.congr rfl rfl rfl) hk rfl
  | handleHeader k value =>
    obtain ⟨hk, ⟨⟩⟩ := Option.ite_none_right_eq_some.mp hstep
    exact hs.update (fun h => h.handleHeader value) hk (HTTPDownload.handleHeader_done value)
  | dataReceived k data =>
    obtain ⟨hk, ⟨⟩⟩ := Option.ite_none_right_eq_some.mp hstep
    exact hs.update (fun h => h.dataReceived data) hk (HTTPDownload.dataReceived_done data)
  | success k getsize closeRaises =>
    obtain ⟨hk, ⟨⟩⟩ := Option.ite_none_right_eq_some.mp hstep
    exact hs.notify hk ((HTTPDownload.reported_success_iff (hs.sound k hk)).mpr hok) HTTPDownload.success_done
      HTTPDownload.success_of_done
  | failure k reason closeRaises =>
    obtain ⟨hk, ⟨⟩⟩ := Option.ite_none_right_eq_some.mp hstep
    exact hs.notify_failure hk reason hok
  | timeout k closeRaises =>
    obtain ⟨hk, ⟨⟩⟩ := Option.ite_none_right_eq_some.mp hstep
    exact hs.notify_failure hk .timeoutError hok

theorem proper_of_reported {t : Downloads} {a : DownloadAction} (hs : s.Sound) (hstep : step s a = some t)
    (ht : t.Reported) : s.Proper a := by
  cases a with
  | init | buildProtocol | handleHeader | dataReceived => trivial
  | success k getsize closeRaises =>
    obtain ⟨hk, ⟨⟩⟩ := Option.ite_none_right_eq_some.mp hstep
    exact (HTTPDownload.reported_success_iff (hs.sound k hk)).mp (reported_of_notify hk ht)
  | failure k reason closeRaises | timeout k closeRaises =>
    obtain ⟨hk, ⟨⟩⟩ := Option.ite_none_right_eq_some.mp hstep
    exact (HTTPDownload.reported_failure_iff (hs.sound k hk)).mp (reported_of_notify hk ht)

/-- All downloads of a run are reported once exactly when every notification is a proper one. -/
theorem reported_iff_proper {t : Downloads} {as : List DownloadAction}
    (h : Run step (fun _ _ => True) initial as t) :
    (∀ start u, start <+: as → Run step (fun _ _ => True) initial start u → u.Reported) ↔
      EachStep step Proper initial as :=
  h.forall_prefix_iff Sound.reported step_sound proper_of_reported initial_sound

def exampleActions : List DownloadAction :=
  [.init none true false, .buildProtocol 0 true, .handleHeader 0 ['2'], .dataReceived 0 [104, 105], .success 0 none false,
   .init (some "update") true false, .timeout 1 false, .success 1 (some 5) false, .init none false true]

theorem example_downloads_reported : ∃ s, Run step (fun _ _ => True) initial exampleActions s ∧
    ((s.download 0).reports, (s.download 1).reports, (s.download 2).reports) =
      ([.success 2 (some 2)], [.failure .timeoutError], [.logged .launchError]) ∧
    ∀ start u, start <+: exampleActions → Run step (fun _ _ => True) initial start u → u.Reported := by
  have hend : (exec step initial exampleActions).any (fun s =>
      ((s.download 0).reports, (s.download 1).reports, (s.download 2).reports) =
        ([.success 2 (some 2)], [.failure .timeoutError], [.logged .launchError])) = true := by
    decide
  obtain ⟨s, hrun, hs⟩ := exists_run hend (eachStep_true _ _)
  have hproper : EachStep step Proper initial exampleActions := by decide
  exact ⟨s, hrun, of_decide_eq_true hs, (reported_iff_proper hrun).mpr hproper⟩

/-- The connection is closed after three of five bytes. -/
theorem short_download_not_reported : ∃ s, Run step (fun _ _ => True) initial
    [.init none true false, .buildProtocol 0 true, .handleHeader 0 ['5'], .dataReceived 0 [1, 2, 3], .success 0 none false]
    s ∧ (s.download 0).requestDone = true ∧ (s.download 0).reports = [] ∧ ¬s.Reported := by
  have hend : (exec step initial
      [.init none true false, .buildProtocol 0 true, .handleHeader 0 ['5'], .dataReceived 0 [1, 2, 3],
       .success 0 none false]).any
        (fun s => 0 < s.count ∧ (s.download 0).requestDone ∧ (s.download 0).reports = []) = true := by
    decide
  obtain ⟨s, hrun, hs⟩ := exists_run hend (eachStep_true _ _)
  obtain ⟨hcount, hdone, hreports⟩ := of_decide_eq_true hs
  refine ⟨s, hrun, hdone, hreports, fun h => ?_⟩
  have hlength := (h.reported 0 hcount).once hdone
  rw [hreports] at hlength
  cases hlength

end Downloads

end BitBlinder.Http
