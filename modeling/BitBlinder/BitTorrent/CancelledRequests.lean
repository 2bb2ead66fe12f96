import BitBlinder.BitTorrent.Rerequester

/-!
# Stopping an announcement

`RequestSequence.stop` makes the current tracker fail while the sequence is still
running, so that the failure is followed by the next tracker as any other one is.
-/

namespace BitBlinder.BitTorrent

open Tiers

set_option autoImplicit false

namespace RequestSequence

variable {r r' : RequestSequence} {p q : Nat × Nat} {answers : List (Option String)}

/-- The tracker that comes next is not there. -/
def NextMissing (r : RequestSequence) : Prop :=
  lookup r.announceList r.position = .ok r.position ∧
    ∃ q ∈ following r.announceList r.position, ∃ e, lookup r.announceList q = .error e

@[simp] theorem fire_sent (result : SequenceResult) (r : RequestSequence) : (r.fire result).sent = r.sent := by
  unfold fire
  split <;> rfl

theorem goOn_sent (r : RequestSequence) : r.goOn.1.sent = r.sent := by
  unfold goOn
  split
  · rw [announceListFail_eq]
    cases following r.announceList r.position with
    | none => exact fire_sent _ _
    | some q =>
      dsimp only
      split <;> rfl
  · rfl

/-- Once a request is sent, it stays sent. -/
theorem send_sent (answers : List (Option String)) (p : Nat × Nat) (r : RequestSequence) :
    r.sent.length < (send answers p r).sent.length := by
  induction answers generalizing p r with
  | nil => simp [send]
  | cons answer answers ih =>
    cases answer with
    | none => simp [send]
    | some text =>
      have hgo : { r.setTracker p ((r.tracker p).onFailure (.other text) false) with sent := r.sent ++ [p] }.goOn.1.sent =
          r.sent ++ [p] := goOn_sent _
      simp only [send]
      split
      case h_1 r' q heq =>
        have hsent : r'.sent = r.sent ++ [p] := (congrArg (fun x => x.1.sent) heq).symm.trans hgo
        have hlength : r'.sent.length = r.sent.length + 1 := by simp [hsent]
        have hlater := ih q r'
        omega
      case h_2 r' heq =>
        have hsent : r'.sent = r.sent ++ [p] := (congrArg (fun x => x.1.sent) heq).symm.trans hgo
        simp [hsent]

/-- The current tracker as it is after it was stopped. -/
theorem Waiting.over_cancelled (h : r.Waiting) :
    (r.setTracker r.position ((r.tracker r.position).onFailure .cancelled false)).Over :=
  h.toBegun.over (h.toBegun.failed_onFailure (TrackerConnection.onFailure_finished_of_not_retries rfl false))

theorem Waiting.onFailure_cancelled (h : r.Waiting) (answers : List (Option String)) :
    r.onFailure r.position .cancelled false answers =
      (r.setTracker r.position ((r.tracker r.position).onFailure .cancelled false)).trackerDone false answers := by
  have hopen : ¬(r.tracker r.position).finished = true := Bool.eq_false_iff.mp h.opened.1
  have hdone : ((r.tracker r.position).onFailure .cancelled false).finished = true :=
    TrackerConnection.onFailure_finished_of_not_retries rfl false
  unfold onFailure
  rw [if_neg hopen]
  dsimp only
  rw [if_pos hdone]

/-- The list is at its end: what the deferred fires with is that all trackers failed. -/
theorem Waiting.stop_last (h : r.Waiting) (hnext : following r.announceList r.position = none) :
    (r.stop answers).1.fired = [.exhausted] := by
  obtain ⟨hgo, hleads⟩ := h.over_cancelled.goOn_none hnext
  rw [h.stop_eq, h.onFailure_cancelled, trackerDone, if_neg Bool.false_ne_true, hgo]
  have hended := hleads.reached
  show (RequestSequence.fire _ _).fired = _
  rw [fire_of_not_running hended.isRunning]
  exact hended.fired

/-- The next tracker gets a request. -/
theorem Waiting.stop_found (h : r.Waiting) (hnext : following r.announceList r.position = some q)
    (hq : lookup r.announceList q = .ok q) : r.sent.length < (r.stop answers).1.sent.length := by
  obtain ⟨hgo, -⟩ := h.over_cancelled.goOn_some hnext hq
  rw [h.stop_eq, h.onFailure_cancelled, trackerDone, if_neg Bool.false_ne_true, hgo]
  dsimp only
  rw [fire_sent]
  refine Nat.lt_of_le_of_lt (Nat.le_of_eq ?_) (send_sent answers q _)
  rfl

/-- No tracker of the sequence that is not done has a request under way. -/
structure Closed (r : RequestSequence) : Prop where
  isRunning : r.isRunning = false
  finished : ∀ p, (r.tracker p).requesting = true → (r.tracker p).finished = true

theorem Waiting.stop_missing (h : r.Waiting) (answers : List (Option String)) {e : LookupError}
    (hnext : following r.announceList r.position = some q) (hq : lookup r.announceList q = .error e) :
    (r.stop answers).1.sent = r.sent ∧ (r.stop answers).1.fired = [.cancelled] ∧ (r.stop answers).1.Closed := by
  obtain ⟨hgo, hleads⟩ := h.over_cancelled.goOn_error hnext hq
  have hstuck : Stuck e _ := hleads.reached
  rw [h.stop_eq, h.onFailure_cancelled, trackerDone, if_neg Bool.false_ne_true, hgo]
  dsimp only
  rw [fire_of_running hstuck.isRunning]
  refine ⟨rfl, congrArg (· ++ [SequenceResult.cancelled]) hstuck.fired, rfl, fun p hp => ?_⟩
  by_contra hopen
  have hp' := hstuck.failed p
  by_cases hmem : p ∈ r.tried
  · exact hopen (hp' hmem).1
  · have hnew := hstuck.fresh p hmem
    rw [show _ = TrackerConnection.new from hnew] at hp
    cases hp

theorem Closed.heard (h : r.Closed) (p : Nat × Nat) : (r.heard p).Closed where
  isRunning := h.isRunning
  finished q hq := by
    unfold RequestSequence.heard at hq ⊢
    by_cases hqp : q = p
    · subst hqp
      rw [setTracker_self] at hq
      cases hq
    · rw [setTracker_of_ne hqp] at hq ⊢
      exact h.finished q hq

end RequestSequence

namespace Rerequester

open RequestSequence

variable {config : TrackerConfig} {env : Environment} {s t : Rerequester} {n m : Nat} {r : RequestSequence}

theorem onTrackerSuccess_same (config : TrackerConfig) (n : Nat) (connects : Bool) (now random : Rat) (s : Rerequester) :
    (s.onTrackerSuccess config n connects now random).sequences = s.sequences ∧
      (s.onTrackerSuccess config n connects now random).count = s.count := by
  unfold onTrackerSuccess
  dsimp only
  have hfailure (u : Rerequester) : (u.onTrackerFailure config false n random).sequences = u.sequences ∧
      (u.onTrackerFailure config false n random).count = u.count :=
    ⟨(onTrackerFailure_freed false n random u).sequences, (onTrackerFailure_freed false n random u).count⟩
  split
  · exact hfailure _
  · split
    · exact hfailure _
    · split
      · exact ⟨(fireDeferred_freed rfl).sequences, (fireDeferred_freed rfl).count⟩
      · exact hfailure _

theorem settle_same (config : TrackerConfig) (n : Nat) (r : RequestSequence) (connects : Bool) (env : Environment)
    (s : Rerequester) : (s.settle config n r connects env).sequences = (s.setSequence n r).sequences ∧
      (s.settle config n r connects env).count = s.count := by
  have hfailure (cancelled : Bool) : Freed (s.setSequence n r)
      ((s.setSequence n r).onTrackerFailure config cancelled n env.random) := onTrackerFailure_freed _ _ _ _
  unfold settle
  dsimp only
  split
  · split
    · exact ⟨rfl, rfl⟩
    · exact onTrackerSuccess_same config n connects env.now env.random _
    · exact ⟨(hfailure true).sequences, (hfailure true).count⟩
    · exact ⟨(hfailure false).sequences, (hfailure false).count⟩
  · exact ⟨rfl, rfl⟩

/-- A sequence that has ended is as it was. -/
structure Keeps (n : Nat) (s t : Rerequester) : Prop where
  sequence : t.sequences n = s.sequences n
  count : n < t.count

theorem Keeps.trans {u : Rerequester} (h : Keeps n s t) (h' : Keeps n t u) : Keeps n s u :=
  ⟨h'.sequence.trans h.sequence, h'.count⟩

theorem cancelCurrentRequest_keeps (config : TrackerConfig) (env : Environment) (hs : s.Sound) (hn : n < s.count)
    (hnot : (s.sequences n).isRunning = false) : Keeps n s (s.cancelCurrentRequest config env).1 := by
  have hne {m} (hm : (s.sequences m).isRunning = true) : n ≠ m := fun heq =>
    Bool.false_ne_true (hnot.symm.trans (heq ▸ hm))
  rcases cancelCurrentRequest_cases config env hs with ⟨t, ht, -, hfreed, -⟩ | ⟨m, e, -, hstuck, ht⟩ |
    ⟨m, -, -, hcancelled⟩
  · rw [ht]
    exact ⟨congrFun hfreed.sequences n, Nat.lt_of_lt_of_eq hn hfreed.count.symm⟩
  · rw [ht]
    exact ⟨setSequence_of_ne (hne hstuck.isRunning), hn⟩
  · have hfreed := hcancelled.freed
    refine ⟨(congrFun hfreed.sequences n).trans (setSequence_of_ne (hne hcancelled.waiting.isRunning)), ?_⟩
    exact Nat.lt_of_lt_of_eq hn hfreed.count.symm

theorem announce_keeps (env : Environment) (hn : n < s.count) : Keeps n s (s.announce env).1 := by
  cases hcan : env.canAnnounce with
  | false => simpa [announce, hcan] using ⟨rfl, hn⟩
  | true =>
    cases hnone : s.currentRequest with
    | some m => simpa [announce, hcan, hnone] using ⟨rfl, hn⟩
    | none =>
      rw [announce_eq env hcan hnone]
      exact ⟨addSequence_of_ne (Nat.ne_of_lt hn), Nat.lt_succ_of_lt hn⟩

theorem beginNewRequest_keeps (status : Status) (env : Environment) (hn : n < s.count) :
    Keeps n s (s.beginNewRequest status env).1 :=
  have h := announce_keeps (s := { s with currentDeferred := some false, currentStatus := some status }) env hn
  ⟨h.sequence, h.count⟩

/-- What comes after a cancellation is another announcement, or nothing. -/
theorem keeps_of_cancel (config : TrackerConfig) (env : Environment) (hs : s.Sound) (hn : n < s.count)
    (hnot : (s.sequences n).isRunning = false) {f : Rerequester → Rerequester}
    (hf : ∀ u : Rerequester, u.Sound → u.currentRequest = none → n < u.count → (u.sequences n).isRunning = false →
      Keeps n u (f u))
    (ht : t = match s.cancelCurrentRequest config env with
      | (u, true) => u
      | (u, false) => f u) : Keeps n s t := by
  have hkeeps := cancelCurrentRequest_keeps config env hs hn hnot
  have hsound := cancelCurrentRequest_sound config env hs
  cases hcancel : s.cancelCurrentRequest config env with
  | mk u raises =>
    rw [hcancel] at hkeeps hsound ht
    cases raises with
    | true => exact ht ▸ hkeeps
    | false =>
      have hstill : (u.sequences n).isRunning = false := by
        rw [hkeeps.sequence]
        exact hnot
      have hdone := cancelCurrentRequest_done config env hs (by rw [hcancel])
      rw [hcancel] at hdone
      exact ht ▸ hkeeps.trans (hf u hsound hdone.1 hkeeps.count hstill)

theorem start_keeps (config : TrackerConfig) (env : Environment) (hs : s.Sound) (hn : n < s.count)
    (hnot : (s.sequences n).isRunning = false) : Keeps n s (s.start config env) :=
  keeps_of_cancel config env hs hn hnot (f := fun u => ({ u with updateEvent := true }.beginNewRequest .started env).1)
    (fun u _ _ hu _ =>
      have h := beginNewRequest_keeps (s := { u with updateEvent := true }) .started env hu
      ⟨h.sequence, h.count⟩) rfl

theorem stop_keeps (config : TrackerConfig) (env : Environment) (hs : s.Sound) (hn : n < s.count)
    (hnot : (s.sequences n).isRunning = false) : Keeps n s (s.stop config env) := by
  refine keeps_of_cancel config env hs hn hnot (f := announceStopped env) (fun u _ _ hu _ => ?_) rfl
  cases hcan : env.canAnnounce with
  | false => simpa [announceStopped, hcan] using ⟨rfl, hu⟩
  | true =>
    obtain ⟨hsequences, hcount, -⟩ := u.announceStopped_same env hcan
    have hbegin := beginNewRequest_keeps .stopped env hu
    exact ⟨(congrFun hsequences n).trans hbegin.sequence, Nat.lt_of_lt_of_eq hbegin.count hcount.symm⟩

theorem setTrackers_keeps (config : TrackerConfig) (urlList : List (List Char)) (env : Environment) (hs : s.Sound)
    (hn : n < s.count) (hnot : (s.sequences n).isRunning = false) : Keeps n s (s.setTrackers config urlList env) := by
  cases hchanges : s.changes urlList with
  | error e => simpa [setTrackers, hchanges] using ⟨rfl, hn⟩
  | ok changed =>
    obtain ⟨hasNew, removed⟩ := changed
    have hfollow : (s.setTrackers config urlList env) = s ∨
        s.setTrackers config urlList env = match s.cancelCurrentRequest config env with
          | (u, true) => u
          | (u, false) =>
            if hasNew then
              ({ u with announceList := [makeAnnounceTier urlList], currentStatus := none } : Rerequester).start config env
            else { u with announceList := [makeAnnounceTier urlList] } := by
      unfold setTrackers
      rw [hchanges]
      cases hasNew <;> cases removed
      · exact .inl rfl
      all_goals exact .inr rfl
    rcases hfollow with hsame | hfollow
    · rw [hsame]
      exact ⟨rfl, hn⟩
    · refine keeps_of_cancel config env hs hn hnot (f := fun u => if hasNew then
        ({ u with announceList := [makeAnnounceTier urlList], currentStatus := none } : Rerequester).start config env
        else { u with announceList := [makeAnnounceTier urlList] }) (fun u hu hnone hcount hstill => ?_) hfollow
      split
      case isFalse => exact ⟨rfl, hcount⟩
      case isTrue =>
        have hlist := (hu.setAnnounceList hnone [makeAnnounceTier urlList]).of_same rfl rfl rfl rfl rfl
          (t := { u with announceList := [makeAnnounceTier urlList], currentStatus := none })
        have hstart := start_keeps config env hlist hcount hstill
        exact ⟨hstart.sequence, hstart.count⟩

/-- What becomes of a closed sequence later: it hears of requests, and nothing else. -/
structure StaysClosed (n : Nat) (s t : Rerequester) : Prop where
  count : n < t.count
  closed : (t.sequences n).Closed
  sent : (t.sequences n).sent = (s.sequences n).sent
  fired : (t.sequences n).fired = (s.sequences n).fired

theorem Keeps.staysClosed (h : Keeps n s t) (hclosed : (s.sequences n).Closed) : StaysClosed n s t where
  count := h.count
  closed := h.sequence ▸ hclosed
  sent := congrArg RequestSequence.sent h.sequence
  fired := congrArg RequestSequence.fired h.sequence

theorem settle_staysClosed {connects : Bool} (hn : n < s.count) (hclosed : (s.sequences n).Closed) {p : Nat × Nat}
    (hr : m = n → r = (s.sequences n).heard p) : StaysClosed n s (s.settle config m r connects env) := by
  obtain ⟨hsequences, hcount⟩ := settle_same config m r connects env s
  have hlt : n < (s.settle config m r connects env).count := Nat.lt_of_lt_of_eq hn hcount.symm
  by_cases hmn : m = n
  · have hthis : (s.settle config m r connects env).sequences n = (s.sequences n).heard p := by
      rw [hsequences, hmn, setSequence_self, hr hmn]
    refine ⟨hlt, ?_, ?_, ?_⟩
    all_goals rw [hthis]
    · exact hclosed.heard p
    · rfl
    · rfl
  · have hthis : (s.settle config m r connects env).sequences n = s.sequences n := by
      rw [hsequences]
      exact setSequence_of_ne fun heq => hmn heq.symm
    exact Keeps.staysClosed ⟨hthis, hlt⟩ hclosed

theorem step_staysClosed {a : TrackerAction} (hs : s.Sound) (hn : n < s.count) (hclosed : (s.sequences n).Closed)
    (hstep : step config s a = some t) : StaysClosed n s t := by
  have hnot := hclosed.isRunning
  cases a with
  | start env =>
    obtain rfl := Option.some.inj hstep
    exact (start_keeps config env hs hn hnot).staysClosed hclosed
  | forceStop env =>
    obtain rfl := Option.some.inj hstep
    exact (cancelCurrentRequest_keeps config env hs hn hnot).staysClosed hclosed
  | stop env =>
    obtain rfl := Option.some.inj hstep
    exact (stop_keeps config env hs hn hnot).staysClosed hclosed
  | finish env =>
    obtain rfl := Option.some.inj hstep
    refine Keeps.staysClosed (keeps_of_cancel config env hs hn hnot (f := fun u => (u.beginNewRequest .completed env).1)
      (fun u _ _ hu _ => beginNewRequest_keeps .completed env hu) rfl) hclosed
  | setTrackers urlList env =>
    obtain rfl := Option.some.inj hstep
    exact (setTrackers_keeps config urlList env hs hn hnot).staysClosed hclosed
  | addTrackers torrentData =>
    obtain rfl := Option.some.inj hstep
    exact Keeps.staysClosed ⟨rfl, hn⟩ hclosed
  | update force env =>
    obtain rfl := Option.some.inj hstep
    unfold update
    split
    · exact (announce_keeps env hn).staysClosed hclosed
    · exact Keeps.staysClosed ⟨rfl, hn⟩ hclosed
  | onUpdate howmany env =>
    obtain ⟨-, ⟨⟩⟩ := Option.ite_none_right_eq_some.mp hstep
    unfold onUpdate
    split
    · exact (announce_keeps env hn).staysClosed hclosed
    · exact Keeps.staysClosed ⟨rfl, hn⟩ hclosed
  | trackerSuccess m p response connects env =>
    obtain ⟨⟨-, hp⟩, ⟨⟩⟩ := Option.ite_none_right_eq_some.mp hstep
    refine settle_staysClosed hn hclosed (p := p) fun hmn => ?_
    subst hmn
    exact onSuccess_of_finished ((heard_finished p _).trans (hclosed.finished p hp))
  | trackerFailure m p failure circuitDead env =>
    obtain ⟨⟨-, hp⟩, ⟨⟩⟩ := Option.ite_none_right_eq_some.mp hstep
    refine settle_staysClosed hn hclosed (p := p) fun hmn => ?_
    subst hmn
    exact onFailure_of_finished ((heard_finished p _).trans (hclosed.finished p hp))

theorem run_staysClosed {as : List TrackerAction} (h : Run (step config) (fun _ _ => True) s as t) (hs : s.Sound)
    (hn : n < s.count) (hclosed : (s.sequences n).Closed) : StaysClosed n s t := by
  induction h with
  | refl s => exact ⟨hn, hclosed, rfl, rfl⟩
  | cons _ hstep _ ih =>
    have hnext := step_staysClosed hs hn hclosed hstep
    have hlater := ih (step_unstuck config hs hstep).1 hnext.count hnext.closed
    exact ⟨hlater.count, hlater.closed, hlater.sent.trans hnext.sent, hlater.fired.trans hnext.fired⟩

/-- The sequence `n` is cancelled without a further request of it, then or later; its deferred fires
with nothing but `Cancelled`, and what the user is told and when to try again stay the same. -/
structure CancelsSilently (config : TrackerConfig) (env : Environment) (n : Nat) (s : Rerequester) : Prop where
  sent : ∀ bs u, Run (step config) (fun _ _ => True) (s.cancelCurrentRequest config env).1 bs u →
    (u.sequences n).sent = (s.sequences n).sent
  fired : ∀ bs u, Run (step config) (fun _ _ => True) (s.cancelCurrentRequest config env).1 bs u →
    (u.sequences n).fired = [.cancelled]
  failWait : (s.cancelCurrentRequest config env).1.failWait = s.failWait
  errorMsg : (s.cancelCurrentRequest config env).1.errorMsg = s.errorMsg

theorem cancelsSilently_of_missing {q : Nat × Nat} {e : LookupError} (hs : s.Sound) (hcurrent : s.currentRequest = some n)
    (hw : (s.sequences n).Waiting) (hnext : following (s.sequences n).announceList (s.sequences n).position = some q)
    (hq : lookup (s.sequences n).announceList q = .error e) : s.CancelsSilently config env n := by
  obtain ⟨-, hcancelled⟩ := cancelCurrentRequest_waiting config env hs hcurrent hw
  obtain ⟨hsent, hfired, hclosed⟩ := hw.stop_missing env.cancelAnswers hnext hq
  have hthis : (s.cancelCurrentRequest config env).1.sequences n = ((s.sequences n).stop env.cancelAnswers).1 := by
    rw [hcancelled.freed.sequences, setSequence_self]
  have hlater {bs u} (hrun : Run (step config) (fun _ _ => True) (s.cancelCurrentRequest config env).1 bs u) :
      StaysClosed n (s.cancelCurrentRequest config env).1 u :=
    run_staysClosed hrun (hs.cancelled hcurrent hcancelled)
      (Nat.lt_of_lt_of_eq (hs.current n hcurrent) hcancelled.freed.count.symm) (hthis ▸ hclosed)
  obtain ⟨hwait, hmsg⟩ := hcancelled.silent hfired
  refine ⟨fun bs u hrun => ?_, fun bs u hrun => ?_, hwait, hmsg⟩
  · rw [(hlater hrun).sent, hthis]
    exact hsent
  · rw [(hlater hrun).fired, hthis]
    exact hfired

/-- In every state a running sequence is cancelled silently exactly when the next tracker is not there. -/
theorem cancelsSilently_iff {torrentData : TorrentData} {shuffle : Nat → List Tracker → List Tracker} {s₀ : Rerequester}
    (h : new config torrentData shuffle = some s₀) {as : List TrackerAction}
    (hrun : Run (step config) (fun _ _ => True) s₀ as s) (hcurrent : s.currentRequest = some n)
    (hrunning : (s.sequences n).isRunning = true) (env : Environment) :
    s.CancelsSilently config env n ↔ (s.sequences n).NextMissing := by
  have hs := run_sound h hrun
  rcases (hs.regular n (hs.current n hcurrent)).going hrunning with hw | ⟨e, hstuck⟩
  · obtain ⟨-, hcancelled⟩ := cancelCurrentRequest_waiting config env hs hcurrent hw
    have hthis : (s.cancelCurrentRequest config env).1.sequences n = ((s.sequences n).stop env.cancelAnswers).1 := by
      rw [hcancelled.freed.sequences, setSequence_self]
    cases hnext : following (s.sequences n).announceList (s.sequences n).position with
    | none =>
      refine iff_of_false (fun hsilent => ?_) (fun hmissing => ?_)
      · have hfired := hsilent.fired [] _ (.refl _)
        rw [hthis, hw.stop_last hnext] at hfired
        cases hfired
      · obtain ⟨-, q, hq, -⟩ := hmissing
        rw [hnext] at hq
        cases hq
    | some q =>
      cases hq : lookup (s.sequences n).announceList q with
      | error e =>
        refine iff_of_true (cancelsSilently_of_missing hs hcurrent hw hnext hq) ⟨hw.found, q, hnext, e, hq⟩
      | ok q' =>
        obtain rfl := eq_of_lookup hq
        refine iff_of_false (fun hsilent => ?_) (fun hmissing => ?_)
        · have hsent := hsilent.sent [] _ (.refl _)
          rw [hthis] at hsent
          exact Nat.lt_irrefl _ (Nat.lt_of_lt_of_eq (hw.stop_found hnext hq) (congrArg List.length hsent))
        · obtain ⟨-, q'', hq'', e, he⟩ := hmissing
          obtain rfl := Option.some.inj (hnext.symm.trans hq'')
          rw [hq] at he
          cases he
  · refine iff_of_false (fun hsilent => ?_) (fun hmissing => ?_)
    · have hfired := hsilent.fired [] _ (.refl _)
      rcases cancelCurrentRequest_cases config env hs with ⟨t, -, -, -, hidle⟩ | ⟨m, e', hm, -, ht⟩ | ⟨m, hm, -, hcancelled⟩
      · exact Bool.false_ne_true ((hidle n hcurrent).symm.trans hrunning)
      · obtain rfl := Option.some.inj (hcurrent.symm.trans hm)
        rw [ht, setSequence_self, show ((s.sequences n).error e').fired = (s.sequences n).fired from rfl,
          hstuck.fired] at hfired
        cases hfired
      · obtain rfl := Option.some.inj (hcurrent.symm.trans hm)
        have hboth := hstuck.missing.symm.trans hcancelled.waiting.found
        cases hboth
    · have hboth := hstuck.missing.symm.trans hmissing.1
      cases hboth

def lonelyTorrent (announceList : List (List (List Char))) : TorrentData where
  announceList := some announceList
  announce := ['a']

/-- The second tier is empty. -/
theorem example_cancelled_silently : ∃ s₀ s, new exampleConfig (lonelyTorrent [[['a']]]) (fun _ tier => tier) = some s₀ ∧
    Run (step exampleConfig) (fun _ _ => True) s₀
      [.addTrackers (lonelyTorrent [[['a']], []]), .start (exampleEnvironment [])] s ∧
    s.CancelsSilently exampleConfig (exampleEnvironment []) 0 := by
  have hend : (new exampleConfig (lonelyTorrent [[['a']]]) (fun _ tier => tier)).any (fun s₀ =>
      (exec (step exampleConfig) s₀ [.addTrackers (lonelyTorrent [[['a']], []]), .start (exampleEnvironment [])]).any
        (fun s => s.currentRequest = some 0 ∧ (s.sequences 0).isRunning = true ∧
          (s.sequences 0).announceList = [[.connection ['a']], []] ∧ (s.sequences 0).position = (0, 0))) = true := by
    decide
  obtain ⟨s₀, hnew, hexec⟩ := (Option.any_eq_true _ _).mp hend
  obtain ⟨s, hrun, hs⟩ := exists_run hexec (eachStep_true _ _)
  obtain ⟨hcurrent, hrunning, hlist, hposition⟩ := of_decide_eq_true hs
  have hmissing : (s.sequences 0).NextMissing := by
    unfold RequestSequence.NextMissing
    rw [hlist, hposition]
    exact ⟨rfl, (1, 0), rfl, .indexError, rfl⟩
  exact ⟨s₀, s, hnew, hrun, (cancelsSilently_iff hnew hrun hcurrent hrunning _).mpr hmissing⟩

/-- The tracker of the second tier gets a request while the sequence is stopped. -/
theorem cancelled_sequence_goes_on : ∃ s₀ s, new exampleConfig exampleTorrent (fun _ tier => tier) = some s₀ ∧
    Run (step exampleConfig) (fun _ _ => True) s₀ [.start (exampleEnvironment [])] s ∧
    s.currentRequest = some 0 ∧ (s.sequences 0).isRunning = true ∧ (s.sequences 0).sent = [(0, 0)] ∧
    ((s.cancelCurrentRequest exampleConfig (exampleEnvironment [])).1.sequences 0).sent = [(0, 0), (1, 0)] ∧
    ¬s.CancelsSilently exampleConfig (exampleEnvironment []) 0 := by
  have hend : (new exampleConfig exampleTorrent (fun _ tier => tier)).any (fun s₀ =>
      (exec (step exampleConfig) s₀ [.start (exampleEnvironment [])]).any (fun s =>
        s.currentRequest = some 0 ∧ (s.sequences 0).isRunning = true ∧ (s.sequences 0).sent = [(0, 0)] ∧
        ((s.cancelCurrentRequest exampleConfig (exampleEnvironment [])).1.sequences 0).sent = [(0, 0), (1, 0)])) = true := by
    decide
  obtain ⟨s₀, hnew, hexec⟩ := (Option.any_eq_true _ _).mp hend
  obtain ⟨s, hrun, hs⟩ := exists_run hexec (eachStep_true _ _)
  obtain ⟨hcurrent, hrunning, hbefore, hafter⟩ := of_decide_eq_true hs
  refine ⟨s₀, s, hnew, hrun, hcurrent, hrunning, hbefore, hafter, fun hsilent => ?_⟩
  have hsent := hsilent.sent [] _ (.refl _)
  rw [hafter, hbefore] at hsent
  cases hsent

end Rerequester

end BitBlinder.BitTorrent
