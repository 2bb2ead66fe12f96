import BitBlinder.Applications.LifecycleClaims

/-!
# Starting and stopping

`start` and `stop` keep the claims on deferreds, and change only the deferreds of the
transitions that are under way and new ones.
-/

namespace BitBlinder.Lifecycle

set_option autoImplicit false

open Application

variable {c : Subclass} {s t : Application} {d x n : Nat}

/-- What a call of `start` or `stop` leaves alone: it changes the deferreds of the transitions and new ones. -/
structure Extends (s t : Application) : Prop where
  next : s.heap.next ≤ t.heap.next
  running : t.heap.running = s.heap.running
  calls : ∀ i < s.heap.next, (t.heap.get i).calls = (s.heap.get i).calls
  waiting : ∀ i < s.heap.next, (t.heap.get i).waiting = (s.heap.get i).waiting
  callbacks : ∀ i < s.heap.next, ∃ l, (t.heap.get i).callbacks = (s.heap.get i).callbacks ++ l
  others : ∀ i < s.heap.next, s.startupDeferred ≠ some i → s.shutdownDeferred ≠ some i →
    (t.heap.get i).callbacks = (s.heap.get i).callbacks
  startup : ∀ i, t.startupDeferred = some i → s.startupDeferred = some i ∨ s.heap.next ≤ i
  shutdown : ∀ i, t.shutdownDeferred = some i → s.shutdownDeferred = some i ∨ s.heap.next ≤ i
  stopping : ∀ i, s.shutdownDeferred = some i → t.shutdownDeferred = some i
  claims : ∀ i < s.heap.next, t.claims i = s.claims i
  carriedOut : t.carriedOut = s.carriedOut
  promised : s.promised ⊆ t.promised
  since : ∀ i r, (i, r) ∈ t.promised → (i, r) ∈ s.promised ∨ t.shutdownDeferred = some i
  kept : ∀ i < s.heap.next, Promised t i → Promised s i

namespace Extends

theorem refl (s : Application) : Extends s s where
  next := Nat.le_refl _
  running := rfl
  calls := fun _ _ => rfl
  waiting := fun _ _ => rfl
  callbacks := fun _ _ => ⟨[], (List.append_nil _).symm⟩
  others := fun _ _ _ _ => rfl
  startup := fun _ => Or.inl
  shutdown := fun _ => Or.inl
  stopping := fun _ => id
  claims := fun _ _ => rfl
  carriedOut := rfl
  promised := List.Subset.refl _
  since := fun _ _ => Or.inl
  kept := fun _ _ => id

theorem unclaimed (h : Extends s t) (hu : Unclaimed s d) (hp : ¬Promised s d) : Unclaimed t d ∧ ¬Promised t d :=
  ⟨⟨hu.lt.trans_le h.next, (h.claims d hu.lt).trans hu.claims, (h.calls d hu.lt).trans hu.calls⟩,
    fun hp' => hp (h.kept d hu.lt hp')⟩

theorem alike_left {s' : Application} (ha : Alike s s') (h : Extends s' t) : Extends s t := by
  obtain ⟨heap, startup, shutdown, restart, isRestarting, processes, launching, dependenciesCalls, launchCalls,
    exitCalls, requests, carriedOut, promised⟩ := s'
  obtain ⟨hheap, hstartup, hshutdown, hrestart, hrequests, hcarried, hpromised⟩ := ha
  subst hheap hstartup hshutdown hrestart hrequests hcarried hpromised
  exact ⟨h.next, h.running, h.calls, h.waiting, h.callbacks, h.others, h.startup, h.shutdown, h.stopping, h.claims,
    h.carriedOut, h.promised, h.since, h.kept⟩

theorem alike_right {t' : Application} (h : Extends s t) (ha : Alike t t') : Extends s t' := by
  obtain ⟨heap, startup, shutdown, restart, isRestarting, processes, launching, dependenciesCalls, launchCalls,
    exitCalls, requests, carriedOut, promised⟩ := t'
  obtain ⟨hheap, hstartup, hshutdown, hrestart, hrequests, hcarried, hpromised⟩ := ha
  subst hheap hstartup hshutdown hrestart hrequests hcarried hpromised
  exact ⟨h.next, h.running, h.calls, h.waiting, h.callbacks, h.others, h.startup, h.shutdown, h.stopping, h.claims,
    h.carriedOut, h.promised, h.since, h.kept⟩

end Extends

theorem succeed_spec (hs : Sound s) : Sound s.succeed.1 ∧ Extends s s.succeed.1 := by
  refine ⟨hs.alloc rfl (Nat.le_refl 1), ?_⟩
  have hget {i : Nat} (hi : i < s.heap.next) : (s.heap.alloc succeeded).get i = s.heap.get i := Deferreds.get_alloc_of_lt hi
  refine ⟨Nat.le_succ _, rfl, fun i hi => congrArg Deferred.calls (hget hi), fun i hi => congrArg Deferred.waiting (hget hi),
    fun i hi => ⟨[], ?_⟩, fun i hi _ _ => congrArg Deferred.callbacks (hget hi), fun _ => Or.inl, fun _ => Or.inl,
    fun _ => id, fun i _ => hs.claims_alloc rfl i, rfl, List.Subset.refl _, fun _ _ => Or.inl, fun _ _ => id⟩
  rw [List.append_nil]
  exact congrArg Deferred.callbacks (hget hi)

/-- A new deferred, and a callback about it for the transition that is under way. -/
theorem park_heap (hs : Sound s) (hd : d < s.heap.next) (k : Callback) :
    let h := (s.heap.alloc pending).add d k
    (∀ i < s.heap.next, (h.get i).calls = (s.heap.get i).calls) ∧
    (∀ i < s.heap.next, (h.get i).waiting = (s.heap.get i).waiting) ∧
    (∀ i < s.heap.next, ∃ l, (h.get i).callbacks = (s.heap.get i).callbacks ++ l) ∧
    (∀ i < s.heap.next, i ≠ d → (h.get i).callbacks = (s.heap.get i).callbacks) ∧
    (∀ i, { s with heap := h }.claims i = s.claims i + k.fires i) := by
  have hget {i : Nat} (hi : i < s.heap.next) : (s.heap.alloc pending).get i = s.heap.get i := Deferreds.get_alloc_of_lt hi
  refine ⟨fun i hi => ?_, fun i hi => ?_, fun i hi => ?_, fun i hi hne => ?_, fun i => ?_⟩
  · rw [Deferreds.calls_add, hget hi]
  · rw [Deferreds.waiting_add, hget hi]
  · rw [Deferreds.callbacks_add]
    split
    · case isTrue heq =>
      subst heq
      exact ⟨[k], by rw [hget hi]⟩
    · exact ⟨[], by rw [hget hi, List.append_nil]⟩
  · rw [Deferreds.callbacks_add, if_neg hne, hget hi]
  · rw [← hs.claims_alloc (e := pending) rfl i]
    exact Sound.claims_add (s := { s with heap := s.heap.alloc pending }) (Nat.lt_succ_of_lt hd) k i

theorem startWhenStopped_spec (hs : Sound s) (hd : s.shutdownDeferred = some d) :
    Sound (s.startWhenStopped d).1 ∧ Extends s (s.startWhenStopped d).1 := by
  unfold startWhenStopped
  cases hr : s.restartDeferred with
  | some r =>
    refine ⟨?_, ?_⟩
    · refine hs.records rfl rfl rfl hs.requests fun r' hr' => hs.unclaimed r' ?_
      rcases hr' with hr' | ⟨i, hi⟩
      · exact .inl (hr.trans hr')
      · rcases List.mem_cons.mp hi with heq | hi
        · cases heq
          exact .inl hr
        · exact .inr ⟨i, hi⟩
    · refine { Extends.refl s with promised := List.subset_cons_self _ _, since := fun i r' hi => ?_, kept := fun i _ hi => ?_ }
      · rcases List.mem_cons.mp hi with heq | hi
        · cases heq
          exact .inr hd
        · exact .inl hi
      · rcases hi with hi | ⟨j, hj⟩
        · exact .inl (hr.trans hi)
        · rcases List.mem_cons.mp hj with heq | hj
          · cases heq
            exact .inl hr
          · exact .inr ⟨j, hj⟩
  | none =>
    have hlt := hs.lt_of_shutdown hd
    have hget : (s.heap.alloc pending).get d = s.heap.get d := Deferreds.get_alloc_of_lt hlt
    have halloc := hs.alloc (e := pending) rfl (Nat.zero_le 1)
    have hfree : Sound.Free { s with heap := s.heap.alloc pending } d :=
      halloc.free_of_not_parks (halloc.not_parks_of_shutdown hd)
    have hadd := halloc.add_free (k := .start s.heap.next) (Nat.lt_succ_of_lt hlt) hfree
      (.inl ((congrArg Deferred.calls hget).trans (hs.calm d hd))) nofun rfl fun _ hne => absurd rfl hne
    obtain ⟨hcalls, hwaiting, hcallbacks, hother, hclaims⟩ := park_heap hs hlt (.start s.heap.next)
    have hnext := hs.unclaimed_alloc
    refine ⟨?_, ?_⟩
    · refine hadd.records rfl rfl rfl hadd.requests fun r' hr' => ?_
      have hold : r' = s.heap.next ∨ Promised s r' := by
        rcases hr' with hr' | ⟨i, hi⟩
        · exact .inl (Option.some.inj hr').symm
        · rcases List.mem_cons.mp hi with heq | hi
          · cases heq
            exact .inl rfl
          · exact .inr (.inr ⟨i, hi⟩)
      rcases hold with rfl | hold
      · refine ⟨hnext.lt, ?_, Deferreds.calls_add.trans hnext.calls⟩
        exact (hclaims s.heap.next).trans (hs.fresh _ (Nat.le_refl _))
      · exact hadd.unclaimed r' hold
    · refine ⟨Nat.le_succ _, rfl, hcalls, hwaiting, hcallbacks, fun i hi _ hne => hother i hi fun heq => hne (heq ▸ hd),
        fun _ => Or.inl, fun _ => Or.inl, fun _ => id, fun i _ => hclaims i, rfl, List.subset_cons_self _ _,
        fun i r' hi => ?_, fun i hi hp => ?_⟩
      · rcases List.mem_cons.mp hi with heq | hi
        · cases heq
          exact .inr hd
        · exact .inl hi
      · rcases hp with hp | ⟨j, hj⟩
        · exact absurd (Option.some.inj hp) (Nat.ne_of_gt hi)
        · rcases List.mem_cons.mp hj with heq | hj
          · cases heq
            exact absurd hi (Nat.lt_irrefl _)
          · exact .inr ⟨j, hj⟩

theorem stopLater_spec (hs : Sound s) (hd : s.startupDeferred = some d) :
    Sound (s.stopLater d).1 ∧ Extends s (s.stopLater d).1 := by
  have hlt := hs.lt_of_startup hd
  have hget : (s.heap.alloc pending).get d = s.heap.get d := Deferreds.get_alloc_of_lt hlt
  have halloc := hs.alloc (e := pending) rfl (Nat.zero_le 1)
  have hnext := hs.unclaimed_alloc
  have hnot : ¬Promised { s with heap := s.heap.alloc pending } s.heap.next := fun hp =>
    absurd (hs.unclaimed _ hp).lt (Nat.lt_irrefl _)
  have hadd := halloc.add (k := .stopWhenStarted s.heap.next) (Nat.lt_succ_of_lt hlt)
    (.inl ((congrArg Deferred.calls hget).trans (hs.startup_calls hd))) nofun (fun _ => ⟨halloc.starting d hd, rfl⟩) nofun
    fun i hi => by
      have heq : s.heap.next = i := by
        by_contra hne
        exact hi (if_neg hne)
      subst heq
      exact ⟨hnext, hnot⟩
  obtain ⟨hcalls, hwaiting, hcallbacks, hother, hclaims⟩ := park_heap hs hlt (.stopWhenStarted s.heap.next)
  refine ⟨?_, ?_⟩
  · refine hadd.records rfl rfl rfl (fun i x hx => ?_) hadd.unclaimed
    rcases List.mem_cons.mp hx with heq | hx
    · cases heq
      exact .inr (Deferreds.mem_callbacks_add.mpr (.inr ⟨rfl, rfl⟩))
    · exact hadd.requests i x hx
  · refine ⟨Nat.le_succ _, rfl, hcalls, hwaiting, hcallbacks, fun i hi hne _ => hother i hi fun heq => hne (heq ▸ hd),
      fun _ => Or.inl, fun _ => Or.inl, fun _ => id, fun i hi => ?_, rfl, List.Subset.refl _, fun _ _ => Or.inl,
      fun _ _ => id⟩
    exact (hclaims i).trans (congrArg (s.claims i + ·) (if_neg (Nat.ne_of_gt hi)))

theorem shutDown_spec (hs : Sound s) (hstartup : s.startupDeferred = none) (hshutdown : s.shutdownDeferred = none) :
    Sound (s.shutDown c).1 ∧ Extends s (s.shutDown c).1 := by
  unfold shutDown
  split
  · have halloc := hs.alloc (e := pending) rfl (Nat.zero_le 1)
    have hnext := hs.unclaimed_alloc
    have hget {i : Nat} (hi : i < s.heap.next) : (s.heap.alloc pending).get i = s.heap.get i := Deferreds.get_alloc_of_lt hi
    have hnone : ((s.heap.alloc pending).get s.heap.next).callbacks = [] := congrArg Deferred.callbacks Deferreds.get_alloc_self
    have hbegin := halloc.setShutdown hstartup hshutdown hnext (fun hp => absurd (hs.unclaimed _ hp).lt (Nat.lt_irrefl _)) hnone
    refine ⟨hbegin.alike ⟨rfl, rfl, rfl, rfl, rfl, rfl, rfl⟩, ?_⟩
    refine ⟨Nat.le_succ _, rfl, fun i hi => ?_, fun i hi => ?_, fun i hi => ⟨[], ?_⟩, fun i hi _ _ => ?_, fun _ => Or.inl,
      fun i hi => ?_, fun i hi => ?_, fun i hi => ?_, rfl, List.Subset.refl _, fun _ _ => Or.inl, fun _ _ => id⟩
    · rw [Deferreds.calls_add]
      exact congrArg Deferred.calls (hget hi)
    · rw [Deferreds.waiting_add]
      exact congrArg Deferred.waiting (hget hi)
    · rw [List.append_nil, Deferreds.callbacks_add, if_neg (Nat.ne_of_lt hi)]
      exact congrArg Deferred.callbacks (hget hi)
    · rw [Deferreds.callbacks_add, if_neg (Nat.ne_of_lt hi)]
      exact congrArg Deferred.callbacks (hget hi)
    · exact .inr (Option.some.inj hi).le
    · exact absurd (hshutdown.symm.trans hi) nofun
    · have hclaims := Sound.claims_setShutdown (s := { s with heap := s.heap.alloc pending }) hstartup hshutdown hnext i
      rw [if_neg (Nat.ne_of_gt hi), Nat.add_zero, hs.claims_alloc rfl] at hclaims
      exact hclaims
  · have ha : Alike s { s with exitCalls := s.exitCalls + 1 }.stopDone := ⟨rfl, rfl, hshutdown.symm, rfl, rfl, rfl, rfl⟩
    obtain ⟨hsound, hextends⟩ := succeed_spec (hs.alike ha)
    exact ⟨hsound, hextends.alike_left ha⟩
  · have ha : Alike s { s with exitCalls := s.exitCalls + 1 }.stopDone := ⟨rfl, rfl, hshutdown.symm, rfl, rfl, rfl, rfl⟩
    exact ⟨hs.alike ha, (Extends.refl s).alike_right ha⟩

/-- What `dependencies_done`, `launch_finished` and `launch_failed` come to. -/
theorem launchResult_cases (hd : s.startupDeferred = some d) (result : Except Unit (List Process)) :
    ∃ r, Alike { s with startupDeferred := none, heap := s.heap.fire d r } (s.launchResult result) := by
  cases result with
  | ok processes =>
    refine ⟨.ok (some true), ?_⟩
    simp only [launchResult, launchFinished, hd]
    exact ⟨rfl, rfl, rfl, rfl, rfl, rfl, rfl⟩
  | error e =>
    refine ⟨.ok (some false), ?_⟩
    simp only [launchResult, launchFailed, hd]
    exact ⟨rfl, rfl, rfl, rfl, rfl, rfl, rfl⟩

theorem dependenciesResult_cases (hd : s.startupDeferred = some d) (result : Except Unit Unit) :
    Alike s (s.dependenciesResult c result) ∨
      ∃ r, Alike { s with startupDeferred := none, heap := s.heap.fire d r } (s.dependenciesResult c result) := by
  cases result with
  | ok _ =>
    simp only [dependenciesResult, dependenciesDone]
    split
    · case h_1 launched _ =>
      obtain ⟨r, hr⟩ := launchResult_cases (s := { s with launchCalls := s.launchCalls + 1, launching := true }) hd launched
      exact .inr ⟨r, hr.1, hr.2, hr.3, hr.4, hr.5, hr.6, hr.7⟩
    · exact .inl ⟨rfl, rfl, rfl, rfl, rfl, rfl, rfl⟩
  | error e => exact .inr (launchResult_cases hd (.error e))

theorem startUp_spec (hs : Sound s) (hstartup : s.startupDeferred = none) (hshutdown : s.shutdownDeferred = none) :
    Sound (s.startUp c).1 ∧ Extends s (s.startUp c).1 := by
  have halloc := hs.alloc (e := pending) rfl (Nat.zero_le 1)
  have hnext := hs.unclaimed_alloc
  have hget {i : Nat} (hi : i < s.heap.next) : (s.heap.alloc pending).get i = s.heap.get i := Deferreds.get_alloc_of_lt hi
  have hself : (s.heap.alloc pending).get s.heap.next = pending := Deferreds.get_alloc_self
  have hnot : ¬Promised { s with heap := s.heap.alloc pending } s.heap.next := fun hp =>
    absurd (hs.unclaimed _ hp).lt (Nat.lt_irrefl _)
  have hparks : Parks { s with heap := s.heap.alloc pending } s.heap.next :=
    ⟨congrArg Deferred.waiting hself, fun k hk => absurd (congrArg Deferred.callbacks hself ▸ hk) List.not_mem_nil⟩
  have hbegin := halloc.setStartup hstartup hshutdown hnext hnot hparks
  let t : Application := { s with
    heap := s.heap.alloc pending
    restartDeferred := none
    startupDeferred := some s.heap.next
    launching := false
    dependenciesCalls := s.dependenciesCalls + 1 }
  have ht : Sound t := hbegin.alike ⟨rfl, rfl, rfl, rfl, rfl, rfl, rfl⟩
  have hextends : Extends s t := by
    refine ⟨Nat.le_succ _, rfl, fun i hi => congrArg Deferred.calls (hget hi),
      fun i hi => congrArg Deferred.waiting (hget hi), fun i hi => ⟨[], ?_⟩,
      fun i hi _ _ => congrArg Deferred.callbacks (hget hi), fun i hi => ?_, fun _ => Or.inl, fun _ => id, fun i hi => ?_, rfl,
      List.Subset.refl _, fun _ _ => Or.inl, fun i _ hp => ?_⟩
    · rw [List.append_nil]
      exact congrArg Deferred.callbacks (hget hi)
    · exact .inr (Option.some.inj hi).le
    · have hclaims := Sound.claims_setStartup (s := { s with heap := s.heap.alloc pending }) (d := s.heap.next)
        hstartup hshutdown i
      rw [if_neg (Nat.ne_of_gt hi), Nat.add_zero, hs.claims_alloc rfl] at hclaims
      exact hclaims
    · exact hp.elim nofun Or.inr
  have hcases : Alike t (s.startUp c).1 ∨
      ∃ r, Alike { t with startupDeferred := none, heap := t.heap.fire s.heap.next r } (s.startUp c).1 := by
    unfold startUp
    split
    · case h_1 result _ =>
      exact dependenciesResult_cases (s := t) rfl result
    · exact .inl ⟨rfl, rfl, rfl, rfl, rfl, rfl, rfl⟩
  rcases hcases with ha | ⟨r, ha⟩
  · exact ⟨ht.alike ha, hextends.alike_right ha⟩
  · obtain ⟨hclear, hunclaimed, hnot'⟩ := ht.clearStartup rfl
    refine ⟨(hclear.fire hunclaimed hnot' r).alike ha, Extends.alike_right ?_ ha⟩
    have hfire {i : Nat} (hi : i < s.heap.next) : i ≠ s.heap.next := Nat.ne_of_lt hi
    refine ⟨?_, ?_, fun i hi => ?_, fun i hi => ?_, fun i hi => ⟨[], ?_⟩, fun i hi _ _ => ?_, nofun, fun _ => Or.inl,
      fun _ => id, fun i hi => ?_, rfl, List.Subset.refl _, fun _ _ => Or.inl, hextends.kept⟩
    · exact Deferreds.next_fire.symm ▸ hextends.next
    · exact Deferreds.running_fire_of_nil (congrArg Deferred.callbacks hself)
    · rw [Deferreds.calls_fire, if_neg (hfire hi)]
      exact hextends.calls i hi
    · exact Deferreds.waiting_fire.trans (hextends.waiting i hi)
    · rw [List.append_nil, Deferreds.callbacks_fire]
      exact congrArg Deferred.callbacks (hget hi)
    · rw [Deferreds.callbacks_fire]
      exact congrArg Deferred.callbacks (hget hi)
    · have hclaims := Sound.claims_fire hunclaimed r i
      refine hclaims.trans (Eq.trans ?_ (hs.claims_alloc (e := pending) rfl i))
      simp only [claims, hstartup, reduceCtorEq, if_false, t]

theorem start_spec (hs : Sound s) : Sound (s.start c).1 ∧ Extends s (s.start c).1 := by
  have ha : Alike s { s with isRestarting := false } := ⟨rfl, rfl, rfl, rfl, rfl, rfl, rfl⟩
  have ht := hs.alike ha
  simp only [start]
  split
  · obtain ⟨hsound, hextends⟩ := succeed_spec ht
    exact ⟨hsound, hextends.alike_left ha⟩
  · split
    · exact ⟨ht, (Extends.refl s).alike_right ha⟩
    · case h_2 hstartup =>
      split
      · case h_1 d hshutdown =>
        obtain ⟨hsound, hextends⟩ := startWhenStopped_spec ht hshutdown
        exact ⟨hsound, hextends.alike_left ha⟩
      · case h_2 hshutdown =>
        obtain ⟨hsound, hextends⟩ := startUp_spec (c := c) ht hstartup hshutdown
        exact ⟨hsound, hextends.alike_left ha⟩

theorem stop_spec (hs : Sound s) : Sound (s.stop c).1 ∧ Extends s (s.stop c).1 := by
  unfold stop
  split
  · exact ⟨hs, Extends.refl s⟩
  · case h_2 hshutdown =>
    split
    · case h_1 d hstartup => exact stopLater_spec hs hstartup
    · case h_2 hstartup =>
      split
      · exact shutDown_spec hs hstartup hshutdown
      · exact succeed_spec hs

theorem start_lt (hs : Sound s) {x : Nat} (hx : (s.start c).2 = some x) : x < (s.start c).1.heap.next := by
  have hsound : Sound (s.start c).1 := (start_spec hs).1
  have ht : Sound { s with isRestarting := false } := hs.alike ⟨rfl, rfl, rfl, rfl, rfl, rfl, rfl⟩
  revert hx hsound
  simp only [start]
  split
  · rintro hx -
    obtain rfl := Option.some.inj hx
    exact Nat.lt_succ_self _
  · split
    · case h_1 d hstartup =>
      rintro hx -
      obtain rfl := Option.some.inj hx
      exact ht.lt_of_startup hstartup
    · split
      · case h_1 d hshutdown =>
        simp only [startWhenStopped]
        split
        · case h_1 r hr =>
          rintro hx -
          obtain rfl := Option.some.inj hx
          exact (ht.unclaimed r (.inl hr)).lt
        · rintro hx -
          obtain rfl := Option.some.inj hx
          exact Nat.lt_succ_self _
      · intro hx hsound
        exact hsound.lt_of_startup hx

/-- What `stop` returns is not a deferred of a startup: it has fired, and nothing is under way, or it
is that of a shutdown or a new one. -/
structure Returned (s t : Application) (x : Nat) : Prop where
  lt : x < t.heap.next
  free : Sound.Free t x
  fired : ((t.heap.get x).calls = 0 ∧ (t.shutdownDeferred = some x ∨ s.heap.next ≤ x)) ∨
    ((t.heap.get x).calls ≠ 0 ∧ t.startupDeferred = none ∧ t.shutdownDeferred = none)

theorem succeed_returned (hstartup : t.startupDeferred = none) (hshutdown : t.shutdownDeferred = none) :
    Returned s t.succeed.1 t.heap.next := by
  have hself : ((t.heap.alloc succeeded).get t.heap.next) = succeeded := Deferreds.get_alloc_self
  refine ⟨Nat.lt_succ_self _, ⟨fun h => absurd (hstartup.symm.trans h) nofun, fun x hx => ?_⟩, .inr ⟨?_, hstartup, hshutdown⟩⟩
  · exact absurd (congrArg Deferred.callbacks hself ▸ hx) List.not_mem_nil
  · exact fun hzero => absurd ((congrArg Deferred.calls hself).symm.trans hzero) nofun

/-- A deferred that was just made, with a callback at most. -/
theorem new_returned {heap : Deferreds Callback Result} {k : Callback} (hheap : t.heap = (heap.alloc pending).add d k)
    (hstartup : t.startupDeferred ≠ some heap.next) (hk : d = heap.next → ∀ x, k ≠ .stopWhenStarted x)
    (hnext : s.heap.next ≤ heap.next) : Returned s t heap.next := by
  have hpending : (heap.alloc pending).get heap.next = pending := Deferreds.get_alloc_self
  refine ⟨hheap ▸ Nat.lt_succ_self _, ⟨hstartup, fun x hx => ?_⟩, .inl ⟨?_, .inr hnext⟩⟩
  · rw [hheap] at hx
    rcases Deferreds.mem_callbacks_add.mp hx with hmem | ⟨heq, hkx⟩
    · exact absurd (congrArg Deferred.callbacks hpending ▸ hmem) List.not_mem_nil
    · exact hk heq.symm x hkx.symm
  · rw [hheap, Deferreds.calls_add, hpending]
    rfl

theorem stop_returned (hs : Sound s) {x : Nat} (hx : (s.stop c).2 = some x) : Returned s (s.stop c).1 x := by
  revert hx
  unfold stop
  split
  · case h_1 d hshutdown =>
    intro hx
    obtain rfl := Option.some.inj hx
    exact ⟨hs.lt_of_shutdown hshutdown, hs.free_of_not_parks (hs.not_parks_of_shutdown hshutdown),
      .inl ⟨hs.calm d hshutdown, .inl hshutdown⟩⟩
  · case h_2 hshutdown =>
    split
    · case h_1 d hstartup =>
      intro hx
      obtain rfl := Option.some.inj hx
      have hne : d ≠ s.heap.next := Nat.ne_of_lt (hs.lt_of_startup hstartup)
      exact new_returned rfl (fun h => hne (Option.some.inj (hstartup.symm.trans h))) (fun heq => absurd heq hne)
        (Nat.le_refl _)
    · case h_2 hstartup =>
      split
      · simp only [shutDown]
        split
        · intro hx
          obtain rfl := Option.some.inj hx
          exact new_returned rfl (fun h => absurd (hstartup.symm.trans h) nofun) (fun _ _ => nofun) (Nat.le_refl _)
        · intro hx
          obtain rfl := Option.some.inj hx
          exact succeed_returned (t := { s with exitCalls := s.exitCalls + 1 }.stopDone) hstartup rfl
        · exact nofun
      · intro hx
        obtain rfl := Option.some.inj hx
        exact succeed_returned hstartup hshutdown

end BitBlinder.Lifecycle
