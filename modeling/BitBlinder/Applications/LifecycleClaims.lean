import BitBlinder.Applications.Lifecycle

/-!
# What may fire a deferred of an application

A deferred is claimed by the transition whose deferred it is and by every callback that
fires it. No deferred has more than one claim, and none has one once it has fired.
Each change of the store of deferreds keeps this.
-/

namespace BitBlinder.Lifecycle

set_option autoImplicit false

open Application

/-! ## The claims on a deferred -/

namespace Callback

/-- The callback fires `d`, or will lead to that. -/
def fires (d : Nat) : Callback → Nat
  | .fire x | .stopWhenStarted x => if x = d then 1 else 0
  | _ => 0

/-- What is added to the deferred of a startup. -/
def parked : Callback → Bool
  | .resume _ | .stopWhenStarted _ => true
  | _ => false

/-- The deferred that it is about. -/
def target : Callback → Option Nat
  | .fire x | .stopWhenStarted x | .resume x => some x
  | _ => none

end Callback

namespace Application

/-- The ways that are left in which `d` may fire. -/
def claims (s : Application) (d : Nat) : Nat :=
  s.heap.total (Callback.fires d) s.heap.next + (if s.startupDeferred = some d then 1 else 0) +
    (if s.shutdownDeferred = some d ∧ (s.heap.get d).calls = 0 then 1 else 0)

/-- A deferred that was returned for a start during a shutdown. -/
def Promised (s : Application) (r : Nat) : Prop := s.restartDeferred = some r ∨ ∃ d, (d, r) ∈ s.promised

/-- A deferred that has not fired, and that nothing will fire. -/
structure Unclaimed (s : Application) (d : Nat) : Prop where
  lt : d < s.heap.next
  claims : s.claims d = 0
  calls : (s.heap.get d).calls = 0

end Application

variable {c : Subclass} {s t : Application} {d x n : Nat}

/-- The callbacks of the deferred are those of a startup. -/
structure Parks (s : Application) (d : Nat) : Prop where
  waiting : (s.heap.get d).waiting = false
  parked : ∀ k ∈ (s.heap.get d).callbacks, k.parked = true

structure Sound (s : Application) : Prop where
  blank : ∀ i, s.heap.next ≤ i → s.heap.get i = pending
  fresh : ∀ i, s.heap.next ≤ i → s.claims i = 0
  single : ∀ i, s.claims i + (s.heap.get i).calls ≤ 1
  exclusive : s.startupDeferred = none ∨ s.shutdownDeferred = none
  starting : ∀ i, s.startupDeferred = some i → Parks s i
  parks : ∀ i x, .stopWhenStarted x ∈ (s.heap.get i).callbacks → Parks s i
  stopping : ∀ i, s.shutdownDeferred = some i →
    ∃ ks, (s.heap.get i).callbacks = .stopDone :: ks ∧ Callback.stopDone ∉ ks
  stray : ∀ i, .stopDone ∈ (s.heap.get i).callbacks → s.shutdownDeferred = some i
  calm : ∀ i, s.shutdownDeferred = some i → (s.heap.get i).calls = 0
  requests : ∀ i x, (i, x) ∈ s.requests → x ∈ s.carriedOut ∨ .stopWhenStarted x ∈ (s.heap.get i).callbacks
  rest : ∀ i, (s.heap.get i).calls ≠ 0 →
    (s.heap.get i).callbacks = [] ∨ (s.heap.get i).waiting = true ∨ i ∈ s.heap.running
  running : ∀ i ∈ s.heap.running, (s.heap.get i).calls ≠ 0
  resuming : ∀ i x, .resume x ∈ (s.heap.get i).callbacks → (s.heap.get x).calls ≠ 0
  unclaimed : ∀ r, Promised s r → Unclaimed s r

theorem sound_new : Sound Application.new where
  blank := fun _ _ => rfl
  fresh := fun _ _ => rfl
  single := fun _ => Nat.zero_le 1
  exclusive := .inl rfl
  starting := nofun
  parks := nofun
  stopping := nofun
  stray := nofun
  calm := nofun
  requests := nofun
  rest := fun _ hcalls => absurd rfl hcalls
  running := nofun
  resuming := nofun
  unclaimed := by
    rintro r (hr | ⟨d, hr⟩)
    · cases hr
    · cases hr

theorem Application.Unclaimed.ne_startup (hu : Unclaimed s d) : s.startupDeferred ≠ some d := by
  intro hd
  have hzero := hu.claims
  simp only [Application.claims, hd, if_true] at hzero
  omega

theorem Application.Unclaimed.ne_shutdown (hu : Unclaimed s d) : s.shutdownDeferred ≠ some d := by
  intro hd
  have hzero := hu.claims
  simp only [Application.claims, hd, hu.calls, and_self, if_true] at hzero
  omega

/-- All that the invariants are about is the same. -/
structure Alike (s t : Application) : Prop where
  heap : t.heap = s.heap
  startup : t.startupDeferred = s.startupDeferred
  shutdown : t.shutdownDeferred = s.shutdownDeferred
  restart : t.restartDeferred = s.restartDeferred
  requests : t.requests = s.requests
  carriedOut : t.carriedOut = s.carriedOut
  promised : t.promised = s.promised

/-! ## One change at a time -/

namespace Sound

theorem lt_of_callback (hs : Sound s) {k : Callback} (hk : k ∈ (s.heap.get d).callbacks) : d < s.heap.next := by
  by_contra hge
  rw [hs.blank d (Nat.le_of_not_lt hge)] at hk
  cases hk

theorem lt_of_calls (hs : Sound s) (hcalls : (s.heap.get d).calls ≠ 0) : d < s.heap.next := by
  by_contra hge
  rw [hs.blank d (Nat.le_of_not_lt hge)] at hcalls
  exact hcalls rfl

theorem lt_of_startup (hs : Sound s) (hd : s.startupDeferred = some d) : d < s.heap.next := by
  by_contra hge
  have hzero := hs.fresh d (Nat.le_of_not_lt hge)
  rw [claims, if_pos hd] at hzero
  omega

theorem lt_of_shutdown (hs : Sound s) (hd : s.shutdownDeferred = some d) : d < s.heap.next := by
  obtain ⟨ks, hks, _⟩ := hs.stopping d hd
  exact hs.lt_of_callback (hks ▸ List.mem_cons_self)

theorem startup_calls (hs : Sound s) (hd : s.startupDeferred = some d) : (s.heap.get d).calls = 0 := by
  have hsingle := hs.single d
  rw [claims, if_pos hd] at hsingle
  omega

theorem ne_shutdown_of_running (hs : Sound s) (hd : d ∈ s.heap.running) : s.shutdownDeferred ≠ some d :=
  fun hshutdown => hs.running d hd (hs.calm d hshutdown)

/-- The invariants where the deferreds and the transitions are the same. -/
theorem records (hs : Sound s) (hheap : t.heap = s.heap) (hstartup : t.startupDeferred = s.startupDeferred)
    (hshutdown : t.shutdownDeferred = s.shutdownDeferred)
    (hrequests : ∀ i x, (i, x) ∈ t.requests → x ∈ t.carriedOut ∨ .stopWhenStarted x ∈ (s.heap.get i).callbacks)
    (hunclaimed : ∀ r, Promised t r → Unclaimed s r) : Sound t := by
  obtain ⟨heap, startup, shutdown, restart, isRestarting, processes, launching, dependenciesCalls, launchCalls,
    exitCalls, requests, carriedOut, promised⟩ := t
  subst hheap hstartup hshutdown
  exact ⟨hs.blank, hs.fresh, hs.single, hs.exclusive, fun i hi => ⟨(hs.starting i hi).1, (hs.starting i hi).2⟩,
    fun i x hx => ⟨(hs.parks i x hx).1, (hs.parks i x hx).2⟩, hs.stopping, hs.stray, hs.calm, hrequests, hs.rest,
    hs.running, hs.resuming, fun r hr => ⟨(hunclaimed r hr).1, (hunclaimed r hr).2, (hunclaimed r hr).3⟩⟩

theorem alike (hs : Sound s) (h : Alike s t) : Sound t := by
  refine hs.records h.heap h.startup h.shutdown (fun i x hx => ?_) fun r hr => ?_
  · rw [h.carriedOut]
    exact hs.requests i x (h.requests ▸ hx)
  · refine hs.unclaimed r ?_
    unfold Promised at hr ⊢
    rwa [h.restart, h.promised] at hr

theorem claims_alloc (hs : Sound s) {e : Deferred Callback Result} (he : e.callbacks = []) (i : Nat) :
    { s with heap := s.heap.alloc e }.claims i = s.claims i := by
  have htotal : (s.heap.alloc e).total (Callback.fires i) (s.heap.next + 1) =
      s.heap.total (Callback.fires i) s.heap.next := by
    rw [Deferreds.total_alloc, he]
    rfl
  have hcalls : (s.shutdownDeferred = some i ∧ ((s.heap.alloc e).get i).calls = 0) ↔
      (s.shutdownDeferred = some i ∧ (s.heap.get i).calls = 0) :=
    and_congr_right fun hi => by rw [Deferreds.get_alloc_of_lt (hs.lt_of_shutdown hi)]
  simp only [claims, Deferreds.next_alloc, htotal, hcalls]

theorem alloc (hs : Sound s) {e : Deferred Callback Result} (he : e.callbacks = []) (hcalls : e.calls ≤ 1) :
    Sound { s with heap := s.heap.alloc e } := by
  have hget {i : Nat} (hi : i < s.heap.next) : (s.heap.alloc e).get i = s.heap.get i := Deferreds.get_alloc_of_lt hi
  have hcallbacks {i : Nat} {k : Callback} (hk : k ∈ ((s.heap.alloc e).get i).callbacks) :
      i < s.heap.next ∧ k ∈ (s.heap.get i).callbacks := by
    rw [Deferreds.get_alloc] at hk
    split at hk
    · rw [he] at hk
      cases hk
    · exact ⟨hs.lt_of_callback hk, hk⟩
  have hparks {i : Nat} (hi : i < s.heap.next) (h : Parks s i) : Parks { s with heap := s.heap.alloc e } i := by
    constructor
    · rw [hget hi]
      exact h.waiting
    · rw [hget hi]
      exact h.parked
  refine ⟨fun i hi => ?_, fun i hi => ?_, fun i => ?_, hs.exclusive, fun i hi => ?_, fun i x hx => ?_, fun i hi => ?_,
    fun i hi => ?_, fun i hi => ?_, fun i x hx => ?_, fun i hi => ?_, fun i hi => ?_, fun i x hx => ?_, fun r hr => ?_⟩
  · have hlt : s.heap.next < i := hi
    rw [Deferreds.get_alloc, if_neg (by omega)]
    exact hs.blank i (by omega)
  · rw [hs.claims_alloc he]
    exact hs.fresh i (Nat.le_of_succ_le hi)
  · rw [hs.claims_alloc he, Deferreds.get_alloc]
    split
    · case isTrue heq =>
      rw [heq, hs.fresh _ (Nat.le_refl _)]
      omega
    · exact hs.single i
  · exact hparks (hs.lt_of_startup hi) (hs.starting i hi)
  · obtain ⟨hlt, hmem⟩ := hcallbacks hx
    exact hparks hlt (hs.parks i x hmem)
  · rw [hget (hs.lt_of_shutdown hi)]
    exact hs.stopping i hi
  · exact hs.stray i (hcallbacks hi).2
  · rw [hget (hs.lt_of_shutdown hi)]
    exact hs.calm i hi
  · rcases hs.requests i x hx with hcarried | hmem
    · exact .inl hcarried
    · rw [hget (hs.lt_of_callback hmem)]
      exact .inr hmem
  · by_cases heq : i = s.heap.next
    · rw [heq, Deferreds.get_alloc, if_pos rfl]
      exact .inl he
    · rw [Deferreds.get_alloc, if_neg heq] at hi ⊢
      exact hs.rest i hi
  · rw [hget (hs.lt_of_calls (hs.running i hi))]
    exact hs.running i hi
  · have hresuming := hs.resuming i x (hcallbacks hx).2
    rw [hget (hs.lt_of_calls hresuming)]
    exact hresuming
  · obtain ⟨hlt, hclaims, hzero⟩ := hs.unclaimed r hr
    refine ⟨Nat.lt_succ_of_lt hlt, (hs.claims_alloc he r).trans hclaims, ?_⟩
    rw [hget hlt]
    exact hzero

theorem unclaimed_alloc (hs : Sound s) : Unclaimed { s with heap := s.heap.alloc pending } s.heap.next := by
  refine ⟨Nat.lt_succ_self _, ?_, ?_⟩
  · rw [hs.claims_alloc rfl]
    exact hs.fresh _ (Nat.le_refl _)
  · exact congrArg Deferred.calls Deferreds.get_alloc_self

theorem fires_le_one (k : Callback) (i : Nat) : k.fires i ≤ 1 := by
  unfold Callback.fires
  split
  · split <;> omega
  · split <;> omega
  · exact Nat.zero_le 1

theorem claims_add (hd : d < s.heap.next) (k : Callback) (i : Nat) :
    { s with heap := s.heap.add d k }.claims i = s.claims i + k.fires i := by
  simp only [claims, Deferreds.next_add, Deferreds.calls_add, Deferreds.total_add hd]
  omega

/-- A callback that is added to a deferred that will run it. -/
theorem add (hs : Sound s) (hd : d < s.heap.next) {k : Callback}
    (hrest : (s.heap.get d).calls = 0 ∨ (s.heap.get d).waiting = true ∨ d ∈ s.heap.running)
    (hstop : k ≠ .stopDone)
    (hparks : (s.startupDeferred = some d ∨ ∃ x, .stopWhenStarted x ∈ (s.heap.get d).callbacks ∨ k = .stopWhenStarted x) →
      Parks s d ∧ k.parked = true)
    (hresume : ∀ x, k = .resume x → (s.heap.get x).calls ≠ 0)
    (hfires : ∀ i, k.fires i ≠ 0 → Unclaimed s i ∧ ¬Promised s i) :
    Sound { s with heap := s.heap.add d k } := by
  have hclaims := claims_add hd k
  have hkept {i : Nat} {k' : Callback} (hk : k' ∈ (s.heap.get i).callbacks) : k' ∈ ((s.heap.add d k).get i).callbacks :=
    Deferreds.mem_callbacks_add.mpr (.inl hk)
  have hparks' {i : Nat} (hi : Parks s i) (hd' : i = d → k.parked = true) :
      Parks { s with heap := s.heap.add d k } i := by
    refine ⟨Deferreds.waiting_add.trans hi.waiting, fun k' hk' => ?_⟩
    rcases Deferreds.mem_callbacks_add.mp hk' with hmem | ⟨heq, rfl⟩
    · exact hi.parked k' hmem
    · exact hd' heq
  refine ⟨fun i hi => ?_, fun i hi => ?_, fun i => ?_, hs.exclusive, fun i hi => ?_, fun i x hx => ?_, fun i hi => ?_,
    fun i hi => ?_, fun i hi => ?_, fun i x hx => ?_, fun i hi => ?_, fun i hi => ?_, fun i x hx => ?_, fun r hr => ?_⟩
  · have hne : i ≠ d := fun heq => absurd (heq ▸ hd) (Nat.not_lt.mpr hi)
    change (s.heap.add d k).get i = pending
    rw [Deferreds.add, Deferreds.get_set, if_neg hne]
    exact hs.blank i hi
  · have hzero : k.fires i = 0 := by
      by_contra hne
      exact absurd (hfires i hne).1.lt (Nat.not_lt.mpr hi)
    rw [hclaims, hs.fresh i hi, hzero]
  · rw [hclaims, Deferreds.calls_add]
    by_cases hzero : k.fires i = 0
    · rw [hzero]
      exact hs.single i
    · obtain ⟨⟨_, hnone, hcalls⟩, _⟩ := hfires i hzero
      rw [hnone, hcalls]
      have hone := fires_le_one k i
      omega
  · exact hparks' (hs.starting i hi) fun heq => (hparks (.inl (heq ▸ hi))).2
  · rcases Deferreds.mem_callbacks_add.mp hx with hmem | ⟨rfl, hk⟩
    · exact hparks' (hs.parks i x hmem) fun heq => (hparks (.inr ⟨x, .inl (heq ▸ hmem)⟩)).2
    · obtain ⟨hold, hparked⟩ := hparks (.inr ⟨x, .inr hk.symm⟩)
      exact hparks' hold fun _ => hparked
  · obtain ⟨ks, hks, hnot⟩ := hs.stopping i hi
    simp only [Deferreds.callbacks_add]
    split
    · case isTrue heq =>
      refine ⟨ks ++ [k], by rw [← heq, hks]; rfl, fun hmem => ?_⟩
      rcases List.mem_append.mp hmem with hmem | hmem
      · exact hnot hmem
      · exact hstop (List.mem_singleton.mp hmem).symm
    · exact ⟨ks, hks, hnot⟩
  · rcases Deferreds.mem_callbacks_add.mp hi with hmem | ⟨_, hk⟩
    · exact hs.stray i hmem
    · exact absurd hk.symm hstop
  · exact Deferreds.calls_add.trans (hs.calm i hi)
  · exact (hs.requests i x hx).imp_right hkept
  · simp only [Deferreds.calls_add, Deferreds.waiting_add, Deferreds.running_add] at hi ⊢
    by_cases heq : i = d
    · subst heq
      rcases hrest with hzero | hrest
      · exact absurd hzero hi
      · exact .inr hrest
    · rw [Deferreds.callbacks_add, if_neg heq]
      exact hs.rest i hi
  · rw [Deferreds.calls_add]
    exact hs.running i hi
  · rw [Deferreds.calls_add]
    rcases Deferreds.mem_callbacks_add.mp hx with hmem | ⟨_, hk⟩
    · exact hs.resuming i x hmem
    · exact hresume x hk.symm
  · obtain ⟨hlt, hnone, hcalls⟩ := hs.unclaimed r hr
    have hzero : k.fires r = 0 := by
      by_contra hne
      exact (hfires r hne).2 hr
    refine ⟨hlt, ?_, Deferreds.calls_add.trans hcalls⟩
    rw [hclaims, hnone, hzero]

theorem claims_advance (hs : Sound s) {k : Callback} {ks : List Callback} (hk : (s.heap.get d).callbacks = k :: ks)
    (i : Nat) : { s with heap := s.heap.advance d }.claims i + k.fires i = s.claims i := by
  have htotal := Deferreds.total_advance (f := Callback.fires i)
    (hs.lt_of_callback (hk ▸ List.mem_cons_self : k ∈ (s.heap.get d).callbacks)) hk
  simp only [claims, Deferreds.next_advance, Deferreds.calls_advance]
  omega

/-- The first callback is taken off, and what it fires is left without a claim. -/
theorem advance (hs : Sound s) (hd : d ∈ s.heap.running) {k : Callback} {ks : List Callback}
    (hk : (s.heap.get d).callbacks = k :: ks) {carriedOut : List Nat} (hsub : s.carriedOut ⊆ carriedOut)
    (hnew : ∀ x, k = .stopWhenStarted x → x ∈ carriedOut) :
    Sound { s with heap := s.heap.advance d, carriedOut := carriedOut } := by
  have hclaims := hs.claims_advance hk
  have hold {i : Nat} {k' : Callback} (hk' : k' ∈ ((s.heap.advance d).get i).callbacks) : k' ∈ (s.heap.get i).callbacks :=
    Deferreds.mem_callbacks_of_advance hk'
  have hparks {i : Nat} (hi : Parks s i) :
      Parks { s with heap := s.heap.advance d, carriedOut := carriedOut } i :=
    ⟨Deferreds.waiting_advance.trans hi.waiting, fun k' hk' => hi.parked k' (hold hk')⟩
  refine ⟨fun i hi => ?_, fun i hi => ?_, fun i => ?_, hs.exclusive, fun i hi => hparks (hs.starting i hi),
    fun i x hx => hparks (hs.parks i x (hold hx)), fun i hi => ?_, fun i hi => hs.stray i (hold hi),
    fun i hi => Deferreds.calls_advance.trans (hs.calm i hi), fun i x hx => ?_, fun i hi => ?_, fun i hi => ?_,
    fun i x hx => ?_, fun r hr => ?_⟩
  · have hne : i ≠ d := fun heq => absurd (hs.lt_of_calls (hs.running d hd)) (heq ▸ Nat.not_lt.mpr hi)
    change (s.heap.advance d).get i = pending
    rw [Deferreds.advance, Deferreds.get_set, if_neg hne]
    exact hs.blank i hi
  · have hzero := hs.fresh i hi
    have hle := hclaims i
    exact Nat.eq_zero_of_add_eq_zero_right (hle.trans hzero)
  · rw [Deferreds.calls_advance]
    have hsingle := hs.single i
    have hle := hclaims i
    change { s with heap := s.heap.advance d }.claims i + (s.heap.get i).calls ≤ 1
    omega
  · have hne : i ≠ d := fun heq => hs.ne_shutdown_of_running hd (heq ▸ hi)
    simp only [Deferreds.callbacks_advance, if_neg hne]
    exact hs.stopping i hi
  · rcases hs.requests i x hx with hcarried | hmem
    · exact .inl (hsub hcarried)
    · simp only [Deferreds.callbacks_advance]
      split
      · case isTrue heq =>
        rw [heq, hk] at hmem
        rcases List.mem_cons.mp hmem with hhead | htail
        · exact .inl (hnew x hhead.symm)
        · exact .inr (by rw [hk]; exact htail)
      · exact .inr hmem
  · simp only [Deferreds.calls_advance, Deferreds.waiting_advance, Deferreds.running_advance] at hi ⊢
    by_cases heq : i = d
    · exact .inr (.inr (heq ▸ hd))
    · rw [Deferreds.callbacks_advance, if_neg heq]
      exact hs.rest i hi
  · rw [Deferreds.calls_advance]
    exact hs.running i hi
  · rw [Deferreds.calls_advance]
    exact hs.resuming i x (hold hx)
  · obtain ⟨hlt, hnone, hcalls⟩ := hs.unclaimed r hr
    refine ⟨hlt, ?_, Deferreds.calls_advance.trans hcalls⟩
    exact Nat.eq_zero_of_add_eq_zero_right ((hclaims r).trans hnone)

theorem unclaimed_advance (hs : Sound s) {k : Callback} {ks : List Callback} (hk : (s.heap.get d).callbacks = k :: ks)
    {l : List Nat} (hx : k.fires x ≠ 0) :
    Unclaimed { s with heap := s.heap.advance d, carriedOut := l } x ∧
      ¬Promised { s with heap := s.heap.advance d, carriedOut := l } x := by
  have hclaims := hs.claims_advance hk x
  have hsingle := hs.single x
  refine ⟨⟨?_, ?_, ?_⟩, fun hp => ?_⟩
  · by_contra hge
    have hzero := hs.fresh x (Nat.le_of_not_lt hge)
    omega
  · change { s with heap := s.heap.advance d }.claims x = 0
    omega
  · refine Deferreds.calls_advance.trans ?_
    omega
  · have hzero := (hs.unclaimed x hp).claims
    omega

theorem claims_fire (hu : Unclaimed s d) (r : Result) (i : Nat) :
    { s with heap := s.heap.fire d r }.claims i = s.claims i := by
  have hcalls : (s.shutdownDeferred = some i ∧ ((s.heap.fire d r).get i).calls = 0) ↔
      (s.shutdownDeferred = some i ∧ (s.heap.get i).calls = 0) := by
    refine and_congr_right fun hi => ?_
    have hne : i ≠ d := fun heq => hu.ne_shutdown (heq ▸ hi)
    rw [Deferreds.calls_fire, if_neg hne]
  simp only [claims, Deferreds.next_fire, Deferreds.total_fire, hcalls]

/-- A deferred without a claim fires. -/
theorem fire (hs : Sound s) (hu : Unclaimed s d) (hp : ¬Promised s d) (r : Result) :
    Sound { s with heap := s.heap.fire d r } := by
  have hclaims := claims_fire hu r
  have hcalls {i : Nat} (hi : (s.heap.get i).calls ≠ 0) : ((s.heap.fire d r).get i).calls ≠ 0 := by
    rw [Deferreds.calls_fire]
    split
    · omega
    · exact hi
  have hparks {i : Nat} (hi : Parks s i) : Parks { s with heap := s.heap.fire d r } i :=
    ⟨Deferreds.waiting_fire.trans hi.waiting, fun k' hk' => hi.parked k' (Deferreds.callbacks_fire ▸ hk')⟩
  refine ⟨fun i hi => ?_, fun i hi => ?_, fun i => ?_, hs.exclusive, fun i hi => hparks (hs.starting i hi),
    fun i x hx => hparks (hs.parks i x (Deferreds.callbacks_fire ▸ hx)), fun i hi => ?_, fun i hi => ?_,
    fun i hi => ?_, fun i x hx => ?_, fun i hi => ?_, fun i hi => ?_, fun i x hx => ?_, fun r' hr => ?_⟩
  · have hi' : s.heap.next ≤ i := Deferreds.next_fire ▸ hi
    have hne : i ≠ d := fun heq => absurd hu.lt (heq ▸ Nat.not_lt.mpr hi')
    change (s.heap.fire d r).get i = pending
    rw [Deferreds.fire, if_pos hu.calls, Deferreds.get_run, Deferreds.get_set, if_neg hne]
    exact hs.blank i hi'
  · rw [hclaims]
    exact hs.fresh i (Deferreds.next_fire ▸ hi)
  · rw [hclaims, Deferreds.calls_fire]
    split
    · case isTrue heq =>
      rw [heq, hu.claims, hu.calls]
    · exact hs.single i
  · simp only [Deferreds.callbacks_fire]
    exact hs.stopping i hi
  · exact hs.stray i (Deferreds.callbacks_fire ▸ hi)
  · have hne : i ≠ d := fun heq => hu.ne_shutdown (heq ▸ hi)
    rw [Deferreds.calls_fire, if_neg hne]
    exact hs.calm i hi
  · simp only [Deferreds.callbacks_fire]
    exact hs.requests i x hx
  · by_cases heq : i = d
    · rw [heq]
      rcases Deferreds.fire_rest (r := r) hu.calls with hnone | hrun
      · exact .inl hnone
      · exact .inr (.inr hrun)
    · rw [Deferreds.calls_fire, if_neg heq] at hi
      simp only [Deferreds.callbacks_fire, Deferreds.waiting_fire]
      exact (hs.rest i hi).imp_right fun h => h.imp_right Deferreds.mem_running_fire_of_mem
  · rcases Deferreds.mem_running_fire hi with rfl | hmem
    · rw [Deferreds.calls_fire, if_pos rfl]
      omega
    · exact hcalls (hs.running i hmem)
  · exact hcalls (hs.resuming i x (Deferreds.callbacks_fire ▸ hx))
  · obtain ⟨hlt, hnone, hzero⟩ := hs.unclaimed r' hr
    have hne : r' ≠ d := fun heq => hp (heq ▸ hr)
    refine ⟨Deferreds.next_fire.symm ▸ hlt, (hclaims r').trans hnone, ?_⟩
    rw [Deferreds.calls_fire, if_neg hne]
    exact hzero

/-- A deferred that is not one of a startup. -/
structure Free (s : Application) (d : Nat) : Prop where
  startup : s.startupDeferred ≠ some d
  callbacks : ∀ x, .stopWhenStarted x ∉ (s.heap.get d).callbacks

/-- The results, and who waits, do not matter where nothing is taken off the stack that has callbacks left. -/
theorem congr_heap (hs : Sound s) {h : Deferreds Callback Result} (hnext : h.next = s.heap.next)
    (hblank : ∀ i, s.heap.next ≤ i → h.get i = s.heap.get i)
    (hcalls : ∀ i, (h.get i).calls = (s.heap.get i).calls)
    (hcallbacks : ∀ i, (h.get i).callbacks = (s.heap.get i).callbacks)
    (hwaiting : ∀ i, ¬Free s i → (s.heap.get i).waiting = false → (h.get i).waiting = false)
    (hrest : ∀ i, (s.heap.get i).waiting = true ∨ i ∈ s.heap.running →
      (h.get i).callbacks = [] ∨ (h.get i).waiting = true ∨ i ∈ h.running)
    (hrunning : ∀ i ∈ h.running, (s.heap.get i).calls ≠ 0) :
    Sound { s with heap := h } := by
  have hclaims (i : Nat) : { s with heap := h }.claims i = s.claims i := by
    simp only [claims, hnext, Deferreds.total_congr hcallbacks, hcalls]
  have hparks {i : Nat} (hfree : ¬Free s i) (hi : Parks s i) : Parks { s with heap := h } i :=
    ⟨hwaiting i hfree hi.waiting, fun k hk => hi.parked k (hcallbacks i ▸ hk)⟩
  refine ⟨fun i hi => ?_, fun i hi => ?_, fun i => ?_, hs.exclusive,
    fun i hi => hparks (fun hfree => hfree.startup hi) (hs.starting i hi),
    fun i x hx => hparks (fun hfree => hfree.callbacks x (hcallbacks i ▸ hx)) (hs.parks i x (hcallbacks i ▸ hx)), fun i hi => ?_, fun i hi => hs.stray i (hcallbacks i ▸ hi),
    fun i hi => (hcalls i).trans (hs.calm i hi), fun i x hx => ?_, fun i hi => ?_, fun i hi => ?_, fun i x hx => ?_,
    fun r hr => ?_⟩
  · have hi' : s.heap.next ≤ i := hnext ▸ hi
    exact (hblank i hi').trans (hs.blank i hi')
  · exact (hclaims i).trans (hs.fresh i (hnext ▸ hi))
  · rw [hclaims, hcalls]
    exact hs.single i
  · simp only [hcallbacks]
    exact hs.stopping i hi
  · simp only [hcallbacks]
    exact hs.requests i x hx
  · rw [hcalls] at hi
    rcases hs.rest i hi with hnone | hstill
    · exact .inl ((hcallbacks i).trans hnone)
    · exact hrest i hstill
  · rw [hcalls]
    exact hrunning i hi
  · rw [hcalls]
    exact hs.resuming i x (hcallbacks i ▸ hx)
  · obtain ⟨hlt, hnone, hzero⟩ := hs.unclaimed r hr
    exact ⟨hnext.symm ▸ hlt, (hclaims r).trans hnone, (hcalls r).trans hzero⟩

/-- The stack may lose what has nothing left to run. -/
theorem setRunning (hs : Sound s) {l : List Nat}
    (hrest : ∀ i ∈ s.heap.running, (s.heap.get i).callbacks = [] ∨ i ∈ l)
    (hcalls : ∀ i ∈ l, (s.heap.get i).calls ≠ 0) :
    Sound { s with heap := { s.heap with running := l } } := by
  refine hs.congr_heap rfl (fun _ _ => rfl) (fun _ => rfl) (fun _ => rfl) (fun _ _ hi => hi) (fun i hi => ?_) hcalls
  rcases hi with hwaiting | hrunning
  · exact .inr (.inl hwaiting)
  · exact (hrest i hrunning).imp_right Or.inr

theorem setResult (hs : Sound s) (hd : d < s.heap.next) (r : Result) : Sound (s.setResult d r) := by
  refine hs.congr_heap rfl (fun i hi => ?_) (fun i => Deferreds.calls_setResult) (fun i => Deferreds.callbacks_setResult)
    (fun i _ hi => Deferreds.waiting_setResult.trans hi) (fun i hi => ?_) hs.running
  · have hne : i ≠ d := fun heq => absurd hd (heq ▸ Nat.not_lt.mpr hi)
    rw [Deferreds.setResult, Deferreds.get_set, if_neg hne]
  · rw [Deferreds.waiting_setResult]
    exact .inr hi

theorem pause (hs : Sound s) {rest : List Nat} (hd : s.heap.running = d :: rest) (hfree : Free s d) :
    Sound { s with heap := s.heap.pause d } := by
  have hmem : d ∈ s.heap.running := hd ▸ List.mem_cons_self
  refine hs.congr_heap rfl (fun i hi => ?_) (fun i => Deferreds.calls_pause) (fun i => Deferreds.callbacks_pause)
    (fun i hi hw => ?_) (fun i hi => ?_) fun i hi => hs.running i (List.mem_of_mem_tail hi)
  · have hne : i ≠ d := fun heq => absurd (hs.lt_of_calls (hs.running d hmem)) (heq ▸ Nat.not_lt.mpr hi)
    change ((s.heap.set d _).get i) = _
    rw [Deferreds.get_set, if_neg hne]
  · have hne : i ≠ d := fun heq => hi (heq ▸ hfree)
    rw [Deferreds.waiting_pause, if_neg hne]
    exact hw
  · rw [Deferreds.waiting_pause, Deferreds.running_pause, hd]
    by_cases heq : i = d
    · exact .inr (.inl (if_pos heq))
    · rw [if_neg heq]
      refine .inr (hi.imp_right fun hrunning => ?_)
      rw [hd] at hrunning
      exact List.mem_of_ne_of_mem heq hrunning

theorem resume (hs : Sound s) (hd : (s.heap.get d).calls ≠ 0) (r : Result) :
    Sound { s with heap := s.heap.resume d r } := by
  refine hs.congr_heap Deferreds.next_resume (fun i hi => ?_) (fun i => Deferreds.calls_resume)
    (fun i => Deferreds.callbacks_resume) (fun i _ hi => ?_) (fun i hi => ?_) fun i hi => ?_
  · have hne : i ≠ d := fun heq => absurd (hs.lt_of_calls hd) (heq ▸ Nat.not_lt.mpr hi)
    rw [Deferreds.resume, Deferreds.get_run, Deferreds.get_set, if_neg hne]
  · rw [Deferreds.waiting_resume]
    split
    · rfl
    · exact hi
  · by_cases heq : i = d
    · subst heq
      exact Deferreds.run_rest.imp_right Or.inr
    · rw [Deferreds.waiting_resume, if_neg heq]
      exact .inr (hi.imp_right Deferreds.mem_running_of_mem)
  · rcases Deferreds.mem_running_run hi with rfl | hmem
    · exact hd
    · exact hs.running i hmem

theorem not_parks_of_shutdown (hs : Sound s) (hd : s.shutdownDeferred = some d) : ¬Parks s d := by
  rintro ⟨_, hparked⟩
  obtain ⟨ks, hks, _⟩ := hs.stopping d hd
  have hstop := hparked .stopDone (hks ▸ List.mem_cons_self)
  cases hstop

theorem free_of_not_parks (hs : Sound s) (hd : ¬Parks s d) : Free s d :=
  ⟨fun hstartup => hd (hs.starting d hstartup), fun x hx => hd (hs.parks d x hx)⟩

/-- A callback for another deferred than one of a startup. -/
theorem add_free (hs : Sound s) (hd : d < s.heap.next) (hfree : Free s d) {k : Callback}
    (hrest : (s.heap.get d).calls = 0 ∨ (s.heap.get d).waiting = true ∨ d ∈ s.heap.running)
    (hstop : k ≠ .stopDone) (hparked : k.parked = false)
    (hfires : ∀ i, k.fires i ≠ 0 → Unclaimed s i ∧ ¬Promised s i) : Sound { s with heap := s.heap.add d k } := by
  refine hs.add hd hrest hstop (fun hparks => ?_) (fun x hx => ?_) hfires
  · rcases hparks with hstartup | ⟨x, hx | hx⟩
    · exact absurd hstartup hfree.startup
    · exact absurd hx (hfree.callbacks x)
    · rw [hx] at hparked
      cases hparked
  · rw [hx] at hparked
    cases hparked

/-! ## The transitions -/

/-- The startup ends, and its deferred is left without a claim. -/
theorem clearStartup (hs : Sound s) (hd : s.startupDeferred = some d) :
    Sound { s with startupDeferred := none } ∧ Unclaimed { s with startupDeferred := none } d ∧ ¬Promised s d := by
  have hclaims (i : Nat) : { s with startupDeferred := none }.claims i + (if s.startupDeferred = some i then 1 else 0) =
      s.claims i := by
    simp only [claims, reduceCtorEq, if_false]
    omega
  have hle (i : Nat) : { s with startupDeferred := none }.claims i ≤ s.claims i := Nat.le_of_add_right_le (hclaims i).le
  have hsingle := hs.single d
  have hown := hclaims d
  rw [if_pos hd] at hown
  refine ⟨⟨hs.blank, fun i hi => ?_, fun i => ?_, .inl rfl, nofun, fun i x hx => ⟨(hs.parks i x hx).1, (hs.parks i x hx).2⟩,
    hs.stopping, hs.stray, hs.calm, hs.requests, hs.rest, hs.running, hs.resuming, fun r hr => ?_⟩, ?_, fun hp => ?_⟩
  · exact Nat.le_zero.mp ((hle i).trans (hs.fresh i hi).le)
  · exact (Nat.add_le_add_right (hle i) _).trans (hs.single i)
  · obtain ⟨hlt, hnone, hzero⟩ := hs.unclaimed r hr
    exact ⟨hlt, Nat.le_zero.mp ((hle r).trans hnone.le), hzero⟩
  · refine ⟨hs.lt_of_startup hd, ?_, hs.startup_calls hd⟩
    omega
  · exact (hs.unclaimed d hp).ne_startup hd

theorem claims_setStartup (hstartup : s.startupDeferred = none) (hshutdown : s.shutdownDeferred = none) (i : Nat) :
    { s with startupDeferred := some d, restartDeferred := none }.claims i = s.claims i + (if d = i then 1 else 0) := by
  simp only [claims, hstartup, hshutdown, reduceCtorEq, if_false, false_and, Option.some.injEq]
  omega

/-- A startup begins with a deferred that nothing else will fire. -/
theorem setStartup (hs : Sound s) (hstartup : s.startupDeferred = none) (hshutdown : s.shutdownDeferred = none)
    (hu : Unclaimed s d) (hp : ¬Promised s d) (hparks : Parks s d) :
    Sound { s with startupDeferred := some d, restartDeferred := none } := by
  have hclaims := claims_setStartup (d := d) hstartup hshutdown
  refine ⟨hs.blank, fun i hi => ?_, fun i => ?_, .inr hshutdown, fun i hi => ?_,
    fun i x hx => ⟨(hs.parks i x hx).1, (hs.parks i x hx).2⟩, hs.stopping, hs.stray, hs.calm, hs.requests, hs.rest,
    hs.running, hs.resuming, fun r hr => ?_⟩
  · have hne : d ≠ i := fun heq => absurd hu.lt (heq ▸ Nat.not_lt.mpr hi)
    rw [hclaims, if_neg hne]
    exact hs.fresh i hi
  · rw [hclaims]
    change s.claims i + _ + (s.heap.get i).calls ≤ 1
    split
    · case isTrue heq =>
      rw [← heq, hu.claims, hu.calls]
    · exact hs.single i
  · obtain rfl := Option.some.inj hi
    exact ⟨hparks.1, hparks.2⟩
  · rcases hr with hr | hr
    · cases hr
    · have hne : d ≠ r := fun heq => hp (heq ▸ .inr hr)
      obtain ⟨hlt, hnone, hzero⟩ := hs.unclaimed r (.inr hr)
      exact ⟨hlt, by rw [hclaims, if_neg hne]; exact hnone, hzero⟩

theorem claims_setShutdown (hstartup : s.startupDeferred = none) (hshutdown : s.shutdownDeferred = none)
    (hu : Unclaimed s d) (i : Nat) :
    { s with heap := s.heap.add d .stopDone, shutdownDeferred := some d }.claims i =
      s.claims i + (if d = i then 1 else 0) := by
  have hzero : (d = i ∧ (s.heap.get i).calls = 0) ↔ d = i := and_iff_left_of_imp fun heq => heq ▸ hu.calls
  simp only [claims, hstartup, hshutdown, reduceCtorEq, if_false, false_and, Option.some.injEq, Deferreds.next_add,
    Deferreds.calls_add, Deferreds.total_add hu.lt, hzero, Callback.fires]

/-- A shutdown begins with such a deferred, which has no callbacks yet. -/
theorem setShutdown (hs : Sound s) (hstartup : s.startupDeferred = none) (hshutdown : s.shutdownDeferred = none)
    (hu : Unclaimed s d) (hp : ¬Promised s d) (hnone : (s.heap.get d).callbacks = []) :
    Sound { s with heap := s.heap.add d .stopDone, shutdownDeferred := some d } := by
  have hclaims := claims_setShutdown hstartup hshutdown hu
  have hmem {i : Nat} {k : Callback} (hk : k ∈ ((s.heap.add d .stopDone).get i).callbacks) (hne : k ≠ .stopDone) :
      k ∈ (s.heap.get i).callbacks := by
    rcases Deferreds.mem_callbacks_add.mp hk with hold | ⟨_, heq⟩
    · exact hold
    · exact absurd heq hne
  refine ⟨fun i hi => ?_, fun i hi => ?_, fun i => ?_, .inl hstartup, fun i hi => ?_, fun i x hx => ?_, fun i hi => ?_,
    fun i hi => ?_, fun i hi => ?_, fun i x hx => ?_, fun i hi => ?_, fun i hi => ?_, fun i x hx => ?_, fun r hr => ?_⟩
  · have hne : i ≠ d := fun heq => absurd hu.lt (heq ▸ Nat.not_lt.mpr hi)
    change (s.heap.add d .stopDone).get i = pending
    rw [Deferreds.add, Deferreds.get_set, if_neg hne]
    exact hs.blank i hi
  · have hne : d ≠ i := fun heq => absurd hu.lt (heq ▸ Nat.not_lt.mpr hi)
    rw [hclaims, if_neg hne]
    exact hs.fresh i hi
  · rw [hclaims, Deferreds.calls_add]
    split
    · case isTrue heq =>
      rw [← heq, hu.claims, hu.calls]
    · exact hs.single i
  · exact absurd (hstartup.symm.trans hi) (by simp)
  · have hold := hs.parks i x (hmem hx (by simp))
    have hne : i ≠ d := by
      rintro rfl
      have hstop := hmem hx (by simp)
      rw [hnone] at hstop
      cases hstop
    refine ⟨Deferreds.waiting_add.trans hold.waiting, fun k hk => ?_⟩
    rcases Deferreds.mem_callbacks_add.mp hk with hkept | ⟨heq, _⟩
    · exact hold.parked k hkept
    · exact absurd heq hne
  · obtain rfl := Option.some.inj hi
    refine ⟨[], ?_, List.not_mem_nil⟩
    simp [Deferreds.callbacks_add, hnone]
  · rcases Deferreds.mem_callbacks_add.mp hi with hold | ⟨rfl, _⟩
    · exact absurd (hshutdown.symm.trans (hs.stray i hold)) (by simp)
    · rfl
  · obtain rfl := Option.some.inj hi
    exact Deferreds.calls_add.trans hu.calls
  · exact (hs.requests i x hx).imp_right fun hold => Deferreds.mem_callbacks_add.mpr (.inl hold)
  · simp only [Deferreds.calls_add, Deferreds.waiting_add, Deferreds.running_add] at hi ⊢
    have hne : i ≠ d := fun heq => hi (heq ▸ hu.calls)
    rw [Deferreds.callbacks_add, if_neg hne]
    exact hs.rest i hi
  · rw [Deferreds.calls_add]
    exact hs.running i hi
  · rw [Deferreds.calls_add]
    exact hs.resuming i x (hmem hx (by simp))
  · have hne : d ≠ r := fun heq => hp (heq ▸ hr)
    obtain ⟨hlt, hzero, hcalls⟩ := hs.unclaimed r hr
    exact ⟨hlt, by rw [hclaims, if_neg hne]; exact hzero, Deferreds.calls_add.trans hcalls⟩

/-- The shutdown ends: its first callback is run. -/
theorem clearShutdown (hs : Sound s) (hd : s.shutdownDeferred = some d) :
    Sound { s with heap := s.heap.advance d, shutdownDeferred := none } ∧
      Unclaimed { s with heap := s.heap.advance d, shutdownDeferred := none } d ∧ ¬Promised s d := by
  obtain ⟨ks, hks, hnot⟩ := hs.stopping d hd
  have hstartup : s.startupDeferred = none := by
    rcases hs.exclusive with hnone | hnone
    · exact hnone
    · exact absurd (hnone.symm.trans hd) nofun
  have hclaims (i : Nat) : { s with heap := s.heap.advance d, shutdownDeferred := none }.claims i +
      (if d = i then 1 else 0) = s.claims i := by
    have htotal := Deferreds.total_advance (f := Callback.fires i) (hs.lt_of_shutdown hd) hks
    have hzero : (d = i ∧ (s.heap.get i).calls = 0) ↔ d = i := and_iff_left_of_imp fun heq => heq ▸ hs.calm d hd
    simp only [Callback.fires] at htotal
    simp only [claims, hd, hstartup, reduceCtorEq, if_false, false_and, Option.some.injEq, Deferreds.next_advance, hzero]
    omega
  have hle (i : Nat) : { s with heap := s.heap.advance d, shutdownDeferred := none }.claims i ≤ s.claims i :=
    Nat.le_of_add_right_le (hclaims i).le
  have hold {i : Nat} {k : Callback} (hk : k ∈ ((s.heap.advance d).get i).callbacks) : k ∈ (s.heap.get i).callbacks :=
    Deferreds.mem_callbacks_of_advance hk
  have hunclaimed : Unclaimed { s with heap := s.heap.advance d, shutdownDeferred := none } d := by
    have hsingle := hs.single d
    have hown := hclaims d
    rw [if_pos rfl] at hown
    refine ⟨hs.lt_of_shutdown hd, ?_, Deferreds.calls_advance.trans (hs.calm d hd)⟩
    omega
  refine ⟨⟨fun i hi => ?_, fun i hi => ?_, fun i => ?_, .inr rfl, fun i hi => ?_, fun i x hx => ?_, nofun, fun i hi => ?_,
    nofun, fun i x hx => ?_, fun i hi => ?_, fun i hi => ?_, fun i x hx => ?_, fun r hr => ?_⟩, hunclaimed,
    fun hp => (hs.unclaimed d hp).ne_shutdown hd⟩
  · have hne : i ≠ d := fun heq => absurd (hs.lt_of_shutdown hd) (heq ▸ Nat.not_lt.mpr hi)
    change (s.heap.advance d).get i = pending
    rw [Deferreds.advance, Deferreds.get_set, if_neg hne]
    exact hs.blank i hi
  · exact Nat.le_zero.mp ((hle i).trans (hs.fresh i hi).le)
  · rw [Deferreds.calls_advance]
    exact (Nat.add_le_add_right (hle i) _).trans (hs.single i)
  · exact absurd (hstartup.symm.trans hi) nofun
  · obtain ⟨hwaiting, hparked⟩ := hs.parks i x (hold hx)
    exact ⟨Deferreds.waiting_advance.trans hwaiting, fun k hk => hparked k (hold hk)⟩
  · obtain rfl := Option.some.inj (hd.symm.trans (hs.stray i (hold hi)))
    rw [Deferreds.callbacks_advance, if_pos rfl, hks] at hi
    exact absurd hi hnot
  · rcases hs.requests i x hx with hcarried | hmem
    · exact .inl hcarried
    · have hne : i ≠ d := by
        rintro rfl
        have hparked := (hs.parks i x hmem).parked .stopDone (hks ▸ List.mem_cons_self)
        cases hparked
      simp only [Deferreds.callbacks_advance, if_neg hne]
      exact .inr hmem
  · simp only [Deferreds.calls_advance, Deferreds.waiting_advance, Deferreds.running_advance] at hi ⊢
    have hne : i ≠ d := fun heq => hi (heq ▸ hs.calm d hd)
    rw [Deferreds.callbacks_advance, if_neg hne]
    exact hs.rest i hi
  · rw [Deferreds.calls_advance]
    exact hs.running i hi
  · rw [Deferreds.calls_advance]
    exact hs.resuming i x (hold hx)
  · obtain ⟨hlt, hnone, hzero⟩ := hs.unclaimed r hr
    exact ⟨hlt, Nat.le_zero.mp ((hle r).trans hnone.le), Deferreds.calls_advance.trans hzero⟩

end Sound

end BitBlinder.Lifecycle
