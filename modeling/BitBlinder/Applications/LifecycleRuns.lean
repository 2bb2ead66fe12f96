import BitBlinder.Applications.LifecycleCalls

/-!
# Runs of an application

Running the callbacks of a deferred that has fired comes to an end, since what it adds
is added to deferreds that have not. So every call and every completion is one step of
a run, after which nothing is left to be done.
-/

namespace BitBlinder.Lifecycle

set_option autoImplicit false

open Application

variable {c : Subclass} {s t : Application} {d x n : Nat}

/-! ## One callback -/

/-- What holds of every later state: what fired has fired, and a shutdown goes on until its own deferred fires. -/
structure Later (s t : Application) : Prop where
  calls : ∀ i, (s.heap.get i).calls ≤ (t.heap.get i).calls
  shutdown : ∀ i, s.shutdownDeferred = some i → t.shutdownDeferred = some i
  promised : s.promised ⊆ t.promised
  since : ∀ i r, (i, r) ∈ t.promised → (i, r) ∈ s.promised ∨ t.shutdownDeferred = some i

theorem Later.refl (s : Application) : Later s s :=
  ⟨fun _ => Nat.le_refl _, fun _ => id, List.Subset.refl _, fun _ _ => Or.inl⟩

theorem Later.trans {u : Application} (h : Later s t) (h' : Later t u) : Later s u where
  calls := fun i => (h.calls i).trans (h'.calls i)
  shutdown := fun i hi => h'.shutdown i (h.shutdown i hi)
  promised := List.Subset.trans h.promised h'.promised
  since := fun i r hi => by
    rcases h'.since i r hi with hi | hi
    · exact (h.since i r hi).imp_right (h'.shutdown i)
    · exact .inr hi

theorem Extends.later (h : Extends s t) (hs : Sound s) : Later s t := by
  refine ⟨fun i => ?_, h.stopping, h.promised, h.since⟩
  by_cases hi : i < s.heap.next
  · exact (h.calls i hi).ge
  · rw [hs.blank i (Nat.le_of_not_lt hi)]
    exact Nat.zero_le _

/-- A change of the deferreds alone. -/
theorem later_of_heap {h : Deferreds Callback Result} (hcalls : ∀ i, (s.heap.get i).calls ≤ (h.get i).calls) :
    Later s { s with heap := h } :=
  ⟨hcalls, fun _ => id, List.Subset.refl _, fun _ _ => Or.inl⟩

theorem calls_le_fire {h : Deferreds Callback Result} {r : Result} (i : Nat) :
    (h.get i).calls ≤ ((h.fire d r).get i).calls := by
  rw [Deferreds.calls_fire]
  split
  · case isTrue heq =>
    rw [heq]
    exact Nat.le_succ _
  · exact Nat.le_refl _

/-- The transitions under way have new deferreds, from `n` on, and the stack is about the old ones. -/
structure Bounded (n : Nat) (s : Application) : Prop where
  next : n ≤ s.heap.next
  startup : ∀ i, s.startupDeferred = some i → n ≤ i
  shutdown : ∀ i, s.shutdownDeferred = some i → n ≤ i
  running : ∀ i ∈ s.heap.running, i < n
  target : ∀ i < n, ∀ k ∈ (s.heap.get i).callbacks, ∀ x, k.target = some x → x < n

def Application.workBelow (n : Nat) (s : Application) : Nat :=
  2 * s.heap.total (fun _ => 1) n + s.heap.running.length

/-- What a part of a callback does, at the price of `m` more to do. -/
structure Runs (n m : Nat) (s t : Application) : Prop where
  sound : Sound t
  later : Later s t
  bounded : Bounded n t
  work : t.workBelow n ≤ s.workBelow n + m

namespace Runs
variable {u : Application} {m m' : Nat}

theorem trans (h : Runs n m s t) (h' : Runs n m' t u) : Runs n (m + m') s u where
  sound := h'.sound
  later := h.later.trans h'.later
  bounded := h'.bounded
  work := by
    have hfirst := h.work
    have hsecond := h'.work
    omega

theorem mono (h : Runs n m s t) (hm : m ≤ m') : Runs n m' s t :=
  ⟨h.sound, h.later, h.bounded, h.work.trans (Nat.add_le_add_left hm _)⟩

theorem of_extends (hs : Sound s) (hb : Bounded n s) (ht : Sound t) (h : Extends s t) : Runs n 0 s t := by
  have hcallbacks {i : Nat} (hi : i < n) : (t.heap.get i).callbacks = (s.heap.get i).callbacks := by
    refine h.others i (hi.trans_le hb.next) (fun hstartup => ?_) fun hshutdown => ?_
    · exact absurd (hb.startup i hstartup) (Nat.not_le.mpr hi)
    · exact absurd (hb.shutdown i hshutdown) (Nat.not_le.mpr hi)
  refine ⟨ht, h.later hs, ⟨hb.next.trans h.next, fun i hi => ?_, fun i hi => ?_, fun i hi => ?_, fun i hi k hk => ?_⟩, ?_⟩
  · exact (h.startup i hi).elim (hb.startup i) fun hle => hb.next.trans hle
  · exact (h.shutdown i hi).elim (hb.shutdown i) fun hle => hb.next.trans hle
  · exact hb.running i (h.running ▸ hi)
  · exact hb.target i hi k (hcallbacks hi ▸ hk)
  · have htotal : t.heap.total (fun _ => 1) n = s.heap.total (fun _ => 1) n :=
      Finset.sum_congr rfl fun i hi => by rw [hcallbacks (Finset.mem_range.mp hi)]
    rw [workBelow, workBelow, htotal, h.running]
    exact Nat.le_refl _

theorem setResult (hs : Sound s) (hb : Bounded n s) (hd : d < s.heap.next) (r : Result) :
    Runs n 0 s (s.setResult d r) := by
  refine ⟨hs.setResult hd r, later_of_heap fun i => Deferreds.calls_setResult.ge,
    ⟨hb.next, hb.startup, hb.shutdown, hb.running, fun i hi k hk => ?_⟩, ?_⟩
  · exact hb.target i hi k (Deferreds.callbacks_setResult ▸ hk)
  · simp only [workBelow, Application.setResult, Deferreds.total_setResult, Deferreds.running_setResult]
    exact Nat.le_refl _

theorem fire (hs : Sound s) (hb : Bounded n s) (hu : Unclaimed s d) (hp : ¬Promised s d) (hd : d < n) (r : Result) :
    Runs n 1 s { s with heap := s.heap.fire d r } := by
  refine ⟨hs.fire hu hp r, later_of_heap calls_le_fire,
    ⟨Deferreds.next_fire.symm ▸ hb.next, hb.startup, hb.shutdown, fun i hi => ?_, fun i hi k hk => ?_⟩, ?_⟩
  · rcases Deferreds.mem_running_fire hi with rfl | hmem
    · exact hd
    · exact hb.running i hmem
  · exact hb.target i hi k (Deferreds.callbacks_fire ▸ hk)
  · have hlength := Deferreds.length_running_fire (h := s.heap) (d := d) (r := r)
    simp only [workBelow, Deferreds.total_fire]
    omega

theorem resume (hs : Sound s) (hb : Bounded n s) (hcalls : (s.heap.get d).calls ≠ 0) (hd : d < n) (r : Result) :
    Runs n 1 s { s with heap := s.heap.resume d r } := by
  refine ⟨hs.resume hcalls r, later_of_heap fun i => Deferreds.calls_resume.ge,
    ⟨Deferreds.next_resume.symm ▸ hb.next, hb.startup, hb.shutdown, fun i hi => ?_, fun i hi k hk => ?_⟩, ?_⟩
  · rcases Deferreds.mem_running_run hi with rfl | hmem
    · exact hd
    · exact hb.running i hmem
  · exact hb.target i hi k (Deferreds.callbacks_resume ▸ hk)
  · have hlength := Deferreds.length_running_resume (h := s.heap) (d := d) (r := r)
    simp only [workBelow, Deferreds.total_resume]
    omega

/-- A deferred that is chained to what `stop` returned. -/
theorem chainDeferred (hs : Sound s) (hb : Bounded n s) (hx : x < s.heap.next) (hnew : n ≤ x ∨ (s.heap.get x).calls ≠ 0)
    (hfree : Sound.Free s x) (hu : Unclaimed s d) (hp : ¬Promised s d) (hd : d < n) :
    Runs n 1 s (s.chainDeferred x d) := by
  unfold Application.chainDeferred
  split
  · case isTrue hcalls =>
    have hfires (i : Nat) (hi : Callback.fires i (.fire d) ≠ 0) : Unclaimed s i ∧ ¬Promised s i := by
      have heq : d = i := by
        by_contra hne
        exact hi (if_neg hne)
      exact heq ▸ ⟨hu, hp⟩
    have hle : n ≤ x := hnew.resolve_right (absurd hcalls)
    refine ⟨hs.add_free hx hfree (.inl hcalls) nofun rfl hfires, later_of_heap fun i => Deferreds.calls_add.ge,
      ⟨hb.next, hb.startup, hb.shutdown, hb.running, fun i hi k hk => ?_⟩, ?_⟩
    · rcases Deferreds.mem_callbacks_add.mp hk with hmem | ⟨heq, _⟩
      · exact hb.target i hi k hmem
      · exact absurd (heq ▸ hi) (Nat.not_lt.mpr hle)
    · have htotal : (s.heap.add x (.fire d)).total (fun _ => 1) n = s.heap.total (fun _ => 1) n :=
        Finset.sum_congr rfl fun i hi => by
          have hne : i ≠ x := fun heq => absurd (heq ▸ Finset.mem_range.mp hi) (Nat.not_lt.mpr hle)
          rw [Deferreds.callbacks_add, if_neg hne]
      simp only [workBelow, htotal, Deferreds.running_add]
      exact Nat.le_succ _
  · exact Runs.fire hs hb hu hp hd _

/-- The deferred on top of the stack waits for another one. -/
theorem wait (hs : Sound s) (hb : Bounded n s) {rest : List Nat} (hd : s.heap.running = d :: rest)
    (hfree : Sound.Free s d) (hx : x < s.heap.next)
    (hrest : (s.heap.get x).calls = 0 ∨ (s.heap.get x).waiting = true) :
    Runs n 1 s { s with heap := (s.heap.pause d).add x (.resume d) } := by
  have hmem : d ∈ s.heap.running := hd ▸ List.mem_cons_self
  have hpause := hs.pause hd hfree
  have hadd := hpause.add (d := x) (k := .resume d) hx
    (hrest.imp (fun hzero => Deferreds.calls_pause.trans hzero) fun hwaiting => .inl (by
      rw [Deferreds.waiting_pause]
      split
      · rfl
      · exact hwaiting))
    nofun (fun hparks => by
      rcases hparks with hstartup | ⟨y, hy | hy⟩
      · exact ⟨hpause.starting x hstartup, rfl⟩
      · exact ⟨hpause.parks x y hy, rfl⟩
      · cases hy)
    (fun y hy => by
      cases hy
      exact fun hzero => hs.running d hmem (Deferreds.calls_pause.symm.trans hzero))
    fun _ hne => absurd rfl hne
  refine ⟨hadd, later_of_heap fun i => ?_, ⟨hb.next, hb.startup, hb.shutdown, fun i hi => ?_, fun i hi k hk => ?_⟩, ?_⟩
  · rw [Deferreds.calls_add, Deferreds.calls_pause]
  · exact hb.running i (List.mem_of_mem_tail hi)
  · rcases Deferreds.mem_callbacks_add.mp hk with hold | ⟨_, rfl⟩
    · exact hb.target i hi k (Deferreds.callbacks_pause ▸ hold)
    · rintro y hy
      cases hy
      exact hb.running d hmem
  · have hadd' : ((s.heap.pause d).add x (.resume d)).total (fun _ => 1) n ≤ (s.heap.pause d).total (fun _ => 1) n + 1 :=
      Deferreds.total_add_le
    have hlength : s.heap.running.length = (s.heap.running.tail).length + 1 := by
      rw [hd]
      rfl
    simp only [workBelow, Deferreds.running_add, Deferreds.running_pause]
    rw [Deferreds.total_pause] at hadd'
    omega

/-- `stop` again, and the chaining of the deferred to what it returns. -/
theorem stopped (hs : Sound s) (hb : Bounded n s) {y : Nat} (hd : d < s.heap.next) (hu : Unclaimed s y)
    (hp : ¬Promised s y) (hy : y < n) (hx : (s.stop c).2 = some x) (r : Result) :
    Runs n 1 s (((s.stop c).1.chainDeferred x y).setResult d r) := by
  obtain ⟨ht, hextends⟩ := stop_spec (c := c) hs
  obtain ⟨hlt, hfree, hfired⟩ := stop_returned hs hx
  obtain ⟨hu', hp'⟩ := hextends.unclaimed hu hp
  have hstop := of_extends hs hb ht hextends
  have hnew : n ≤ x ∨ ((s.stop c).1.heap.get x).calls ≠ 0 := by
    rcases hfired with ⟨_, hshutdown | hle⟩ | ⟨hcalls, _⟩
    · exact .inl (hstop.bounded.shutdown x hshutdown)
    · exact .inl (hb.next.trans hle)
    · exact .inr hcalls
  have hchain := hstop.trans (chainDeferred ht hstop.bounded hlt hnew hfree hu' hp' hy)
  refine hchain.trans (setResult hchain.sound hchain.bounded ?_ r)
  have hnext : (s.stop c).1.heap.next ≤ ((s.stop c).1.chainDeferred x y).heap.next := by
    unfold Application.chainDeferred
    split
    · exact Nat.le_refl _
    · exact Deferreds.next_fire.ge
  exact (hd.trans_le hextends.next).trans_le hnext

theorem stopWhenStarted (hs : Sound s) (hb : Bounded n s) {y : Nat} (hd : d < s.heap.next) (hu : Unclaimed s y)
    (hp : ¬Promised s y) (hy : y < n) (retry : Bool) : Runs n 1 s (s.stopWhenStarted c d y retry) := by
  obtain ⟨ht, hextends⟩ := stop_spec (c := c) hs
  have hstop := of_extends hs hb ht hextends
  have hd' := hd.trans_le hextends.next
  have hfailed {t : Application} (h : Runs n 0 s t) (ht : d < t.heap.next) (r : Result) : Runs n 1 s (t.setResult d r) :=
    (h.trans (setResult h.sound h.bounded ht r)).mono (Nat.zero_le 1)
  unfold Application.stopWhenStarted
  split
  · case h_1 t x hresult =>
    have hfirst := stopped (c := c) hs hb hd hu hp hy (congrArg Prod.snd hresult) (.ok none)
    rwa [congrArg Prod.fst hresult] at hfirst
  · case h_2 t hresult =>
    obtain rfl : (s.stop c).1 = t := congrArg Prod.fst hresult
    obtain ⟨hu', hp'⟩ := hextends.unclaimed hu hp
    split
    · obtain ⟨ht', hextends'⟩ := stop_spec (c := c) ht
      have hagain := hstop.trans (of_extends ht hstop.bounded ht' hextends')
      split
      · case h_1 u x hresult' =>
        have hsecond := hstop.trans (stopped (c := c) ht hstop.bounded hd' hu' hp' hy (congrArg Prod.snd hresult') (.ok none))
        rwa [congrArg Prod.fst hresult'] at hsecond
      · case h_2 u hresult' =>
        obtain rfl : ((s.stop c).1.stop c).1 = u := congrArg Prod.fst hresult'
        exact hfailed hagain (hd'.trans_le hextends'.next) _
    · exact hfailed hstop hd' _

theorem returned (hs : Sound s) (hb : Bounded n s) {rest : List Nat} (hd : s.heap.running = d :: rest)
    (hfree : Sound.Free s d) {result : Option Nat} (hresult : ∀ x, result = some x → x < s.heap.next) :
    Runs n 1 s (s.returned d result) := by
  have hmem : d ∈ s.heap.running := hd ▸ List.mem_cons_self
  have hlt := hs.lt_of_calls (hs.running d hmem)
  have hset (r : Result) : Runs n 1 s (s.setResult d r) := (setResult hs hb hlt r).mono (Nat.zero_le 1)
  cases result with
  | none => exact hset _
  | some x =>
    simp only [Application.returned]
    split
    · case isTrue hrest => exact wait hs hb hd hfree (hresult x rfl) hrest
    · exact hset _

end Runs

section Tick
variable {rest : List Nat} {k : Callback} {ks : List Callback}

/-- One callback is taken off, and what is left to do is less by two. -/
theorem advance_runs (hs : Sound s) (hb : Bounded n s) (hd : s.heap.running = d :: rest)
    (hk : (s.heap.get d).callbacks = k :: ks) {carriedOut : List Nat} (hsub : s.carriedOut ⊆ carriedOut)
    (hnew : ∀ x, k = .stopWhenStarted x → x ∈ carriedOut) :
    let t := { s with heap := s.heap.advance d, carriedOut := carriedOut }
    Sound t ∧ Later s t ∧ Bounded n t ∧ t.workBelow n + 2 = s.workBelow n := by
  have hmem : d ∈ s.heap.running := hd ▸ List.mem_cons_self
  refine ⟨hs.advance hmem hk hsub hnew, ⟨fun i => Deferreds.calls_advance.ge, fun _ => id, List.Subset.refl _,
    fun _ _ => Or.inl⟩, ⟨hb.next, hb.startup, hb.shutdown, hb.running, fun i hi k' hk' => ?_⟩, ?_⟩
  · exact hb.target i hi k' (Deferreds.mem_callbacks_of_advance hk')
  · have htotal := Deferreds.total_advance (f := fun _ => 1) (hb.running d hmem) hk
    simp only [workBelow, Deferreds.running_advance]
    omega

/-- The callback may add one to what is left to do. -/
theorem tick_of_runs (hs : Sound s) (hb : Bounded n s) (hd : s.heap.running = d :: rest)
    (hk : (s.heap.get d).callbacks = k :: ks) {carriedOut : List Nat} (hsub : s.carriedOut ⊆ carriedOut)
    (hnew : ∀ x, k = .stopWhenStarted x → x ∈ carriedOut)
    (h : Runs n 1 { s with heap := s.heap.advance d, carriedOut := carriedOut } t) :
    Sound t ∧ Later s t ∧ Bounded n t ∧ t.workBelow n < s.workBelow n := by
  obtain ⟨_, hlater, _, hwork⟩ := advance_runs hs hb hd hk hsub hnew
  have hle := h.work
  exact ⟨h.sound, hlater.trans h.later, h.bounded, by omega⟩

theorem call_runs (hs : Sound s) (hb : Bounded n s) (hd : s.heap.running = d :: rest)
    (hk : (s.heap.get d).callbacks = k :: ks) (result : Result) :
    let t := { s with heap := s.heap.advance d }.call c d result k
    Sound t ∧ Later s t ∧ Bounded n t ∧ t.workBelow n < s.workBelow n := by
  have hmem : d ∈ s.heap.running := hd ▸ List.mem_cons_self
  have hkmem : k ∈ (s.heap.get d).callbacks := hk ▸ List.mem_cons_self
  have hlt := hs.lt_of_calls (hs.running d hmem)
  have hpart {u : Application} (hne : ∀ x, k ≠ .stopWhenStarted x)
      (h : Runs n 1 { s with heap := s.heap.advance d } u) :=
    tick_of_runs hs hb hd hk (List.Subset.refl _) (fun x hx => absurd hx (hne x)) h
  have hadvance (hne : ∀ x, k ≠ .stopWhenStarted x) := advance_runs hs hb hd hk (List.Subset.refl s.carriedOut)
    fun x hx => absurd hx (hne x)
  have hset (hne : ∀ x, k ≠ .stopWhenStarted x) (r : Result) :
      Runs n 1 { s with heap := s.heap.advance d } ({ s with heap := s.heap.advance d }.setResult d r) :=
    (Runs.setResult (hadvance hne).1 (hadvance hne).2.2.1 hlt r).mono (Nat.zero_le 1)
  have hsame (hne : ∀ x, k ≠ .stopWhenStarted x) :
      Runs n 1 { s with heap := s.heap.advance d } { s with heap := s.heap.advance d } :=
    ⟨(hadvance hne).1, Later.refl _, (hadvance hne).2.2.1, Nat.le_succ _⟩
  cases k with
  | stopDone => exact absurd (hs.stray d hkmem) (hs.ne_shutdown_of_running hmem)
  | restart =>
    cases result with
    | error e => exact hpart (fun _ => by simp) (hsame fun _ => by simp)
    | ok r =>
      obtain ⟨ht, _, hbt, _⟩ := hadvance fun _ => by simp
      obtain ⟨hstart, hextends⟩ := start_spec (c := c) ht
      have hruns := Runs.of_extends ht hbt hstart hextends
      have hnot : ¬Parks s d := fun hp => by cases hp.parked .restart hkmem
      have hfree : Sound.Free ({ s with heap := s.heap.advance d }.start c).1 d := by
        have hold := hs.free_of_not_parks hnot
        refine ⟨fun h => ?_, fun x hx => hold.callbacks x ?_⟩
        · rcases hextends.startup d h with h | h
          · exact hold.startup h
          · exact absurd hlt (Nat.not_lt.mpr h)
        · rw [hextends.others d hlt hold.startup (hs.ne_shutdown_of_running hmem)] at hx
          exact Deferreds.mem_callbacks_of_advance hx
      exact hpart (fun _ => by simp) (hruns.trans (Runs.returned hstart hruns.bounded (hextends.running.trans hd) hfree
        fun x hx => start_lt ht hx))
  | start r =>
    cases result with
    | error e => exact hpart (fun _ => by simp) (hsame fun _ => by simp)
    | ok r => exact hpart (fun _ => by simp) (hset (fun _ => by simp) _)
  | stopWhenStarted x =>
    have hnew : ∀ y, Callback.stopWhenStarted x = .stopWhenStarted y → y ∈ x :: s.carriedOut := by
      rintro y heq
      cases heq
      exact List.mem_cons_self
    obtain ⟨ht, _, hbt, _⟩ := advance_runs hs hb hd hk (List.subset_cons_self x s.carriedOut) hnew
    obtain ⟨hu, hp⟩ := hs.unclaimed_advance hk (l := x :: s.carriedOut) (x := x) (by simp [Callback.fires])
    exact tick_of_runs hs hb hd hk (List.subset_cons_self x _) hnew
      (Runs.stopWhenStarted ht hbt hlt hu hp (hb.target d (hb.running d hmem) _ hkmem x rfl) _)
  | fire x =>
    obtain ⟨ht, _, hbt, _⟩ := hadvance fun _ => by simp
    obtain ⟨hu, hp⟩ := hs.unclaimed_advance hk (l := s.carriedOut) (x := x) (by simp [Callback.fires])
    have hfire := Runs.fire ht hbt hu hp (hb.target d (hb.running d hmem) _ hkmem x rfl) result
    exact hpart (fun _ => by simp) (hfire.trans (Runs.setResult hfire.sound hfire.bounded
      (Deferreds.next_fire.symm ▸ hlt) _))
  | resume x =>
    obtain ⟨ht, _, hbt, _⟩ := hadvance fun _ => by simp
    have hcalls : ((s.heap.advance d).get x).calls ≠ 0 := fun hzero =>
      hs.resuming d x hkmem (Deferreds.calls_advance.symm.trans hzero)
    have hresume := Runs.resume ht hbt hcalls (hb.target d (hb.running d hmem) _ hkmem x rfl) result
    exact hpart (fun _ => by simp) (hresume.trans (Runs.setResult hresume.sound hresume.bounded
      (Deferreds.next_resume.symm ▸ hlt) _))

theorem tick_runs (hs : Sound s) (hb : Bounded n s) (hrunning : s.heap.running ≠ []) :
    Sound (s.tick c) ∧ Later s (s.tick c) ∧ Bounded n (s.tick c) ∧ (s.tick c).workBelow n < s.workBelow n := by
  obtain ⟨d, rest, hd⟩ := List.exists_cons_of_ne_nil hrunning
  cases hk : (s.heap.get d).callbacks with
  | nil =>
    have htick : s.tick c = { s with heap := { s.heap with running := rest } } := by
      simp only [tick, hd, hk]
    have hrest {i : Nat} (hi : i ∈ rest) : i ∈ s.heap.running := hd ▸ List.mem_cons_of_mem d hi
    rw [htick]
    refine ⟨hs.setRunning (fun i hi => ?_) fun i hi => hs.running i (hrest hi), later_of_heap fun _ => Nat.le_refl _,
      ⟨hb.next, hb.startup, hb.shutdown, fun i hi => hb.running i (hrest hi), hb.target⟩, ?_⟩
    · rw [hd] at hi
      rcases List.mem_cons.mp hi with rfl | hi
      · exact .inl hk
      · exact .inr hi
    · simp only [workBelow, hd, List.length_cons]
      exact Nat.lt_succ_self _
  | cons k ks =>
    have htick : s.tick c = { s with heap := s.heap.advance d }.call c d (s.heap.get d).result k := by
      simp only [tick, hd, hk]
    rw [htick]
    exact call_runs hs hb hd hk _

theorem ticks_of_settled (hrunning : s.heap.running = []) (m : Nat) : s.ticks c m = s := by
  have htick : s.tick c = s := by
    simp only [tick, hrunning]
  induction m with
  | zero => rfl
  | succ m ih => rw [ticks, htick, ih]

/-- All callbacks are run. -/
theorem ticks_settled {m : Nat} (hs : Sound s) (hb : Bounded n s) (hm : s.workBelow n ≤ m) :
    Sound (s.ticks c m) ∧ Later s (s.ticks c m) ∧ (s.ticks c m).heap.running = [] := by
  induction m generalizing s with
  | zero =>
    have hlength : s.heap.running.length = 0 := by
      rw [workBelow] at hm
      omega
    exact ⟨hs, Later.refl s, List.eq_nil_of_length_eq_zero hlength⟩
  | succ m ih =>
    by_cases hrunning : s.heap.running = []
    · rw [ticks_of_settled hrunning]
      exact ⟨hs, Later.refl s, hrunning⟩
    · obtain ⟨ht, hlater, hbt, hwork⟩ := tick_runs (c := c) hs hb hrunning
      obtain ⟨hsound, hlater', hdone⟩ := ih ht hbt (by omega)
      exact ⟨hsound, hlater.trans hlater', hdone⟩

end Tick

/-! ## Calls and completions -/

theorem bounded_next (hs : Sound s) (hstartup : s.startupDeferred = none) (hshutdown : s.shutdownDeferred = none) :
    Bounded s.heap.next s := by
  refine ⟨Nat.le_refl _, fun i hi => absurd (hstartup.symm.trans hi) nofun, fun i hi => absurd (hshutdown.symm.trans hi) nofun,
    fun i hi => hs.lt_of_calls (hs.running i hi), fun i hi k hk x hx => ?_⟩
  have hclaimed (hfires : k.fires x = 1) : x < s.heap.next := by
    by_contra hge
    have hzero := hs.fresh x (Nat.le_of_not_lt hge)
    have hle := Deferreds.le_total (f := Callback.fires x) hi hk
    rw [claims] at hzero
    omega
  cases k with
  | fire y =>
    cases hx
    exact hclaimed (if_pos rfl)
  | stopWhenStarted y =>
    cases hx
    exact hclaimed (if_pos rfl)
  | resume y =>
    cases hx
    exact hs.lt_of_calls (hs.resuming i x hk)
  | stopDone => cases hx
  | restart => cases hx
  | start r => cases hx

theorem settle_spec (hs : Sound s)
    (hidle : s.heap.running = [] ∨ s.startupDeferred = none ∧ s.shutdownDeferred = none) :
    Sound (s.settle c) ∧ Later s (s.settle c) ∧ (s.settle c).heap.running = [] := by
  rcases hidle with hrunning | ⟨hstartup, hshutdown⟩
  · rw [settle, ticks_of_settled hrunning]
    exact ⟨hs, Later.refl s, hrunning⟩
  · exact ticks_settled hs (bounded_next hs hstartup hshutdown) (Nat.le_refl _)

/-- The startup's deferred fires. -/
theorem endStartup_spec (hs : Sound s) (hd : s.startupDeferred = some d) {r : Result}
    (ha : Alike { s with startupDeferred := none, heap := s.heap.fire d r } t) :
    Sound t ∧ Later s t ∧ t.startupDeferred = none ∧ t.shutdownDeferred = none := by
  obtain ⟨hclear, hunclaimed, hnot⟩ := hs.clearStartup hd
  have hshutdown : s.shutdownDeferred = none := by
    rcases hs.exclusive with hnone | hnone
    · exact absurd (hnone.symm.trans hd) nofun
    · exact hnone
  refine ⟨(hclear.fire hunclaimed hnot r).alike ha, ⟨fun i => ?_, fun i hi => ?_, ?_, fun i r' hi => ?_⟩, ha.startup,
    ha.shutdown.trans hshutdown⟩
  · rw [ha.heap]
    exact calls_le_fire i
  · exact absurd (hshutdown.symm.trans hi) nofun
  · exact ha.promised ▸ List.Subset.refl _
  · exact .inl (ha.promised ▸ hi)

theorem restart_spec (hs : Sound s) (hrunning : s.heap.running = []) :
    Sound (s.restart c) ∧ Later s (s.restart c) ∧
      ((s.restart c).heap.running = [] ∨
        (s.restart c).startupDeferred = none ∧ (s.restart c).shutdownDeferred = none) := by
  have ha : Alike s { s with isRestarting := true } := ⟨rfl, rfl, rfl, rfl, rfl, rfl, rfl⟩
  have ht := hs.alike ha
  simp only [Application.restart]
  split
  · obtain ⟨hstop, hextends⟩ := stop_spec (c := c) ht
    have hlater := (hextends.alike_left ha).later hs
    split
    · case h_1 u x hresult =>
      obtain rfl : ({ s with isRestarting := true }.stop c).1 = u := congrArg Prod.fst hresult
      obtain ⟨hlt, hfree, hfired⟩ := stop_returned ht (congrArg Prod.snd hresult)
      have hlater' : ∀ {h : Deferreds Callback Result},
          (∀ i, (h.get i).calls = (({ s with isRestarting := true }.stop c).1.heap.get i).calls) →
          Later s { ({ s with isRestarting := true }.stop c).1 with heap := h } :=
        fun hcalls => hlater.trans (later_of_heap fun i => (hcalls i).ge)
      simp only [Deferreds.calls_add]
      rcases hfired with ⟨hcalls, _⟩ | ⟨hcalls, hstartup, hshutdown⟩
      · simp only [if_pos hcalls]
        refine ⟨hstop.add_free hlt hfree (.inl hcalls) nofun rfl fun _ hne => absurd rfl hne,
          hlater' fun i => Deferreds.calls_add, .inl ?_⟩
        exact hextends.running.trans hrunning
      · simp only [if_neg hcalls]
        have hrun : (({ s with isRestarting := true }.stop c).1.heap.add x .restart).run x =
            { ({ s with isRestarting := true }.stop c).1.heap with
              running := x :: ({ s with isRestarting := true }.stop c).1.heap.running }.add x .restart := by
          have hne : (((({ s with isRestarting := true }.stop c).1.heap.add x .restart).get x).callbacks).isEmpty = false := by
            simp [Deferreds.callbacks_add]
          rw [Deferreds.run, hne]
          rfl
        have hpushed := hstop.setRunning (l := x :: ({ s with isRestarting := true }.stop c).1.heap.running)
          (fun i hi => .inr (List.mem_cons_of_mem x hi)) fun i hi => by
            rcases List.mem_cons.mp hi with rfl | hi
            · exact hcalls
            · exact hstop.running i hi
        have hadd := hpushed.add_free (d := x) (k := .restart) hlt ⟨hfree.1, hfree.2⟩ (.inr (.inr List.mem_cons_self)) nofun rfl
          fun _ hne => absurd rfl hne
        rw [hrun]
        exact ⟨hadd, hlater' fun i => Deferreds.calls_add, .inr ⟨hstartup, hshutdown⟩⟩
    · case h_2 u hresult =>
      obtain rfl : ({ s with isRestarting := true }.stop c).1 = u := congrArg Prod.fst hresult
      exact ⟨hstop, hlater, .inl (hextends.running.trans hrunning)⟩
  · obtain ⟨hstart, hextends⟩ := start_spec (c := c) ht
    exact ⟨hstart, (hextends.alike_left ha).later hs, .inl (hextends.running.trans hrunning)⟩

/-- The deferred of the shutdown that an action completes. -/
def Application.completed (s : Application) : Action → Option Nat
  | .exitDone _ => s.shutdownDeferred
  | .processDone p => if p ∈ s.processes ∧ (s.processes.erase p).isEmpty then s.shutdownDeferred else none
  | _ => none

theorem act_spec {a : Action} (hs : Sound s) (hrunning : s.heap.running = []) (hact : s.act c a = some t)
    (hnone : s.completed a = none) :
    Sound t ∧ Later s t ∧ (t.heap.running = [] ∨ t.startupDeferred = none ∧ t.shutdownDeferred = none) := by
  cases a with
  | start =>
    obtain rfl := Option.some.inj hact
    obtain ⟨hsound, hextends⟩ := start_spec (c := c) hs
    exact ⟨hsound, hextends.later hs, .inl (hextends.running.trans hrunning)⟩
  | stop =>
    obtain rfl := Option.some.inj hact
    obtain ⟨hsound, hextends⟩ := stop_spec (c := c) hs
    exact ⟨hsound, hextends.later hs, .inl (hextends.running.trans hrunning)⟩
  | restart =>
    obtain rfl := Option.some.inj hact
    exact restart_spec hs hrunning
  | dependenciesDone result =>
    obtain ⟨⟨hsome, _⟩, hresult⟩ := Option.ite_none_right_eq_some.mp hact
    obtain rfl := Option.some.inj hresult
    obtain ⟨d, hd⟩ := Option.isSome_iff_exists.mp hsome
    rcases dependenciesResult_cases (c := c) hd result with ha | ⟨r, ha⟩
    · refine ⟨hs.alike ha, ((Extends.refl s).alike_right ha).later hs, .inl ?_⟩
      rw [ha.heap]
      exact hrunning
    · obtain ⟨hsound, hlater, hidle⟩ := endStartup_spec hs hd ha
      exact ⟨hsound, hlater, .inr hidle⟩
  | launchDone result =>
    obtain ⟨⟨hsome, _⟩, hresult⟩ := Option.ite_none_right_eq_some.mp hact
    obtain rfl := Option.some.inj hresult
    obtain ⟨d, hd⟩ := Option.isSome_iff_exists.mp hsome
    obtain ⟨r, ha⟩ := launchResult_cases hd result
    obtain ⟨hsound, hlater, hidle⟩ := endStartup_spec hs hd ha
    exact ⟨hsound, hlater, .inr hidle⟩
  | exitDone result =>
    have hshutdown : s.shutdownDeferred = none := hnone
    rw [act, hshutdown] at hact
    cases hact
  | processDone p =>
    obtain ⟨hmem, hresult⟩ := Option.ite_none_right_eq_some.mp hact
    obtain rfl := Option.some.inj hresult
    have ha : Alike s { s with processes := s.processes.erase p } := ⟨rfl, rfl, rfl, rfl, rfl, rfl, rfl⟩
    have hsame : s.processDone p = { s with processes := s.processes.erase p } := by
      unfold processDone
      by_cases hempty : (s.processes.erase p).isEmpty = true
      · have hshutdown : s.shutdownDeferred = none := by
          rw [completed, if_pos ⟨hmem, hempty⟩] at hnone
          exact hnone
        simp only [hempty, if_true, hshutdown]
      · simp only [hempty, if_false, Bool.false_eq_true]
    rw [hsame]
    exact ⟨hs.alike ha, ((Extends.refl s).alike_right ha).later hs, .inl hrunning⟩

/-- A completed shutdown, up to what only its processes show. -/
theorem act_completed {a : Action} (hact : s.act c a = some t) (hd : s.completed a = some d) :
    s.shutdownDeferred = some d ∧ ∃ s' result, Alike s s' ∧ t = s'.exitDone d result := by
  cases a with
  | exitDone result =>
    have hshutdown : s.shutdownDeferred = some d := hd
    rw [act, hshutdown] at hact
    obtain rfl := Option.some.inj hact
    exact ⟨hshutdown, s, result, ⟨rfl, rfl, rfl, rfl, rfl, rfl, rfl⟩, rfl⟩
  | processDone p =>
    obtain ⟨⟨hmem, hempty⟩, hshutdown⟩ := Option.ite_none_right_eq_some.mp hd
    obtain ⟨_, hresult⟩ := Option.ite_none_right_eq_some.mp hact
    obtain rfl := Option.some.inj hresult
    refine ⟨hshutdown, { s with processes := s.processes.erase p }, .ok (), ⟨rfl, rfl, rfl, rfl, rfl, rfl, rfl⟩, ?_⟩
    simp only [processDone, hempty, if_true, hshutdown]
  | start => cases hd
  | stop => cases hd
  | restart => cases hd
  | dependenciesDone result => cases hd
  | launchDone result => cases hd

/-- The deferred of the shutdown fires, and its first callback has run. -/
theorem exitDone_tick (hs : Sound s) (hrunning : s.heap.running = []) (hd : s.shutdownDeferred = some d)
    (result : Except Unit Unit) :
    let u := (s.exitDone d result).tick c
    Sound u ∧ u.startupDeferred = none ∧ u.shutdownDeferred = none ∧ (u.heap.get d).calls ≠ 0 ∧
      u.promised = s.promised ∧ u.workBelow u.heap.next < (s.exitDone d result).work := by
  obtain ⟨ks, hks, _⟩ := hs.stopping d hd
  have hlt := hs.lt_of_shutdown hd
  have hcalls := hs.calm d hd
  have hstartup : s.startupDeferred = none := by
    rcases hs.exclusive with hnone | hnone
    · exact hnone
    · exact absurd (hnone.symm.trans hd) nofun
  obtain ⟨hclear, hunclaimed, hnot⟩ := hs.clearShutdown hd
  have hmain (r : Result) :
      Sound { s with heap := (s.heap.fire d r).advance d, shutdownDeferred := none } ∧
      (((s.heap.fire d r).advance d).get d).calls ≠ 0 := by
    have hfired := hclear.fire hunclaimed hnot r
    have hown : (((s.heap.advance d).fire d r).get d).calls ≠ 0 := by
      rw [Deferreds.calls_fire, if_pos rfl]
      exact Nat.succ_ne_zero _
    rw [Deferreds.advance_fire hcalls (hks ▸ nofun)]
    refine ⟨hfired.setRunning (fun i hi => .inr ?_) fun i hi => ?_, hown⟩
    · rcases Deferreds.mem_running_fire hi with rfl | hmem
      · exact List.mem_cons_self
      · exact List.mem_cons_of_mem d hmem
    · rw [hrunning] at hi
      obtain rfl := List.mem_singleton.mp hi
      exact hown
  have hrunning' (r : Result) : (s.heap.fire d r).running = [d] := by
    simp [Deferreds.fire, hcalls, Deferreds.run, Deferreds.get_set, hks, hrunning]
  have hcallbacks (r : Result) : ((s.heap.fire d r).get d).callbacks = .stopDone :: ks := Deferreds.callbacks_fire.trans hks
  have hwork (r : Result) : ({ s with heap := (s.heap.fire d r).advance d, shutdownDeferred := none } : Application).workBelow
      s.heap.next < 2 * (s.heap.fire d r).total (fun _ => 1) (s.heap.fire d r).next + (s.heap.fire d r).running.length := by
    have htotal := Deferreds.total_advance (f := fun _ => 1) hlt (hcallbacks r)
    simp only [Deferreds.next_fire, workBelow, Deferreds.running_advance]
    omega
  cases result with
  | ok _ =>
    have htick : (s.exitDone d (.ok ())).tick c =
        { s with heap := (s.heap.fire d (.ok (some true))).advance d, shutdownDeferred := none } := by
      simp only [tick, exitDone, hrunning', hcallbacks, call, stopDone]
      have hresult : ((s.heap.fire d (.ok (some true))).get d).result = .ok (some true) := by
        simp [Deferreds.fire, hcalls, Deferreds.get_set]
      rw [hresult]
    obtain ⟨hsound, hown⟩ := hmain (.ok (some true))
    intro u
    rw [show u = _ from htick]
    refine ⟨hsound, hstartup, rfl, hown, rfl, ?_⟩
    have hnext : ((s.heap.fire d (.ok (some true))).advance d).next = s.heap.next := Deferreds.next_fire
    rw [hnext]
    exact hwork _
  | error e =>
    have htick : (s.exitDone d (.error e)).tick c =
        { s with heap := (s.heap.fire d (.error .failed)).advance d, shutdownDeferred := none }.setResult d (.ok none) := by
      simp only [tick, exitDone, hrunning', hcallbacks, call, stopDone]
      have hresult : ((s.heap.fire d (.error .failed)).get d).result = .error .failed := by
        simp [Deferreds.fire, hcalls, Deferreds.get_set]
      rw [hresult]
    obtain ⟨hsound, hown⟩ := hmain (.error .failed)
    intro u
    rw [show u = _ from htick]
    have hnext : ((s.heap.fire d (.error .failed)).advance d).next = s.heap.next := Deferreds.next_fire
    refine ⟨hsound.setResult (hnext ▸ hlt) _, hstartup, rfl, ?_, rfl, ?_⟩
    · exact fun hzero => hown (Deferreds.calls_setResult.symm.trans hzero)
    · have hset := hwork (.error .failed)
      simp only [workBelow, Application.setResult, Deferreds.total_setResult, Deferreds.running_setResult,
        Deferreds.next_setResult, hnext] at hset ⊢
      exact hset

/-- What a completed shutdown leads to. -/
theorem completed_spec {a : Action} (hs : Sound s) (hrunning : s.heap.running = []) (hact : s.act c a = some t)
    (hd : s.completed a = some d) :
    Sound (t.settle c) ∧ (t.settle c).heap.running = [] ∧ ((t.settle c).heap.get d).calls ≠ 0 ∧
      s.promised ⊆ (t.settle c).promised ∧
      ∀ i r, (i, r) ∈ (t.settle c).promised → (i, r) ∈ s.promised ∨ (t.settle c).shutdownDeferred = some i := by
  obtain ⟨hshutdown, s', result, ha, rfl⟩ := act_completed hact hd
  obtain ⟨hsound, hstartup', hshutdown', hcalls, hpromised, hwork⟩ := exitDone_tick (c := c) (hs.alike ha)
    ((congrArg Deferreds.running ha.heap).trans hrunning) (ha.shutdown.trans hshutdown) result
  obtain ⟨m, hm⟩ : ∃ m, (s'.exitDone d result).work = m + 1 := Nat.exists_eq_succ_of_ne_zero (by omega)
  have hsettle : (s'.exitDone d result).settle c = ((s'.exitDone d result).tick c).ticks c m := by
    rw [settle, hm, ticks]
  obtain ⟨hdone, hlater, hstack⟩ := ticks_settled (c := c) (m := m) hsound (bounded_next hsound hstartup' hshutdown') (by omega)
  rw [hsettle]
  refine ⟨hdone, hstack, fun hzero => hcalls (Nat.le_zero.mp ((hlater.calls d).trans hzero.le)), ?_, fun i r hi => ?_⟩
  · exact ha.promised ▸ hpromised ▸ hlater.promised
  · exact (hlater.since i r hi).imp_left fun hold => ha.promised ▸ hpromised ▸ hold

theorem step_sound {a : Action} (hs : Sound s) (hrunning : s.heap.running = []) (hstep : step c s a = some t) :
    Sound t ∧ t.heap.running = [] := by
  obtain ⟨u, hact, rfl⟩ := Option.map_eq_some_iff.mp hstep
  cases hd : s.completed a with
  | none =>
    obtain ⟨hsound, _, hidle⟩ := act_spec hs hrunning hact hd
    obtain ⟨hdone, _, hstack⟩ := settle_spec (c := c) hsound hidle
    exact ⟨hdone, hstack⟩
  | some d =>
    obtain ⟨hdone, hstack, _⟩ := completed_spec hs hrunning hact hd
    exact ⟨hdone, hstack⟩

/-! ## The lifecycle -/

/-- `stopped`: a stop during a startup is carried out when the startup has ended. `started`: a start
during a shutdown begins the startup, with the deferred that it returned, when the shutdown has ended. -/
structure Orderly (s : Application) : Prop where
  exclusive : s.startupDeferred = none ∨ s.shutdownDeferred = none
  once : ∀ d, (s.heap.get d).calls ≤ 1
  stopped : ∀ d x, (d, x) ∈ s.requests → (s.heap.get d).calls ≠ 0 → x ∈ s.carriedOut
  started : ∀ d r, (d, r) ∈ s.promised → (s.heap.get d).calls ≠ 0 →
    s.startupDeferred = some r ∨ (s.heap.get r).calls ≠ 0

/-- No start came during the shutdown that the action completes. -/
def Undisturbed (s : Application) (a : Action) : Prop := ∀ p ∈ s.promised, s.completed a ≠ some p.1

instance (s : Application) (a : Action) : Decidable (Undisturbed s a) :=
  inferInstanceAs (Decidable (∀ p ∈ s.promised, s.completed a ≠ some p.1))

theorem stopped_of_sound (hs : Sound s) (hrunning : s.heap.running = []) {x : Nat} (hmem : (d, x) ∈ s.requests)
    (hcalls : (s.heap.get d).calls ≠ 0) : x ∈ s.carriedOut := by
  rcases hs.requests d x hmem with hcarried | hparked
  · exact hcarried
  · rcases hs.rest d hcalls with hnone | hwaiting | hstack
    · rw [hnone] at hparked
      cases hparked
    · exact absurd ((hs.parks d x hparked).waiting.symm.trans hwaiting) nofun
    · rw [hrunning] at hstack
      cases hstack

/-- The starts that came during a shutdown came during the one that is under way. -/
structure Waiting (s : Application) : Prop where
  sound : Sound s
  running : s.heap.running = []
  promised : ∀ d r, (d, r) ∈ s.promised → s.shutdownDeferred = some d

theorem waiting_new : Waiting Application.new := ⟨sound_new, rfl, nofun⟩

theorem Waiting.orderly (hs : Waiting s) : Orderly s where
  exclusive := hs.sound.exclusive
  once := fun d => (Nat.le_add_left _ _).trans (hs.sound.single d)
  stopped := fun _ _ hmem hcalls => stopped_of_sound hs.sound hs.running hmem hcalls
  started := fun d r hmem hcalls => absurd (hs.sound.calm d (hs.promised d r hmem)) hcalls

theorem step_waiting {a : Action} (hs : Waiting s) (hstep : step c s a = some t) (hp : Undisturbed s a) : Waiting t := by
  obtain ⟨hsound, hrunning⟩ := step_sound hs.sound hs.running hstep
  refine ⟨hsound, hrunning, fun d r hmem => ?_⟩
  obtain ⟨u, hact, rfl⟩ := Option.map_eq_some_iff.mp hstep
  cases hd : s.completed a with
  | none =>
    obtain ⟨hu, hlater, hidle⟩ := act_spec hs.sound hs.running hact hd
    have hlater' := hlater.trans (settle_spec (c := c) hu hidle).2.1
    rcases hlater'.since d r hmem with hold | hshutdown
    · exact hlater'.shutdown d (hs.promised d r hold)
    · exact hshutdown
  | some e =>
    obtain ⟨_, _, _, _, hsince⟩ := completed_spec hs.sound hs.running hact hd
    rcases hsince d r hmem with hold | hshutdown
    · obtain ⟨hunder, _⟩ := act_completed hact hd
      have heq : e = d := Option.some.inj (hunder.symm.trans (hs.promised d r hold))
      exact absurd (hd.trans (congrArg some heq)) (hp (d, r) hold)
    · exact hshutdown

/-- The deferred of a start that came during a shutdown never fires. -/
theorem undisturbed_of_orderly {a : Action} (hs : Waiting s) (hstep : step c s a = some t) (ht : Orderly t) :
    Undisturbed s a := by
  rintro ⟨d, r⟩ hmem hd
  obtain ⟨hsound, _⟩ := step_sound hs.sound hs.running hstep
  obtain ⟨u, hact, rfl⟩ := Option.map_eq_some_iff.mp hstep
  obtain ⟨_, _, hcalls, hsub, _⟩ := completed_spec hs.sound hs.running hact hd
  have hunclaimed := hsound.unclaimed r (.inr ⟨d, hsub hmem⟩)
  rcases ht.started d r (hsub hmem) hcalls with hstartup | hfired
  · exact hunclaimed.ne_startup hstartup
  · exact hfired hunclaimed.calls

theorem run_sound {as : List Action} (hrun : Run (step c) (fun _ _ => True) Application.new as s) :
    Sound s ∧ s.heap.running = [] :=
  hrun.invariant (I := fun s => Sound s ∧ s.heap.running = []) (fun hs _ hstep => step_sound hs.1 hs.2 hstep)
    ⟨sound_new, rfl⟩

/-- What `stop` leaves is not ready, except where `exit` has been called and is done already. -/
theorem stop_not_ready (c : Subclass) (s : Application) :
    (s.stop c).1.isReady = false ∨ (s.stop c).1.exitCalls = s.exitCalls + 1 := by
  unfold stop
  split
  · case h_1 d hshutdown => exact .inl (by simp [isReady, hshutdown])
  · case h_2 hshutdown =>
    split
    · case h_1 d hstartup => exact .inl (by simp [stopLater, isReady, hstartup])
    · split
      · unfold shutDown
        split
        · exact .inr rfl
        · exact .inr rfl
        · exact .inr rfl
      · case isFalse hready => exact .inl (Bool.eq_false_iff.mpr hready)

/-- In every run the transitions exclude each other, no deferred fires twice, every call and completion
has run all its callbacks when it returns, and the stops of a startup that has ended have been carried
out. What else the lifecycle promises holds exactly when no shutdown completes during which a start came. -/
theorem orderly_iff_undisturbed {as : List Action} (hrun : Run (step c) (fun _ _ => True) Application.new as s) :
    ((s.startupDeferred = none ∨ s.shutdownDeferred = none) ∧ (∀ d, (s.heap.get d).calls ≤ 1) ∧ s.heap.running = [] ∧
      (∀ d x, (d, x) ∈ s.requests → (s.heap.get d).calls ≠ 0 → x ∈ s.carriedOut) ∧
      ((s.stop c).1.isReady = false ∨ (s.stop c).1.exitCalls = s.exitCalls + 1)) ∧
    ((∀ start t, start <+: as → Run (step c) (fun _ _ => True) Application.new start t → Orderly t) ↔
      EachStep (step c) Undisturbed Application.new as) := by
  obtain ⟨hsound, hrunning⟩ := run_sound hrun
  refine ⟨⟨hsound.exclusive, fun d => (Nat.le_add_left _ _).trans (hsound.single d), hrunning, fun _ _ hmem hcalls => ?_,
    stop_not_ready c s⟩, ?_⟩
  · exact stopped_of_sound hsound hrunning hmem hcalls
  · exact Run.forall_prefix_iff (I := Waiting) Waiting.orderly step_waiting undisturbed_of_orderly hrun waiting_new

def exampleProcess : Process := ⟨1, false⟩

/-- Nothing is done at once. -/
def exampleSubclass : Subclass := ⟨fun _ => none, fun _ => none, fun _ => none⟩

def exampleStart : List Action := [.start, .dependenciesDone (.ok ()), .launchDone (.ok [exampleProcess])]

/-- Two stops and a restart come during a startup that ends well, and the second startup fails. -/
def exampleActions : List Action :=
  [.start, .stop, .restart, .stop, .dependenciesDone (.ok ()), .launchDone (.ok [exampleProcess]),
    .processDone exampleProcess, .dependenciesDone (.error ())]

theorem example_orderly : ∃ s, Run (step exampleSubclass) (fun _ _ => True) Application.new exampleActions s ∧
    ∀ start t, start <+: exampleActions → Run (step exampleSubclass) (fun _ _ => True) Application.new start t →
      Orderly t := by
  have hundisturbed : EachStep (step exampleSubclass) Undisturbed Application.new exampleActions := by
    decide
  have hend : (exec (step exampleSubclass) Application.new exampleActions).any (fun _ => true) = true := by
    decide
  obtain ⟨s, hrun, _⟩ := exists_run hend (eachStep_true _ _)
  exact ⟨s, hrun, (orderly_iff_undisturbed hrun).2.mpr hundisturbed⟩

/-- A start comes during a shutdown. When the process has ended nothing starts, and the deferred that
was returned is left. -/
theorem start_lost : ∃ s, Run (step exampleSubclass) (fun _ _ => True) Application.new
      (exampleStart ++ [.stop, .start, .processDone exampleProcess]) s ∧
    s.startupDeferred = none ∧ s.processes = [] ∧ ¬Orderly s := by
  have hend : (exec (step exampleSubclass) Application.new
      (exampleStart ++ [.stop, .start, .processDone exampleProcess])).any
        (fun s => s.startupDeferred = none ∧ s.processes = [] ∧ s.promised = [(1, 2)] ∧ (s.heap.get 1).calls = 1 ∧
          (s.heap.get 2).calls = 0) = true := by
    decide
  obtain ⟨s, hrun, hs⟩ := exists_run hend (eachStep_true _ _)
  obtain ⟨hstartup, hprocesses, hpromised, hfired, hpending⟩ := of_decide_eq_true hs
  refine ⟨s, hrun, hstartup, hprocesses, fun h => ?_⟩
  rcases h.started 1 2 (hpromised ▸ List.mem_cons_self)
      (fun hzero => absurd (hfired.symm.trans hzero) nofun) with hstarted | hcalls
  · exact absurd (hstartup.symm.trans hstarted) nofun
  · exact hcalls hpending

end BitBlinder.Lifecycle
