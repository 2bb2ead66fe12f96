import BitBlinder.BitTorrent.PeerRegistry

/-!
# The count of incomplete connections

`incompletecounter` is raised when a connection is started and lowered when it is
made or fails. Between the two `launch_external_protocol` may raise, and then no
callback lowers it. The peers to be tried are in two lists, and an incoming peer is
decided on by `externally_handshaked_connection_made`.
-/

namespace BitBlinder.BitTorrent.JashEncoder

open Effects

set_option autoImplicit false

variable {config : EncoderConfig} {env : EncoderContext} {s t u : JashEncoder} {k : Nat} {peer : Peer}

/-- The attempts that are counted and not there. -/
def excess (s : JashEncoder) : Int := s.incompletecounter - s.attempts.card

/-- What an exception adds to them. -/
def leak (e : PyError) : Int := if e = .dependencyError then 1 else 0

/-- A state after `s` with `n` more of them. -/
structure Exceeds (config : EncoderConfig) (n : Int) (s t : JashEncoder) : Prop where
  sound : Sound config t
  limit : t.cons ≤ config.limit
  excess : t.excess = s.excess + n
  admissions : t.admissions = s.admissions

theorem Exceeds.refl (hs : Sound config s) (hlimit : s.cons ≤ config.limit) : Exceeds config 0 s s :=
  ⟨hs, hlimit, by omega, rfl⟩

theorem Exceeds.trans {n : Int} (h : Exceeds config 0 s t) (h' : Exceeds config n t u) : Exceeds config n s u where
  sound := h'.sound
  limit := h'.limit
  excess := by
    have h₁ := h.excess
    have h₂ := h'.excess
    omega
  admissions := h'.admissions.trans h.admissions

theorem Exceeds.of_core {n : Int} (h : Exceeds config n s t) (hcore : SameCore t u) : Exceeds config n s u where
  sound := h.sound.of_core hcore
  limit := by
    have hlimit := h.limit
    unfold cons at hlimit ⊢
    rw [hcore.connections, hcore.incompletecounter]
    exact hlimit
  excess := by
    rw [← h.excess]
    unfold JashEncoder.excess
    rw [hcore.attempts, hcore.incompletecounter]
  admissions := hcore.admissions.trans h.admissions

/-! ## One connection -/

/-- BitBlinder is to launch the connections and is not ready. -/
def Unready (config : EncoderConfig) (env : EncoderContext) : Prop := config.useSocks = true ∧ ¬env.ready = true

instance (config : EncoderConfig) (env : EncoderContext) : Decidable (Unready config env) :=
  inferInstanceAs (Decidable (_ ∧ _))

/-- Whether a connection to the peer is started, as things are. -/
def starts (config : EncoderConfig) (env : EncoderContext) (s : JashEncoder) (peer : Peer) : Bool :=
  match s.startCheck config env peer with
  | .ok (some _) => true
  | _ => false

/-- Whether a round ends at the peer when BitBlinder is not ready. -/
def stops (config : EncoderConfig) (env : EncoderContext) (s : JashEncoder) (peer : Peer) : Bool :=
  match s.startCheck config env peer with
  | .ok none => false
  | _ => true

theorem startCheck_limit {encrypted : Option Bool} (h : s.startCheck config env peer = .ok (some encrypted)) :
    s.cons < config.limit := by
  unfold startCheck at h
  split at h
  · cases h
  · split at h
    · cases h
    · case isFalse hgo => omega

@[simp] theorem outcome_raise {α : Type} {e : PyError} {Q : α → JashEncoder → Prop} {E : PyError → JashEncoder → Prop} :
    Outcome (raise e : Jash α) s Q E ↔ E e { s with raised := s.raised ++ [e] } := by
  simp only [raise, outcome_bind, outcome_modify, outcome_throw]

theorem startConnection_exceeds (hs : Sound config s) (hlimit : s.cons ≤ config.limit) (peer : Peer) :
    Outcome (startConnection config env peer) s (fun _ => Exceeds config 0 s) fun e => Exceeds config (leak e) s := by
  have hrest : Outcome (startConnection config env peer) s
      (fun _ t => t.cons ≤ config.limit ∧ t.excess = s.excess + 0 ∧ t.admissions = s.admissions)
      fun e t => t.cons ≤ config.limit ∧ t.excess = s.excess + leak e ∧ t.admissions = s.admissions := by
    simp only [startConnection, outcome_bind, outcome_get]
    split
    · case h_1 e he =>
      obtain rfl := startCheck_error he
      rw [outcome_raise]
      exact ⟨hlimit, by simp [excess, leak], rfl⟩
    · exact ⟨hlimit, by omega, rfl⟩
    · case h_3 encrypted he =>
      have hcons := startCheck_limit he
      simp only [outcome_bind, outcome_modify, outcome_ite, outcome_raise]
      split
      · refine ⟨?_, ?_, trivial⟩
        · unfold cons at hcons ⊢
          dsimp only
          omega
        · simp only [excess, leak, if_pos]
          omega
      · refine ⟨?_, ?_, rfl⟩
        · unfold cons at hcons ⊢
          dsimp only [addAttempt]
          omega
        · simp only [excess, addAttempt, Finset.card_insert_of_notMem hs.count_fresh.2.1]
          omega
  refine ((hs.startConnection peer).and hrest).mono ?_ ?_
  · rintro _ t ⟨hsound, hcons, hexcess, hadmissions⟩
    exact ⟨hsound, hcons, hexcess, hadmissions⟩
  · rintro e t ⟨hsound, hcons, hexcess, hadmissions⟩
    exact ⟨hsound, hcons, hexcess, hadmissions⟩

theorem startConnection_ready (hready : ¬Unready config env) (peer : Peer) :
    Outcome (startConnection config env peer) s (fun _ _ => True) fun e _ => e ≠ .dependencyError := by
  simp only [startConnection, outcome_bind, outcome_get]
  split
  · case h_1 e he =>
    rw [outcome_raise, startCheck_error he]
    simp
  · trivial
  · simp only [outcome_bind, outcome_modify, outcome_ite]
    split
    · case isTrue hunready => exact absurd hunready hready
    · trivial

theorem startConnection_unready (hunready : Unready config env) (peer : Peer) :
    Outcome (startConnection config env peer) s (fun _ t => t = s ∧ stops config env s peer = false) fun e _ =>
      stops config env s peer = true ∧ (e = .dependencyError ↔ starts config env s peer = true) := by
  simp only [startConnection, outcome_bind, outcome_get]
  split
  · case h_1 e he =>
    rw [outcome_raise, startCheck_error he]
    exact ⟨by simp [stops, he], iff_of_false (by simp) (by simp [starts, he])⟩
  · case h_2 he =>
    exact ⟨rfl, by simp [stops, he]⟩
  · case h_3 encrypted he =>
    simp only [outcome_bind, outcome_modify, outcome_ite]
    split
    · rw [outcome_raise]
      exact ⟨by simp [stops, he], iff_of_true rfl (by simp [starts, he])⟩
    · case isFalse hready => exact absurd hunready hready

/-! ## A round of the timer -/

def room (config : EncoderConfig) (s : JashEncoder) : Bool :=
  s.cons < config.limit && s.cons < config.maxInitiate && s.incompletecounter < config.maxHalfOpen

/-- The peers of a list that a round comes to if it starts none of them. -/
def candidates (config : EncoderConfig) (s : JashEncoder) (peers : List Peer) (numOpened : Nat) : List Peer :=
  if s.room config then peers.take (config.maxInitiatePerSecond - numOpened) else []

/-- The checks come out the same. -/
structure SameChecks (config : EncoderConfig) (env : EncoderContext) (s t : JashEncoder) : Prop where
  start : ∀ peer, t.startCheck config env peer = s.startCheck config env peer
  room : t.room config = s.room config

theorem SameChecks.refl (s : JashEncoder) : SameChecks config env s s := ⟨fun _ => rfl, rfl⟩

theorem SameChecks.trans (h : SameChecks config env s t) (h' : SameChecks config env t u) :
    SameChecks config env s u :=
  ⟨fun peer => (h'.start peer).trans (h.start peer), h'.room.trans h.room⟩

theorem SameChecks.stops (h : SameChecks config env s t) : stops config env t = stops config env s := by
  funext peer
  simp only [JashEncoder.stops, h.start]

theorem SameChecks.starts (h : SameChecks config env s t) : starts config env t = starts config env s := by
  funext peer
  simp only [JashEncoder.starts, h.start]

theorem SameChecks.candidates (h : SameChecks config env s t) (peers : List Peer) (numOpened : Nat) :
    candidates config t peers numOpened = candidates config s peers numOpened := by
  simp only [JashEncoder.candidates, h.room]

theorem shouldConnect_eq (numOpened : Nat) : s.shouldConnectToNewPeer config numOpened =
    (s.room config && decide (numOpened < config.maxInitiatePerSecond)) := rfl

section Drain
variable {setQueue : List Peer → JashEncoder → JashEncoder} {tried : Peer → JashEncoder → JashEncoder}

theorem drain_exceeds (hset : ∀ peers s, SameCore s (setQueue peers s)) (htried : ∀ peer s, SameCore s (tried peer s))
    (peers : List Peer) (numOpened : Nat) (hs : Sound config s) (hlimit : s.cons ≤ config.limit) :
    Outcome (drain config env setQueue tried peers numOpened) s (fun _ => Exceeds config 0 s) fun e =>
      Exceeds config (leak e) s := by
  induction peers generalizing s numOpened with
  | nil => exact .refl hs hlimit
  | cons peer peers ih =>
    simp only [drain, outcome_bind, outcome_get, outcome_ite, outcome_modify, outcome_pure]
    split
    · have hqueue := (Exceeds.refl hs hlimit).of_core (hset peers s)
      refine (startConnection_exceeds hqueue.sound hqueue.limit peer).mono ?_ fun e t ht => hqueue.trans ht
      intro _ t ht
      have hnext := (hqueue.trans ht).of_core (htried peer t)
      refine (ih (numOpened + 1) hnext.sound hnext.limit).mono ?_ ?_
      · exact fun _ u hu => hnext.trans hu
      · exact fun e u hu => hnext.trans hu
    · exact .refl hs hlimit

theorem drain_ready (hready : ¬Unready config env) (peers : List Peer) (numOpened : Nat) :
    Outcome (drain config env setQueue tried peers numOpened) s (fun _ _ => True) fun e _ =>
      e ≠ .dependencyError := by
  induction peers generalizing s numOpened with
  | nil => trivial
  | cons peer peers ih =>
    simp only [drain, outcome_bind, outcome_get, outcome_ite, outcome_modify, outcome_pure]
    split
    · exact (startConnection_ready hready peer).mono (fun _ t _ => ih (numOpened + 1)) fun _ _ h => h
    · trivial

/-- While BitBlinder is not ready, a round goes on to the first peer at which it ends. -/
theorem drain_unready (setQueue : List Peer → JashEncoder → JashEncoder) (tried : Peer → JashEncoder → JashEncoder)
    (hunready : Unready config env) (hset : ∀ peers s, SameChecks config env s (setQueue peers s))
    (htried : ∀ peer s, SameChecks config env s (tried peer s)) (peers : List Peer) (numOpened : Nat) :
    Outcome (drain config env setQueue tried peers numOpened) s
      (fun n t => SameChecks config env s t ∧ n = numOpened + (candidates config s peers numOpened).length ∧
        (candidates config s peers numOpened).find? (stops config env s) = none)
      fun e _ => ∃ peer, (candidates config s peers numOpened).find? (stops config env s) = some peer ∧
        (e = .dependencyError ↔ starts config env s peer = true) := by
  induction peers generalizing s numOpened with
  | nil => exact ⟨.refl s, by simp [candidates], by simp [candidates]⟩
  | cons peer peers ih =>
    simp only [drain, outcome_bind, outcome_get, outcome_ite, outcome_modify, outcome_pure]
    split
    · case isTrue hgo =>
      obtain ⟨hroom, hopened⟩ : s.room config = true ∧ decide (numOpened < config.maxInitiatePerSecond) = true :=
        Bool.and_eq_true_iff.mp hgo
      have hopened := of_decide_eq_true hopened
      have hcandidates : candidates config s (peer :: peers) numOpened =
          peer :: candidates config s peers (numOpened + 1) := by
        obtain ⟨m, hm⟩ : ∃ m, config.maxInitiatePerSecond - numOpened = m + 1 := ⟨_, (Nat.succ_pred (by omega)).symm⟩
        have hm' : config.maxInitiatePerSecond - (numOpened + 1) = m := by omega
        simp only [candidates, hroom, if_true, hm, hm', List.take_succ_cons]
      rw [hcandidates]
      have hqueue := hset peers s
      refine (startConnection_unready hunready peer).mono ?_ ?_
      · rintro _ _ ⟨rfl, hgoes⟩
        have hnext := hqueue.trans (htried peer (setQueue peers s))
        rw [hqueue.stops] at hgoes
        rw [List.find?_cons_of_neg (by simp [hgoes])]
        refine (ih (numOpened + 1)).mono ?_ ?_
        · rintro n t ⟨hsame, hn, hfind⟩
          rw [hnext.candidates] at hn hfind
          rw [hnext.stops] at hfind
          refine ⟨hnext.trans hsame, ?_, hfind⟩
          rw [hn, List.length_cons]
          omega
        · rintro e _ ⟨p, hfind, hiff⟩
          rw [hnext.candidates, hnext.stops] at hfind
          rw [hnext.starts] at hiff
          exact ⟨p, hfind, hiff⟩
      · rintro e _ ⟨hstop, hiff⟩
        rw [hqueue.stops] at hstop
        rw [hqueue.starts] at hiff
        exact ⟨peer, List.find?_cons_of_pos hstop, hiff⟩
    · case isFalse hgo =>
      have hnone : candidates config s (peer :: peers) numOpened = [] := by
        unfold candidates
        split
        · case isTrue hroom =>
          rw [shouldConnect_eq, hroom, Bool.true_and, decide_eq_true_eq, Nat.not_lt] at hgo
          rw [Nat.sub_eq_zero_of_le hgo, List.take_zero]
        · rfl
      rw [hnone]
      exact ⟨.refl s, rfl, rfl⟩

end Drain

/-- A round comes to a peer that it would start, and BitBlinder is not ready for it. -/
def Leaks (config : EncoderConfig) (env : EncoderContext) (s : JashEncoder) : Prop :=
  Unready config env ∧
    ((candidates config s s.queue 0).find? (stops config env s)).any (starts config env s) = true

instance (config : EncoderConfig) (env : EncoderContext) (s : JashEncoder) : Decidable (Leaks config env s) :=
  inferInstanceAs (Decidable (_ ∧ _))

theorem candidates_append (peers peers' : List Peer) : candidates config s (peers ++ peers') 0 =
    candidates config s peers 0 ++ candidates config s peers' (candidates config s peers 0).length := by
  unfold candidates
  split
  · rw [Nat.sub_zero, List.take_append, List.length_take]
    congr 2
    omega
  · rfl

/-- Starting a connection leaves the lists of the peers to be tried alone. -/
structure SameLists (s t : JashEncoder) : Prop where
  neverConnected : t.neverConnected = s.neverConnected
  toConnect : t.toConnect = s.toConnect
  prevConnected : t.prevConnected = s.prevConnected
  queues : t.queues = s.queues

instance : IsPreorder JashEncoder SameLists where
  refl _ := ⟨rfl, rfl, rfl, rfl⟩
  trans _ _ _ h h' := ⟨h'.neverConnected.trans h.neverConnected, h'.toConnect.trans h.toConnect,
    h'.prevConnected.trans h.prevConnected, h'.queues.trans h.queues⟩

theorem startConnection_lists (peer : Peer) : Moves SameLists (startConnection config env peer) := by
  refine Moves.bind .get fun s => ?_
  split
  · exact Moves.bind (.modify fun s => ⟨rfl, rfl, rfl, rfl⟩) fun _ => .throw _
  · exact .pure ()
  · refine Moves.bind (.modify fun s => ⟨rfl, rfl, rfl, rfl⟩) fun _ => .ite (fun _ => ?_) fun _ => ?_
    · exact Moves.bind (.modify fun s => ⟨rfl, rfl, rfl, rfl⟩) fun _ => .throw _
    · exact .modify fun s => ⟨rfl, rfl, rfl, rfl⟩

/-- What a round does to the lists of peers. -/
structure Drained (s t : JashEncoder) : Prop where
  tried : (t.prevConnected ++ t.neverConnected).Sublist (s.prevConnected ++ s.neverConnected)
  queue : t.queue.Sublist s.queue
  queues : t.queues = s.queues

instance : IsPreorder JashEncoder Drained where
  refl _ := ⟨.refl _, .refl _, rfl⟩
  trans _ _ _ h h' := ⟨h'.tried.trans h.tried, h'.queue.trans h.queue, h'.queues.trans h.queues⟩

theorem SameLists.drained (h : SameLists s t) : Drained s t := by
  refine ⟨?_, ?_, h.queues⟩
  · rw [h.prevConnected, h.neverConnected]
  · unfold queue
    rw [h.neverConnected, h.toConnect]

/-- The peers that were never tried go to the end of those that were. -/
theorem drainNever_drained (peers : List Peer) (numOpened : Nat) (hpeers : s.neverConnected = peers) :
    Outcome (drain config env setNeverConnected addPrevConnected peers numOpened) s
      (fun _ t => Drained s t ∧ t.toConnect = s.toConnect) fun _ t => Drained s t := by
  induction peers generalizing s numOpened with
  | nil => exact ⟨refl_of Drained s, rfl⟩
  | cons peer peers ih =>
    simp only [drain, outcome_bind, outcome_get, outcome_ite, outcome_modify, outcome_pure]
    split
    · have hset : Drained s (setNeverConnected peers s) := by
        refine ⟨?_, ?_, rfl⟩
        · simp [setNeverConnected, hpeers]
        · simp [queue, setNeverConnected, hpeers]
      refine (startConnection_lists peer (setNeverConnected peers s)).mono ?_ ?_
      · intro _ t ht
        have hnever : t.neverConnected = peers := ht.neverConnected
        have hprev : t.prevConnected = s.prevConnected := ht.prevConnected
        have hto : t.toConnect = s.toConnect := ht.toConnect
        have hnext : Drained s (addPrevConnected peer t) := by
          refine ⟨?_, ?_, ht.queues⟩
          · simp [addPrevConnected, hnever, hprev, hpeers]
          · simp [queue, addPrevConnected, hnever, hto, hpeers]
        refine (ih (s := addPrevConnected peer t) (numOpened + 1) hnever).mono ?_ ?_
        · exact fun _ u hu => ⟨trans_of Drained hnext hu.1, hu.2.trans hto⟩
        · exact fun _ u hu => trans_of Drained hnext hu
      · exact fun _ t ht => trans_of Drained hset ht.drained
    · exact ⟨refl_of Drained s, trivial⟩

theorem drainAgain_drained (peers : List Peer) (numOpened : Nat) (hpeers : s.toConnect = peers) :
    Outcome (drain config env setToConnect (fun _ s => s) peers numOpened) s (fun _ t => Drained s t) fun _ t =>
      Drained s t := by
  induction peers generalizing s numOpened with
  | nil => exact refl_of Drained s
  | cons peer peers ih =>
    simp only [drain, outcome_bind, outcome_get, outcome_ite, outcome_modify, outcome_pure]
    split
    · have hset : Drained s (setToConnect peers s) := by
        refine ⟨.refl _, ?_, rfl⟩
        simp [queue, setToConnect, hpeers]
      refine (startConnection_lists peer (setToConnect peers s)).mono ?_ ?_
      · intro _ t ht
        have hto : t.toConnect = peers := ht.toConnect
        refine (ih (numOpened + 1) hto).mono ?_ ?_
        · exact fun _ u hu => trans_of Drained (trans_of Drained hset ht.drained) hu
        · exact fun _ u hu => trans_of Drained (trans_of Drained hset ht.drained) hu
      · exact fun _ t ht => trans_of Drained hset ht.drained
    · exact refl_of Drained s

theorem drainQueues_drained : Outcome (drainQueues config env) s (fun _ => Drained s) fun _ => Drained s := by
  simp only [drainQueues, outcome_bind, outcome_get, outcome_pure]
  refine (drainNever_drained s.neverConnected 0 rfl).mono (fun n t ht => ?_) fun _ _ h => h
  refine (drainAgain_drained t.toConnect n rfl).mono ?_ ?_
  · exact fun _ u hu => trans_of Drained ht.1 hu
  · exact fun _ u hu => trans_of Drained ht.1 hu

theorem drainQueues_exceeds (hs : Sound config s) (hlimit : s.cons ≤ config.limit) :
    Outcome (drainQueues config env) s (fun _ => Exceeds config 0 s) fun e => Exceeds config (leak e) s := by
  have hset : ∀ peers s, SameCore s (setNeverConnected peers s) := fun _ _ => ⟨rfl, rfl, rfl, rfl, rfl, rfl, rfl, rfl⟩
  have hagain : ∀ peers s, SameCore s (setToConnect peers s) := fun _ _ => ⟨rfl, rfl, rfl, rfl, rfl, rfl, rfl, rfl⟩
  have htried : ∀ peer s, SameCore s (addPrevConnected peer s) := fun _ _ => ⟨rfl, rfl, rfl, rfl, rfl, rfl, rfl, rfl⟩
  simp only [drainQueues, outcome_bind, outcome_get, outcome_pure]
  refine (drain_exceeds hset htried s.neverConnected 0 hs hlimit).mono (fun n t ht => ?_) fun _ _ h => h
  refine (drain_exceeds hagain (fun _ s => .refl s) t.toConnect n ht.sound ht.limit).mono ?_ ?_
  · exact fun _ u hu => ht.trans hu
  · exact fun _ u hu => ht.trans hu

theorem drainQueues_leaks : Outcome (drainQueues config env) s (fun _ _ => ¬Leaks config env s) fun e _ =>
    e = .dependencyError ↔ Leaks config env s := by
  simp only [drainQueues, outcome_bind, outcome_get, outcome_pure]
  by_cases hunready : Unready config env
  · have hfirst := drain_unready (s := s) setNeverConnected addPrevConnected hunready
      (fun _ _ => ⟨fun _ => rfl, rfl⟩) (fun _ _ => ⟨fun _ => rfl, rfl⟩) s.neverConnected 0
    have hfind : (candidates config s s.queue 0).find? (stops config env s) =
        ((candidates config s s.neverConnected 0).find? (stops config env s)).or
          ((candidates config s s.toConnect (candidates config s s.neverConnected 0).length).find?
            (stops config env s)) := by
      rw [queue, candidates_append, List.find?_append]
    refine ((drainNever_drained s.neverConnected 0 rfl).and hfirst).mono ?_ ?_
    · rintro n t ⟨⟨_, hto⟩, hsame, hn, hnone⟩
      rw [Nat.zero_add] at hn
      rw [hnone, Option.none_or, ← hn] at hfind
      have hsecond := drain_unready (s := t) setToConnect (fun _ s => s) hunready
        (fun _ _ => ⟨fun _ => rfl, rfl⟩) (fun _ s => .refl s) t.toConnect n
      rw [hto, hsame.candidates, hsame.stops, hsame.starts, ← hfind] at hsecond
      rw [hto]
      refine hsecond.mono ?_ ?_
      · rintro _ u ⟨_, _, hnone⟩ ⟨_, hleaks⟩
        rw [hnone] at hleaks
        cases hleaks
      · rintro e u ⟨peer, hpeer, hiff⟩
        simp only [Leaks, hunready, hpeer, Option.any_some, true_and]
        exact hiff
    · rintro e t ⟨_, peer, hpeer, hiff⟩
      rw [hpeer, Option.some_or] at hfind
      simp only [Leaks, hunready, hfind, Option.any_some, true_and]
      exact hiff
  · have hnone : ¬Leaks config env s := fun h => hunready h.1
    refine (drain_ready hunready s.neverConnected 0).mono (fun n t _ => ?_) fun e t he => iff_of_false he hnone
    exact (drain_ready hunready t.toConnect n).mono (fun _ _ _ => hnone) fun e u he => iff_of_false he hnone

/-- When the exception that leaks is the outcome exactly in one case. -/
theorem exceeds_of_leak {P : Prop} [Decidable P] {x : Jash Unit}
    (hexceeds : Outcome x s (fun _ => Exceeds config 0 s) fun e => Exceeds config (leak e) s)
    (hleak : Outcome x s (fun _ _ => ¬P) fun e _ => e = .dependencyError ↔ P) :
    Outcome x s (fun _ => Exceeds config (if P then 1 else 0) s) fun _ => Exceeds config (if P then 1 else 0) s := by
  refine (hexceeds.and hleak).mono ?_ ?_
  · rintro _ t ⟨ht, hp⟩
    rw [if_neg hp]
    exact ht
  · rintro e t ⟨ht, hp⟩
    unfold leak at ht
    simp only [hp] at ht
    exact ht

theorem startConnection_leak : Outcome (startConnection config env peer) s
    (fun _ _ => ¬(Unready config env ∧ starts config env s peer = true)) fun e _ =>
      e = .dependencyError ↔ Unready config env ∧ starts config env s peer = true := by
  by_cases hunready : Unready config env
  · simp only [hunready, true_and]
    refine (startConnection_unready hunready peer).mono (fun _ t ht hstarts => ?_) fun _ _ h => h.2
    have hstops : stops config env s peer = true := by
      unfold starts at hstarts
      unfold stops
      split at hstarts
      · case h_1 he => rw [he]
      · cases hstarts
    exact absurd (hstops.symm.trans ht.2) nofun
  · have hnone : ¬(Unready config env ∧ starts config env s peer = true) := fun h => hunready h.1
    exact (startConnection_ready hunready peer).mono (fun _ _ _ => hnone) fun _ _ he => iff_of_false he hnone

theorem not_stops_of_paused (hpaused : s.paused = true) (peer : Peer) : stops config env s peer = false := by
  unfold stops startCheck
  by_cases hdone : s.done = true
  · simp [hdone]
  · simp [hdone, hpaused]

theorem not_leaks_of_paused (hpaused : s.paused = true) : ¬Leaks config env s := by
  rintro ⟨_, hleaks⟩
  have hnone : (candidates config s s.queue 0).find? (stops config env s) = none :=
    List.find?_eq_none.mpr fun peer _ => by simp [not_stops_of_paused hpaused]
  rw [hnone] at hleaks
  cases hleaks

theorem startConnectionFromQueue_exceeds (env : EncoderContext) (hs : Sound config s) (hlimit : s.cons ≤ config.limit) :
    Exceeds config (if Leaks config env s then 1 else 0) s (finish (startConnectionFromQueue config env) s) := by
  have hcore : ∀ {n : Int} {t : JashEncoder}, Exceeds config n s t →
      Exceeds config n s ((t.cutPrevConnected).cyclePeers env.now) := by
    intro n t ht
    exact (ht.of_core sameCore_cutPrevConnected).of_core (sameCore_cyclePeers env.now)
  refine outcome_finish.mp ?_
  simp only [startConnectionFromQueue, outcome_rescue, outcome_bind, outcome_get, outcome_when, outcome_modify,
    outcome_pure]
  by_cases hpaused : s.paused = true
  · rw [if_neg (not_not_intro hpaused), if_neg (not_leaks_of_paused hpaused)]
    exact hcore (.refl hs hlimit)
  · rw [if_pos hpaused]
    exact (exceeds_of_leak (drainQueues_exceeds hs hlimit) drainQueues_leaks).mono (fun _ _ ht => hcore ht)
      fun _ _ ht => ht

/-! ## The lists of peers -/

/-- No peer is in the queue twice, and one that was never tried is not among those that were. -/
structure Distinct (s : JashEncoder) : Prop where
  tried : (s.prevConnected ++ s.neverConnected).Nodup
  queue : s.queue.Nodup

theorem Distinct.drained (h : Distinct s) (hd : Drained s t) : Distinct t :=
  ⟨h.tried.sublist hd.tried, h.queue.sublist hd.queue⟩

theorem Distinct.cutPrevConnected (h : Distinct s) : Distinct s.cutPrevConnected := by
  have hdrop := (List.drop_sublist (s.prevConnected.length - 300) s.prevConnected).append_right s.neverConnected
  constructor
  · simpa only [JashEncoder.cutPrevConnected] using h.tried.sublist hdrop
  · simpa only [JashEncoder.queue, JashEncoder.cutPrevConnected] using h.queue

theorem Distinct.cyclePeers (h : Distinct s) (now : Rat) : Distinct (s.cyclePeers now) := by
  unfold JashEncoder.cyclePeers
  split
  · exact ⟨h.tried, (List.perm_append_comm.nodup_iff).mp h.tried⟩
  · exact h

theorem cyclePeers_queues (now : Rat) : (s.cyclePeers now).queues = s.queues := by
  unfold cyclePeers
  split <;> rfl

/-- What holds of every state to which the queue is drained, and stays so, holds after a round. -/
theorem startConnectionFromQueue_of_drained {I : JashEncoder → Prop} (hdrained : ∀ t, Drained s t → I t)
    (hround : ∀ t, I t → I ((t.cutPrevConnected).cyclePeers env.now)) :
    I (finish (startConnectionFromQueue config env) s) := by
  refine outcome_finish.mp ?_
  simp only [startConnectionFromQueue, outcome_rescue, outcome_bind, outcome_get, outcome_when, outcome_modify,
    outcome_pure]
  split
  · exact drainQueues_drained.mono (fun _ t ht => hround t (hdrained t ht)) fun _ t ht => hdrained t ht
  · exact hround s (hdrained s (refl_of Drained s))

theorem startConnectionFromQueue_distinct (h : Distinct s) :
    Distinct (finish (startConnectionFromQueue config env) s) :=
  startConnectionFromQueue_of_drained (fun _ ht => h.drained ht) fun _ ht => ht.cutPrevConnected.cyclePeers env.now

theorem startConnectionFromQueue_queues : (finish (startConnectionFromQueue config env) s).queues = s.queues := by
  apply startConnectionFromQueue_of_drained (I := fun t => t.queues = s.queues)
  · exact fun _ ht => ht.queues
  · intro t ht
    rw [cyclePeers_queues, ← ht]
    simp only [cutPrevConnected]

/-- The peers of a list that are added to those that were never tried. -/
def newPeers (s : JashEncoder) (peers : List Peer) : List Peer :=
  peers.filter fun peer => peer ∉ s.toConnect ∧ peer ∉ s.prevConnected

theorem addPeers_prevConnected (peers : List Peer) : (s.addPeers peers).prevConnected = s.prevConnected := by
  induction peers generalizing s with
  | nil => rfl
  | cons peer peers ih =>
    refine ih.trans ?_
    unfold addPeer
    split
    · rfl
    · split <;> rfl

theorem addPeers_neverConnected (peers : List Peer) :
    (s.addPeers peers).neverConnected = s.neverConnected ++ s.newPeers peers := by
  induction peers generalizing s with
  | nil => exact (List.append_nil _).symm
  | cons peer peers ih =>
    refine ih.trans ?_
    unfold addPeer newPeers
    split
    · case isTrue hto => simp [hto]
    · case isFalse hto =>
      split
      · case isTrue hprev =>
        have hfilter : peers.filter (fun q => q ∉ s.toConnect ++ [peer] ∧ q ∉ s.prevConnected) =
            peers.filter (fun q => q ∉ s.toConnect ∧ q ∉ s.prevConnected) := by
          apply List.filter_congr
          intro q _
          have hq : q ∉ s.prevConnected → q ≠ peer := fun hq heq => hq (heq ▸ hprev)
          simp only [List.mem_append, List.mem_singleton, decide_eq_decide]
          tauto
        refine (congrArg (s.neverConnected ++ ·) hfilter).trans ?_
        rw [List.filter_cons_of_neg (by simp [hprev])]
      · case isFalse hprev => simp [hto, hprev]

theorem addPeers_toConnect (peers : List Peer) (h : s.toConnect.Nodup) : (s.addPeers peers).toConnect.Nodup ∧
    ∀ peer ∈ (s.addPeers peers).toConnect, peer ∈ s.toConnect ∨ peer ∈ s.prevConnected := by
  induction peers generalizing s with
  | nil => exact ⟨h, fun _ => .inl⟩
  | cons peer peers ih =>
    have hpeer : (s.addPeer peer).toConnect.Nodup ∧ (s.addPeer peer).prevConnected = s.prevConnected ∧
        ∀ q ∈ (s.addPeer peer).toConnect, q ∈ s.toConnect ∨ q ∈ s.prevConnected := by
      unfold addPeer
      split
      · exact ⟨h, rfl, fun _ => .inl⟩
      · case isFalse hto =>
        split
        · case isTrue hprev =>
          refine ⟨h.append (List.nodup_singleton peer) (by simpa using hto), rfl, ?_⟩
          intro q hq
          rcases List.mem_append.mp hq with hq | hq
          · exact .inl hq
          · exact .inr (List.mem_singleton.mp hq ▸ hprev)
        · exact ⟨h, rfl, fun _ => .inl⟩
    obtain ⟨hnodup, hprev, hmem⟩ := hpeer
    obtain ⟨hnodup', hmem'⟩ := ih hnodup
    refine ⟨hnodup', fun q hq => ?_⟩
    rcases hmem' q hq with hq | hq
    · exact hmem q hq
    · exact .inr (hprev ▸ hq)

/-- The peers that are added are waiting already, or are given twice, exactly if some peer is then in
the queue twice. -/
theorem Distinct.addPeers_iff (h : Distinct s) (peers : List Peer) :
    (s.addPeers peers).queue.Nodup ↔ (s.neverConnected ++ s.newPeers peers).Nodup := by
  obtain ⟨_, hto, hdisjoint⟩ := List.nodup_append'.mp h.queue
  obtain ⟨_, _, htried⟩ := List.nodup_append'.mp h.tried
  obtain ⟨hto', hmem⟩ := addPeers_toConnect peers hto
  unfold JashEncoder.queue
  rw [addPeers_neverConnected]
  refine ⟨fun hqueue => (List.nodup_append'.mp hqueue).1, fun hnever => ?_⟩
  refine List.nodup_append'.mpr ⟨hnever, hto', fun q hq hq' => ?_⟩
  rcases List.mem_append.mp hq with hq | hq
  · rcases hmem q hq' with hq' | hq'
    · exact hdisjoint hq hq'
    · exact htried hq' hq
  · obtain ⟨_, hnew⟩ := List.mem_filter.mp hq
    obtain ⟨hnto, hnprev⟩ := of_decide_eq_true hnew
    rcases hmem q hq' with hq' | hq'
    · exact hnto hq'
    · exact hnprev hq'

theorem Distinct.addPeers (h : Distinct s) {peers : List Peer} (hnew : (s.neverConnected ++ s.newPeers peers).Nodup) :
    Distinct (s.addPeers peers) := by
  obtain ⟨hprev, _, htried⟩ := List.nodup_append'.mp h.tried
  refine ⟨?_, (h.addPeers_iff peers).mpr hnew⟩
  rw [addPeers_prevConnected, addPeers_neverConnected]
  refine List.nodup_append'.mpr ⟨hprev, hnew, fun q hq hq' => ?_⟩
  rcases List.mem_append.mp hq' with hq' | hq'
  · exact htried hq hq'
  · exact (of_decide_eq_true (List.mem_filter.mp hq').2).2 hq

/-! ## Connections that end -/

/-- Nothing is started, and connections are only taken away. -/
structure Calm (s t : JashEncoder) : Prop where
  incompletecounter : t.incompletecounter = s.incompletecounter
  attempts : t.attempts = s.attempts
  connections : t.connections ⊆ s.connections
  admissions : t.admissions = s.admissions
  lists : SameLists s t

instance : IsPreorder JashEncoder Calm where
  refl _ := ⟨rfl, rfl, Finset.Subset.refl _, rfl, rfl, rfl, rfl, rfl⟩
  trans _ _ _ h h' := ⟨h'.incompletecounter.trans h.incompletecounter, h'.attempts.trans h.attempts,
    Finset.Subset.trans h'.connections h.connections, h'.admissions.trans h.admissions, trans_of SameLists h.lists h'.lists⟩

theorem calm_update (k : Nat) (f : BTProtocol → BTProtocol) : Moves Calm (modify (update k f) : Jash PUnit) :=
  .modify fun _ => ⟨rfl, rfl, Finset.Subset.refl _, rfl, rfl, rfl, rfl, rfl⟩

theorem calm_raise {α : Type} (e : PyError) : Moves Calm (raise e : Jash α) :=
  Moves.bind (.modify fun _ => ⟨rfl, rfl, Finset.Subset.refl _, rfl, rfl, rfl, rfl, rfl⟩) fun _ => .throw e

theorem calm_sever (k : Nat) : Moves Calm (sever k) := by
  refine Moves.bind (calm_update k _) fun _ => Moves.bind .get fun s => .when fun _ => ?_
  refine Moves.bind (.modify fun _ => ⟨rfl, rfl, Finset.erase_subset k _, rfl, rfl, rfl, rfl, rfl⟩) fun _ => ?_
  refine .when fun _ => Moves.bind .get fun s => .ite (fun _ => ?_) fun _ => calm_raise .keyError
  exact .modify fun _ => ⟨rfl, rfl, Finset.Subset.refl _, rfl, rfl, rfl, rfl, rfl⟩

theorem calm_close (k : Nat) : Moves Calm (close k) :=
  Moves.bind .get fun _ => .when fun _ => Moves.bind (calm_update k _) fun _ => calm_sever k

theorem calm_closeEach (ks : List Nat) : Moves Calm (closeEach ks) := by
  induction ks with
  | nil => exact .pure ()
  | cons k ks ih => exact Moves.bind (calm_close k) fun _ => ih

theorem calm_readPeerId (k : Nat) (id : List UInt8) (order : List Nat) : Moves Calm (readPeerId config k id order) := by
  refine Moves.bind .get fun s => .ite (fun _ => calm_close k) fun _ => .ite (fun _ => calm_close k) fun _ => ?_
  refine Moves.bind (calm_update k _) fun _ => Moves.bind ?_ fun complete => ?_
  · exact Moves.bind .get fun s => .ite (fun _ => .pure false) fun _ =>
      Moves.bind (calm_closeEach _) fun _ => .pure _
  · refine Moves.bind (calm_update k _) fun _ => .ite (fun _ => ?_) fun _ => calm_close k
    refine Moves.bind (.modify fun _ => ?_) fun _ => calm_update k _
    exact ⟨rfl, rfl, Finset.Subset.refl _, rfl, rfl, rfl, rfl, rfl⟩

theorem calm_write (k : Nat) : Moves Calm (write k) :=
  Moves.bind .get fun _ => .when fun _ => calm_raise .keyError

theorem calm_closeAll (order : List Nat) : Moves Calm (closeAll order) := by
  refine Moves.bind (.modify fun _ => ⟨rfl, rfl, Finset.Subset.refl _, rfl, rfl, rfl, rfl, rfl⟩) fun _ => ?_
  refine Moves.bind (calm_closeEach order) fun _ => ?_
  exact .modify fun _ => ⟨rfl, rfl, Finset.Subset.refl _, rfl, rfl, rfl, rfl, rfl⟩

theorem calm_severed (k : Nat) (s : JashEncoder) : Calm s (s.severed k) := by
  unfold severed
  dsimp only
  split
  · exact ⟨rfl, rfl, Finset.erase_subset k _, rfl, rfl, rfl, rfl, rfl⟩
  · exact ⟨rfl, rfl, Finset.Subset.refl _, rfl, rfl, rfl, rfl, rfl⟩

theorem calm_cut (k : Nat) (s : JashEncoder) : Calm s (s.cut k) :=
  ⟨rfl, rfl, Finset.Subset.refl _, rfl, rfl, rfl, rfl, rfl⟩

theorem calm_released (k : Nat) (s : JashEncoder) : Calm s (s.released k) := by
  unfold released
  split
  · exact trans_of Calm (calm_cut k s) (calm_severed k (s.cut k))
  · exact calm_cut k s

theorem Calm.exceeds (h : Calm s t) (ht : Sound config t) (hlimit : s.cons ≤ config.limit) : Exceeds config 0 s t where
  sound := ht
  limit := by
    have hcard := Finset.card_le_card h.connections
    unfold cons at hlimit ⊢
    rw [h.incompletecounter]
    omega
  excess := by
    unfold excess
    rw [h.incompletecounter, h.attempts]
    omega
  admissions := h.admissions

/-! ## The accounts -/

/-- A peer is admitted exactly when nothing speaks against it. -/
def Just (a : Admission) : Prop :=
  a.admitted = true ↔ a.done = false ∧ a.paused = false ∧ a.full = false ∧ a.banned = false ∧ a.outside = false

/-- `queues` has the queue as it was after each time that peers were added. -/
structure Accounted (config : EncoderConfig) (s : JashEncoder) : Prop where
  counter : s.incompletecounter = s.attempts.card
  limit : s.connections.card + s.incompletecounter ≤ config.limit
  queue : s.queue.Nodup
  queues : ∀ peers ∈ s.queues, peers.Nodup
  admissions : ∀ a ∈ s.admissions, Just a

structure Balanced (config : EncoderConfig) (s : JashEncoder) : Prop where
  sound : Sound config s
  accounted : Accounted config s
  distinct : Distinct s

theorem Balanced.of_exceeds (hs : Balanced config s) (h : Exceeds config 0 s t) (hdistinct : Distinct t)
    (hqueues : t.queues = s.queues) : Balanced config t where
  sound := h.sound
  accounted := by
    have hexcess := h.excess
    have hcounter := hs.accounted.counter
    unfold excess at hexcess
    refine ⟨by omega, h.limit, hdistinct.queue, hqueues ▸ hs.accounted.queues, ?_⟩
    rw [h.admissions]
    exact hs.accounted.admissions
  distinct := hdistinct

theorem Distinct.sameLists (h : Distinct s) (hlists : SameLists s t) : Distinct t := h.drained hlists.drained

theorem Balanced.of_calm (hs : Balanced config s) (h : Calm s t) (ht : Sound config t) : Balanced config t :=
  hs.of_exceeds (h.exceeds ht hs.accounted.limit) (hs.distinct.sameLists h.lists) h.lists.queues

theorem Balanced.not_of_exceeds {P : Prop} [Decidable P] (hs : Balanced config s)
    (h : Exceeds config (if P then 1 else 0) s t) (ht : Accounted config t) : ¬P := by
  intro hp
  have hexcess := h.excess
  have hcounter := hs.accounted.counter
  have hcounter' := ht.counter
  rw [if_pos hp] at hexcess
  unfold excess at hexcess
  omega

/-! ### Attempts that end -/

theorem Balanced.connectFailed (hs : Balanced config s) (hpending : k ∈ s.attempts) :
    Balanced config (s.connectFailed k) := by
  have hlimit := hs.accounted.limit
  have hcard := Finset.card_erase_add_one hpending
  refine hs.of_exceeds ⟨hs.sound.connectFailed hpending, ?_, ?_, rfl⟩ ⟨hs.distinct.tried, hs.distinct.queue⟩ rfl
  · simp only [cons, JashEncoder.connectFailed]
    omega
  · simp only [excess, JashEncoder.connectFailed]
    omega

/-- The connection that is made is no longer counted as incomplete. -/
theorem Balanced.outgoingMade (hs : Balanced config s) (hpending : k ∈ s.attempts) (host : List Char) :
    Balanced config (finish (outgoingMade config k host) s) := by
  have hlimit := hs.accounted.limit
  have hcard := Finset.card_erase_add_one hpending
  have hinsert := Finset.card_insert_le k s.connections
  have hrest : (finish (JashEncoder.outgoingMade config k host) s).cons ≤ config.limit ∧
      (finish (JashEncoder.outgoingMade config k host) s).excess = s.excess + 0 ∧
      (finish (JashEncoder.outgoingMade config k host) s).admissions = s.admissions ∧
      SameLists s (finish (JashEncoder.outgoingMade config k host) s) := by
    refine (outcome_finish (I := fun t : JashEncoder => t.cons ≤ config.limit ∧ t.excess = s.excess + 0 ∧
      t.admissions = s.admissions ∧ SameLists s t)).mp ?_
    simp only [JashEncoder.outgoingMade, connectSucceeded, outcome_bind, outcome_modify, outcome_get, outcome_ite]
    split
    · refine ⟨?_, ?_, rfl, rfl, rfl, rfl, rfl⟩
      · simp only [cons, update]
        omega
      · simp only [excess, update]
        omega
    · refine ⟨?_, ?_, rfl, rfl, rfl, rfl, rfl⟩
      · simp only [cons, update]
        omega
      · simp only [excess, update]
        omega
  obtain ⟨hcons, hexcess, hadmissions, hlists⟩ := hrest
  exact hs.of_exceeds ⟨hs.sound.outgoingMade hpending host, hcons, hexcess, hadmissions⟩
    (hs.distinct.sameLists hlists) hlists.queues

/-! ### Peers that come in -/

/-- A peer is refused before it comes to the ban lists. -/
def Refuses (config : EncoderConfig) (ip : List Char) (s : JashEncoder) : Prop :=
  s.done = true ∨ (config.useSocks = true ∧ ip ≠ localhost) ∨ s.paused = true ∨ config.limit ≤ s.connections.card

instance (config : EncoderConfig) (ip : List Char) (s : JashEncoder) : Decidable (Refuses config ip s) :=
  inferInstanceAs (Decidable (_ ∨ _ ∨ _ ∨ _))

variable {ip : List Char}

theorem shouldClose_of_refuses (h : Refuses config ip s) : s.shouldClose config ip ≠ .ok false := by
  intro hopen
  unfold shouldClose at hopen
  unfold Refuses at h
  split at hopen
  · cases hopen
  · split at hopen
    · cases hopen
    · split at hopen
      · cases hopen
      · split at hopen
        · cases hopen
        · tauto

/-- What passes the other checks is closed if it is not banned. -/
theorem shouldClose_of_not_refuses (h : ¬Refuses config ip s) :
    s.shouldClose config ip = .ok (s.checkIp config ip) := by
  unfold Refuses at h
  push Not at h
  obtain ⟨hdone, hinside, hpaused, hroom⟩ := h
  unfold shouldClose
  rw [if_neg hdone, if_neg (fun houtside => houtside.2 (hinside houtside.1)), if_neg hpaused, if_neg (by omega)]
  cases s.checkIp config ip <;> rfl

theorem just_of_refuses (h : Refuses config ip s) : Just (s.admission config ip false) := by
  refine iff_of_false nofun ?_
  rintro ⟨hdone, hpaused, hfull, _, houtside⟩
  simp only [admission, decide_eq_false_iff_not, Bool.and_eq_false_imp] at hdone hpaused hfull houtside
  rcases h with h | h | h | h
  · exact absurd (h.symm.trans hdone) nofun
  · exact houtside h.1 h.2
  · exact absurd (h.symm.trans hpaused) nofun
  · exact hfull h

theorem not_just_of_not_refuses (h : ¬Refuses config ip s) :
    ¬Just (s.admission config ip (!s.checkIp config ip)) := by
  unfold Refuses at h
  push Not at h
  obtain ⟨hdone, hinside, hpaused, hroom⟩ := h
  intro hjust
  unfold Just admission at hjust
  cases hcheck : s.checkIp config ip <;> simp_all

theorem externallyHandshaked_refused (h : Refuses config (s.protocols k).ip s) (encrypted : Bool) :
    Calm (s.record (s.admission config (s.protocols k).ip false))
      (finish (externallyHandshakedConnectionMade config k encrypted) s) := by
  refine outcome_finish.mp ?_
  simp only [externallyHandshakedConnectionMade, outcome_bind, outcome_get]
  split
  · simp only [outcome_bind, outcome_modify, outcome_raise]
    exact ⟨rfl, rfl, Finset.Subset.refl _, rfl, rfl, rfl, rfl, rfl⟩
  · simp only [outcome_bind, outcome_modify]
    exact calm_close k _
  · case h_3 hopen => exact absurd hopen (shouldClose_of_refuses h)

theorem externallyHandshaked_admissions (h : ¬Refuses config (s.protocols k).ip s) (encrypted : Bool) :
    s.admission config (s.protocols k).ip (!s.checkIp config (s.protocols k).ip) ∈
      (finish (externallyHandshakedConnectionMade config k encrypted) s).admissions := by
  refine (outcome_finish (I := fun t : JashEncoder => s.admission config (s.protocols k).ip (!s.checkIp config (s.protocols k).ip) ∈
    t.admissions)).mp ?_
  simp only [externallyHandshakedConnectionMade, outcome_bind, outcome_get, shouldClose_of_not_refuses h]
  cases hcheck : s.checkIp config (s.protocols k).ip with
  | true =>
    simp only [outcome_bind, outcome_modify]
    refine (calm_close k _).mono ?_ ?_
    · intro _ t ht
      rw [ht.admissions]
      simp [record]
    · intro _ t ht
      rw [ht.admissions]
      simp [record]
  | false =>
    simp only [connectSucceeded, outcome_bind, outcome_modify, outcome_get, outcome_ite]
    split <;> simp [record, update]

/-! ## Runs -/

/-- A connection that was lost is tried again. -/
def Retries (s : JashEncoder) (k : Nat) (running : Bool) : Prop :=
  running = true ∧ (s.protocols k).encoder = .own ∧ retries (s.protocols k) = true

instance (s : JashEncoder) (k : Nat) (running : Bool) : Decidable (Retries s k running) :=
  inferInstanceAs (Decidable (_ ∧ _ ∧ _))

def Proper (config : EncoderConfig) (s : JashEncoder) : Action → Prop
  | .startConnections env peers => (s.neverConnected ++ s.newPeers peers).Nodup ∧
      (s.startConnectionsEvent = false → ¬Leaks config env (s.addPeers peers))
  | .startConnection env peer => ¬(Unready config env ∧ starts config env s peer = true)
  | .startConnectionFromQueue env => ¬Leaks config env s
  | .handshake k _ => Refuses config (s.protocols k).ip s
  | .lost env k running => Retries s k running →
      ¬(Unready config env ∧ starts config env (s.released k) (retryPeer (s.protocols k)) = true)
  | _ => True

instance (config : EncoderConfig) (s : JashEncoder) : (a : Action) → Decidable (Proper config s a)
  | .startConnections env peers => inferInstanceAs (Decidable ((s.neverConnected ++ s.newPeers peers).Nodup ∧
      (s.startConnectionsEvent = false → ¬Leaks config env (s.addPeers peers))))
  | .startConnection env peer => inferInstanceAs (Decidable ¬(Unready config env ∧ starts config env s peer = true))
  | .startConnectionFromQueue env => inferInstanceAs (Decidable ¬Leaks config env s)
  | .handshake k _ => inferInstanceAs (Decidable (Refuses config (s.protocols k).ip s))
  | .lost env k running => inferInstanceAs (Decidable (Retries s k running →
      ¬(Unready config env ∧ starts config env (s.released k) (retryPeer (s.protocols k)) = true)))
  | .connected _ _ | .failed _ | .accepted _ _ | .header _ | .handshakeElsewhere _ _ | .peerId _ _ _
  | .peerIdElsewhere _ _ _ | .write _ | .close _ | .closeAll _ | .pause _ | .ban _ => isTrue trivial

/-- The state in which `start_connections` has added the peers and has its timer. -/
def scheduled (env : EncoderContext) (peers : List Peer) (s : JashEncoder) : JashEncoder :=
  { s.addPeers peers with
    queues := (s.addPeers peers).queues ++ [(s.addPeers peers).queue]
    lastPeerCycleTime :=
      if (s.addPeers peers).lastPeerCycleTime = 0 then env.now else (s.addPeers peers).lastPeerCycleTime
    startConnectionsEvent := true }

theorem addPeers_frame (peers : List Peer) : (s.addPeers peers).queues = s.queues ∧
    (s.addPeers peers).startConnectionsEvent = s.startConnectionsEvent := by
  induction peers generalizing s with
  | nil => exact ⟨rfl, rfl⟩
  | cons peer peers ih =>
    obtain ⟨hqueues, hevent⟩ := ih (s := s.addPeer peer)
    have hpeer : (s.addPeer peer).queues = s.queues ∧
        (s.addPeer peer).startConnectionsEvent = s.startConnectionsEvent := by
      unfold addPeer
      split
      · exact ⟨rfl, rfl⟩
      · split <;> exact ⟨rfl, rfl⟩
    exact ⟨hqueues.trans hpeer.1, hevent.trans hpeer.2⟩

theorem startConnections_eq (peers : List Peer) : finish (startConnections config env peers) s =
    if s.startConnectionsEvent then s.scheduled env peers
    else finish (startConnectionFromQueue config env) (s.scheduled env peers) := by
  have hevent := (addPeers_frame (s := s) peers).2
  change finish (when (¬(s.addPeers peers).startConnectionsEvent = true) _) _ = _
  rw [hevent, when]
  cases htimer : s.startConnectionsEvent with
  | false => rfl
  | true =>
    simp only [scheduled, ← htimer, ← hevent]
    rfl

theorem startConnection_finish (env : EncoderContext) (hs : Sound config s) (hlimit : s.cons ≤ config.limit) (peer : Peer) :
    Exceeds config (if Unready config env ∧ starts config env s peer = true then 1 else 0) s
      (finish (startConnection config env peer) s) :=
  outcome_finish.mp (exceeds_of_leak (startConnection_exceeds hs hlimit peer) startConnection_leak)

theorem exceeds_scheduled (env : EncoderContext) (hs : Sound config s) (hlimit : s.cons ≤ config.limit) (peers : List Peer) :
    Exceeds config 0 s (s.scheduled env peers) :=
  ((Exceeds.refl hs hlimit).of_core (sameCore_addPeers peers)).of_core ⟨rfl, rfl, rfl, rfl, rfl, rfl, rfl, rfl⟩

theorem scheduled_queues (peers : List Peer) :
    (s.scheduled env peers).queues = s.queues ++ [(s.addPeers peers).queue] :=
  congrArg (· ++ [(s.addPeers peers).queue]) (addPeers_frame peers).1

theorem Balanced.scheduled (env : EncoderContext) (hs : Balanced config s) {peers : List Peer}
    (hnew : (s.neverConnected ++ s.newPeers peers).Nodup) : Balanced config (s.scheduled env peers) := by
  have hdistinct := hs.distinct.addPeers hnew
  have hexceeds := exceeds_scheduled env hs.sound hs.accounted.limit peers
  have hexcess := hexceeds.excess
  have hcounter := hs.accounted.counter
  unfold excess at hexcess
  refine ⟨hexceeds.sound, ⟨by omega, hexceeds.limit, hdistinct.queue, ?_, ?_⟩, ⟨hdistinct.tried, hdistinct.queue⟩⟩
  · rw [scheduled_queues]
    intro queue hqueue
    rcases List.mem_append.mp hqueue with hqueue | hqueue
    · exact hs.accounted.queues queue hqueue
    · rw [List.mem_singleton.mp hqueue]
      exact hdistinct.queue
  · rw [hexceeds.admissions]
    exact hs.accounted.admissions

theorem Balanced.startConnectionFromQueue (hs : Balanced config s) (hleaks : ¬Leaks config env s) :
    Balanced config (finish (startConnectionFromQueue config env) s) := by
  have hexceeds := startConnectionFromQueue_exceeds env hs.sound hs.accounted.limit
  rw [if_neg hleaks] at hexceeds
  exact hs.of_exceeds hexceeds (startConnectionFromQueue_distinct hs.distinct) startConnectionFromQueue_queues

theorem Balanced.startConnection (hs : Balanced config s)
    (hready : ¬(Unready config env ∧ starts config env s peer = true)) :
    Balanced config (finish (startConnection config env peer) s) := by
  have hexceeds := startConnection_finish env hs.sound hs.accounted.limit peer
  have hlists : SameLists s (finish (JashEncoder.startConnection config env peer) s) :=
    (startConnection_lists peer).finish s
  rw [if_neg hready] at hexceeds
  exact hs.of_exceeds hexceeds (hs.distinct.sameLists hlists) hlists.queues

theorem Balanced.record {a : Admission} (hs : Balanced config s) (ha : Just a) : Balanced config (s.record a) where
  sound := hs.sound.record a
  accounted := { hs.accounted with
    admissions := by
      intro b hb
      rcases List.mem_append.mp hb with hb | hb
      · exact hs.accounted.admissions b hb
      · exact List.mem_singleton.mp hb ▸ ha }
  distinct := ⟨hs.distinct.tried, hs.distinct.queue⟩

theorem Balanced.transportLost {running : Bool} (hs : Balanced config s)
    (hstage : (s.protocols k).stage ≠ .connecting) (hready : Proper config s (.lost env k running)) :
    Balanced config (finish (transportLost config env k running) s) := by
  have hsound := hs.sound.transportLost env hstage running
  cases running with
  | false => exact hs.of_calm (calm_cut k s) hsound
  | true =>
    by_cases hown : (s.protocols k).encoder = .own
    · have hreleased := hs.of_calm (calm_released k s) (hs.sound.released hstage hown)
      rw [transportLost_own hs.sound hstage hown]
      split
      · case isTrue hretries => exact hreleased.startConnection (hready ⟨rfl, hown, hretries⟩)
      · exact hreleased
    · rw [transportLost_other hown] at hsound ⊢
      exact hs.of_calm ⟨rfl, rfl, Finset.Subset.refl _, rfl, rfl, rfl, rfl, rfl⟩ hsound

theorem step_balanced {a : Action} (hs : Balanced config s) (hstep : step config s a = some t) (hp : Proper config s a) :
    Balanced config t := by
  have hsound := step_sound hs.sound hstep
  cases a with
  | startConnections env peers =>
    cases hstep
    obtain ⟨hnew, hleaks⟩ := hp
    rw [startConnections_eq]
    split
    · exact hs.scheduled env hnew
    · case isFalse htimer => exact (hs.scheduled env hnew).startConnectionFromQueue (hleaks (Bool.eq_false_iff.mpr htimer))
  | startConnection env peer =>
    cases hstep
    exact hs.startConnection hp
  | startConnectionFromQueue env =>
    obtain ⟨_, ⟨⟩⟩ := Option.ite_none_right_eq_some.mp hstep
    exact hs.startConnectionFromQueue hp
  | connected k host =>
    obtain ⟨hpending, ⟨⟩⟩ := Option.ite_none_right_eq_some.mp hstep
    exact hs.outgoingMade hpending host
  | failed k =>
    obtain ⟨hpending, ⟨⟩⟩ := Option.ite_none_right_eq_some.mp hstep
    exact hs.connectFailed hpending
  | accepted ip port =>
    cases hstep
    exact hs.of_calm ⟨rfl, rfl, Finset.Subset.refl _, rfl, rfl, rfl, rfl, rfl⟩ hsound
  | header k =>
    obtain ⟨_, ⟨⟩⟩ := Option.ite_none_right_eq_some.mp hstep
    exact hs.of_calm ⟨rfl, rfl, Finset.Subset.refl _, rfl, rfl, rfl, rfl, rfl⟩ hsound
  | handshake k encrypted =>
    obtain ⟨_, ⟨⟩⟩ := Option.ite_none_right_eq_some.mp hstep
    exact (hs.record (just_of_refuses hp)).of_calm (externallyHandshaked_refused hp encrypted) hsound
  | handshakeElsewhere k encrypted =>
    obtain ⟨_, ⟨⟩⟩ := Option.ite_none_right_eq_some.mp hstep
    exact hs.of_calm ⟨rfl, rfl, Finset.Subset.refl _, rfl, rfl, rfl, rfl, rfl⟩ hsound
  | peerId k id order =>
    obtain ⟨_, ⟨⟩⟩ := Option.ite_none_right_eq_some.mp hstep
    exact hs.of_calm ((calm_readPeerId k id order).finish s) hsound
  | peerIdElsewhere k id complete =>
    obtain ⟨_, ⟨⟩⟩ := Option.ite_none_right_eq_some.mp hstep
    exact hs.of_calm ⟨rfl, rfl, Finset.Subset.refl _, rfl, rfl, rfl, rfl, rfl⟩ hsound
  | write k =>
    obtain ⟨_, ⟨⟩⟩ := Option.ite_none_right_eq_some.mp hstep
    exact hs.of_calm ((calm_write k).finish s) hsound
  | close k =>
    obtain ⟨_, ⟨⟩⟩ := Option.ite_none_right_eq_some.mp hstep
    exact hs.of_calm ((calm_close k).finish s) hsound
  | lost env k running =>
    obtain ⟨⟨hstage, _⟩, ⟨⟩⟩ := Option.ite_none_right_eq_some.mp hstep
    exact hs.transportLost hstage hp
  | closeAll order =>
    obtain ⟨_, ⟨⟩⟩ := Option.ite_none_right_eq_some.mp hstep
    exact hs.of_calm ((calm_closeAll order).finish s) hsound
  | pause flag =>
    cases hstep
    exact hs.of_calm ⟨rfl, rfl, Finset.Subset.refl _, rfl, rfl, rfl, rfl, rfl⟩ hsound
  | ban ip =>
    cases hstep
    exact hs.of_calm ⟨rfl, rfl, Finset.Subset.refl _, rfl, rfl, rfl, rfl, rfl⟩ hsound

/-- A state whose accounts are right was reached properly. -/
theorem proper_of_accounted {a : Action} (hs : Balanced config s) (hstep : step config s a = some t)
    (ht : Accounted config t) : Proper config s a := by
  cases a with
  | startConnections env peers =>
    cases hstep
    rw [startConnections_eq] at ht
    have hqueues : (finish (startConnections config env peers) s).queues = (s.scheduled env peers).queues := by
      rw [startConnections_eq]
      split
      · rfl
      · exact startConnectionFromQueue_queues
    have hnew : (s.neverConnected ++ s.newPeers peers).Nodup := by
      apply (hs.distinct.addPeers_iff peers).mp
      apply ht.queues
      rw [← startConnections_eq, hqueues, scheduled_queues]
      exact List.mem_append_right _ (List.mem_singleton_self _)
    refine ⟨hnew, fun htimer => ?_⟩
    rw [if_neg (by simp [htimer])] at ht
    have hscheduled := hs.scheduled env hnew
    exact hscheduled.not_of_exceeds (startConnectionFromQueue_exceeds env hscheduled.sound hscheduled.accounted.limit) ht
  | startConnection env peer =>
    cases hstep
    exact hs.not_of_exceeds (startConnection_finish env hs.sound hs.accounted.limit peer) ht
  | startConnectionFromQueue env =>
    obtain ⟨_, ⟨⟩⟩ := Option.ite_none_right_eq_some.mp hstep
    exact hs.not_of_exceeds (startConnectionFromQueue_exceeds env hs.sound hs.accounted.limit) ht
  | handshake k encrypted =>
    obtain ⟨_, ⟨⟩⟩ := Option.ite_none_right_eq_some.mp hstep
    by_contra hnot
    exact not_just_of_not_refuses hnot (ht.admissions _ (externallyHandshaked_admissions hnot encrypted))
  | lost env k running =>
    obtain ⟨⟨hstage, _⟩, ⟨⟩⟩ := Option.ite_none_right_eq_some.mp hstep
    rintro ⟨rfl, hown, hretries⟩
    rw [transportLost_own hs.sound hstage hown, if_pos hretries] at ht
    have hreleased := hs.of_calm (calm_released k s) (hs.sound.released hstage hown)
    exact hreleased.not_of_exceeds (startConnection_finish env hreleased.sound hreleased.accounted.limit _) ht
  | connected _ _ | failed _ | accepted _ _ | header _ | handshakeElsewhere _ _ | peerId _ _ _
  | peerIdElsewhere _ _ _ | write _ | close _ | closeAll _ | pause _ | ban _ => trivial

theorem balanced_new : Balanced config new where
  sound := sound_new
  accounted := ⟨rfl, Int.natCast_nonneg _, .nil, nofun, nofun⟩
  distinct := ⟨.nil, .nil⟩

theorem accounted_iff_proper {as : List Action} (hrun : Run (step config) (fun _ _ => True) new as s) :
    (∀ start t, start <+: as → Run (step config) (fun _ _ => True) new start t → Accounted config t) ↔
      EachStep (step config) (Proper config) new as :=
  Run.forall_prefix_iff (I := Balanced config) Balanced.accounted step_balanced proper_of_accounted hrun balanced_new

theorem example_accounted : ∃ s, Run (step exampleConfig) (fun _ _ => True) new exampleActions s ∧
    ∀ start t, start <+: exampleActions → Run (step exampleConfig) (fun _ _ => True) new start t →
      Accounted exampleConfig t := by
  have hproper : EachStep (step exampleConfig) (Proper exampleConfig) new exampleActions := by
    decide +kernel
  have hend : (exec (step exampleConfig) new exampleActions).any (fun _ => true) = true := by
    decide +kernel
  obtain ⟨s, hrun, _⟩ := exists_run hend (eachStep_true _ _)
  exact ⟨s, hrun, (accounted_iff_proper hrun).mpr hproper⟩

/-- BitBlinder is not ready when the first list of peers comes: a connection is counted that nothing
will make or fail. -/
theorem refused_launch_counted : ∃ s,
    Run (step { exampleConfig with useSocks := true }) (fun _ _ => True) new
      [.startConnections { exampleContext with ready := false } [examplePeer 1]] s ∧
    s.incompletecounter = 1 ∧ s.attempts = ∅ ∧ ¬Accounted { exampleConfig with useSocks := true } s := by
  have hend : (exec (step { exampleConfig with useSocks := true }) new
      [.startConnections { exampleContext with ready := false } [examplePeer 1]]).any
        (fun s => s.incompletecounter = 1 ∧ s.attempts = ∅) = true := by
    decide
  obtain ⟨s, hrun, hs⟩ := exists_run hend (eachStep_true _ _)
  obtain ⟨hcounter, hattempts⟩ := of_decide_eq_true hs
  refine ⟨s, hrun, hcounter, hattempts, fun haccounted => ?_⟩
  have hequal := haccounted.counter
  rw [hcounter, hattempts] at hequal
  cases hequal

end BitBlinder.BitTorrent.JashEncoder
