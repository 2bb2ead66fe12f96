import BitBlinder.Tor.SocksApp
import Mathlib.Data.List.Count

/-!
# Who waits for a circuit

Streams and DHT requests wait for a circuit until it is ready, and so does who
asked for its `builtDeferred`. The streams that were ever put on the pending
streams of a circuit are counted against what became of them.
-/

namespace BitBlinder.Tor.Socks

set_option autoImplicit false

namespace SocksApplication

/-- The streams that wait; for a circuit that ends, those that it did not come to yet. -/
def waiting (leaving : Option (Nat × List Nat)) (app : SocksApplication) (c : Nat) : List Nat :=
  match leaving with
  | none => (app.circuit c).pendingStreams
  | some (d, rest) => if c = d then rest else (app.circuit c).pendingStreams

/-- Every stream that was put on some pending streams waits there or was settled. -/
structure Counted (leaving : Option (Nat × List Nat)) (app : SocksApplication) : Prop where
  count : ∀ c x, app.waited.count (c, x) =
    (app.settled.map Prod.fst).count (c, x) + if x ∈ app.waiting leaving c then 1 else 0
  nodup : ∀ c, (app.waiting leaving c).Nodup

/-- No circuit changes but for its streams, and no stream is put on the pending streams of a
circuit that is done or not made yet. -/
structure Keeps (s t : SocksApplication) : Prop where
  circuit : ∀ c, t.circuit c = { s.circuit c with
    streams := (t.circuit c).streams, pendingStreams := (t.circuit c).pendingStreams }
  shut : ∀ c, (s.circuit c).isDone ∨ s.circuitCount ≤ c →
    ∀ x ∈ (t.circuit c).pendingStreams, x ∈ (s.circuit c).pendingStreams
  live : t.liveCircuits = s.liveCircuits
  circuits : t.circuits = s.circuits
  circuitCount : t.circuitCount = s.circuitCount

section
variable {s t u : SocksApplication} {leaving : Option (Nat × List Nat)}

theorem Keeps.refl (s : SocksApplication) : s.Keeps s := ⟨fun _ => rfl, fun _ _ _ h => h, rfl, rfl, rfl⟩

theorem Keeps.isDone (h : s.Keeps t) (c : Nat) : (t.circuit c).isDone = (s.circuit c).isDone := by
  rw [h.circuit c]
  rfl

theorem Keeps.trans (h : s.Keeps t) (h' : t.Keeps u) : s.Keeps u where
  circuit := fun c => by
    rw [h'.circuit c, h.circuit c]
  shut := fun c hshut x hx => h.shut c hshut x (h'.shut c (by rwa [h.isDone c, h.circuitCount]) x hx)
  live := h'.live.trans h.live
  circuits := h'.circuits.trans h.circuits
  circuitCount := h'.circuitCount.trans h.circuitCount

theorem setStream_keeps (x : Nat) (g : Stream → Stream) (app : SocksApplication) : app.Keeps (app.setStream x g) :=
  ⟨fun _ => rfl, fun _ _ _ h => h, rfl, rfl, rfl⟩

theorem settle_keeps (c x : Nat) (outcome : Outcome) (app : SocksApplication) :
    app.Keeps (app.settle c x outcome) :=
  ⟨fun _ => rfl, fun _ _ _ h => h, rfl, rfl, rfl⟩

/-- Only the streams of one circuit change. -/
theorem keeps_of_streams {c : Nat} {f : Circuit → Circuit} (app : SocksApplication)
    (hf : f (app.circuit c) = { app.circuit c with
      streams := (f (app.circuit c)).streams, pendingStreams := (f (app.circuit c)).pendingStreams })
    (hshut : (app.circuit c).isDone ∨ app.circuitCount ≤ c →
      ∀ x ∈ (f (app.circuit c)).pendingStreams, x ∈ (app.circuit c).pendingStreams) :
    app.Keeps (app.setCircuit c f) where
  circuit := fun d => by
    rw [setCircuit_circuit]
    split
    · rename_i heq
      rw [heq]
      exact hf
    · rfl
  shut := fun d hd x hx => by
    rw [setCircuit_circuit] at hx
    split at hx
    · rename_i heq
      rw [heq] at hd ⊢
      exact hshut hd x hx
    · exact hx
  live := rfl
  circuits := rfl
  circuitCount := rfl

/-- Either nothing comes of it, or the stream and the circuit are not done and Tor is ready. -/
theorem attach_cases (c x : Nat) (app : SocksApplication) :
    (app.attach c x = (app, false) ∧
        ((app.stream x).isDone = true ∨ (app.circuit c).isDone = true ∨ app.torReady = false)) ∨
      ((app.stream x).isDone = false ∧ (app.circuit c).isDone = false ∧ app.torReady = true ∧
        app.attach c x =
          ((if (app.circuit c).isReady then app.addStream c x else app.addPending c x).setStream x fun stream =>
            { stream with circuit := some c }, true)) := by
  unfold attach
  cases hstream : (app.stream x).isDone with
  | true => exact Or.inl ⟨rfl, Or.inl rfl⟩
  | false =>
    cases hcircuit : (app.circuit c).isDone with
    | true => exact Or.inl ⟨rfl, Or.inr (Or.inl rfl)⟩
    | false =>
      cases htor : app.torReady with
      | false => exact Or.inl ⟨rfl, Or.inr (Or.inr rfl)⟩
      | true => exact Or.inr ⟨rfl, rfl, rfl, rfl⟩

theorem addStream_keeps (c x : Nat) (app : SocksApplication) : app.Keeps (app.addStream c x) :=
  keeps_of_streams app rfl fun _ _ h => h

theorem attach_keeps {c : Nat} {app : SocksApplication} (hlt : c < app.circuitCount) (x : Nat) :
    app.Keeps (app.attach c x).1 := by
  rcases attach_cases c x app with ⟨hattach, -⟩ | ⟨-, hopen, -, hattach⟩
  · rw [hattach]
    exact Keeps.refl app
  · rw [hattach]
    dsimp only
    refine Keeps.trans ?_ (setStream_keeps x _ _)
    split
    · exact addStream_keeps c x app
    · have hpending := keeps_of_streams (c := c) (f := fun circ =>
        { circ with pendingStreams := circ.pendingStreams.insert x }) app rfl
        fun hshut => by
          rcases hshut with hdone | hfresh
          · rw [hopen] at hdone
            cases hdone
          · omega
      exact ⟨hpending.circuit, hpending.shut, rfl, rfl, rfl⟩

/-- Live circuits were made. -/
def LiveMade (app : SocksApplication) : Prop := ∀ c ∈ app.liveCircuits, c < app.circuitCount

theorem Keeps.liveMade (h : s.Keeps t) (hlive : s.LiveMade) : t.LiveMade := by
  intro c hc
  rw [h.live] at hc
  rw [h.circuitCount]
  exact hlive c hc

theorem findOrBuildBestCircuit_live {best : Option Nat} {app : SocksApplication} {c : Nat}
    (h : app.findOrBuildBestCircuit best = some c) : c ∈ app.liveCircuits := by
  have hp := (Option.filter_eq_some_iff.mp h).2
  simp only [Bool.or_eq_true, decide_eq_true_eq] at hp
  exact hp.1

theorem handleStream_keeps {app : SocksApplication} (hlive : app.LiveMade) (x : Nat) (best : Option Nat) :
    app.Keeps (app.handleStream x best) := by
  unfold handleStream
  dsimp only
  split
  · exact setStream_keeps x _ app
  · split
    · exact setStream_keeps x _ app
    · rename_i c hbest
      refine (setStream_keeps x _ app).trans (attach_keeps ?_ x)
      exact hlive c (findOrBuildBestCircuit_live hbest)

theorem leavePending_keeps {app : SocksApplication} (hlive : app.LiveMade) (c : Nat) (best : List (Nat × Nat))
    (x : Nat) : app.Keeps (app.leavePending c best x) := by
  have hleft : ∀ outcome, app.Keeps
      ((app.setStream x fun stream => { stream with circuit := none }).settle c x outcome) := fun outcome =>
    (setStream_keeps x _ app).trans (settle_keeps c x outcome _)
  unfold leavePending
  dsimp only
  split
  · exact (hleft .detachHandler).trans (handleStream_keeps ((hleft .detachHandler).liveMade hlive) x _)
  · exact hleft .closed

/-! ### Counting -/

theorem Counted.of_same (h : s.Counted leaving) (hwaiting : t.waiting leaving = s.waiting leaving)
    (hwaited : t.waited = s.waited) (hsettled : t.settled = s.settled) : t.Counted leaving where
  count := fun c x => by
    rw [hwaited, hsettled, hwaiting]
    exact h.count c x
  nodup := fun c => by
    rw [hwaiting]
    exact h.nodup c

/-- Where the pending streams stay, so do those that wait. -/
theorem waiting_congr (h : ∀ c, (t.circuit c).pendingStreams = (s.circuit c).pendingStreams)
    (leaving : Option (Nat × List Nat)) : t.waiting leaving = s.waiting leaving := by
  funext c
  unfold waiting
  split
  · exact h c
  · rw [h c]

theorem setStream_counted (h : s.Counted leaving) (x : Nat) (g : Stream → Stream) :
    (s.setStream x g).Counted leaving := h.of_same rfl rfl rfl

theorem addStream_counted (h : s.Counted leaving) (c x : Nat) : (s.addStream c x).Counted leaving := by
  refine h.of_same (waiting_congr (fun d => ?_) leaving) rfl rfl
  unfold addStream
  rw [setCircuit_circuit]
  split
  · rename_i heq
    rw [heq]
  · rfl

/-- Only what waits for one circuit changes, and this is not the circuit that ends. -/
theorem waiting_of_pending {c : Nat} (hother : ∀ d, d ≠ c → (t.circuit d).pendingStreams = (s.circuit d).pendingStreams)
    (hleaving : ∀ d rest, leaving = some (d, rest) → c ≠ d) (d : Nat) :
    t.waiting leaving d = if d = c then (t.circuit c).pendingStreams else s.waiting leaving d := by
  cases leaving with
  | none =>
    unfold waiting
    dsimp only
    split
    · rename_i heq
      rw [heq]
    · rename_i hne
      exact hother d hne
  | some entry =>
    have hne := hleaving entry.1 entry.2 rfl
    unfold waiting
    dsimp only
    by_cases hd : d = c
    · rw [if_pos hd, if_neg (hd ▸ hne), hd]
    · rw [if_neg hd, hother d hd]

theorem addPending_counted (h : s.Counted leaving) {c : Nat} (x : Nat)
    (hleaving : ∀ d rest, leaving = some (d, rest) → c ≠ d) : (s.addPending c x).Counted leaving := by
  have hpending : ((s.addPending c x).circuit c).pendingStreams = (s.circuit c).pendingStreams.insert x := by
    simp [addPending]
  have hwaiting := waiting_of_pending (s := s) (t := s.addPending c x) (fun d hd => by
    simp [addPending, setCircuit_circuit, hd]) hleaving
  have hbefore := waiting_of_pending (s := s) (t := s) (fun d _ => rfl) hleaving c
  rw [if_pos rfl] at hbefore
  rw [hpending] at hwaiting
  by_cases hmem : x ∈ (s.circuit c).pendingStreams
  · refine h.of_same (funext fun d => ?_) (if_pos hmem) rfl
    rw [hwaiting d, List.insert_of_mem hmem, ← hbefore]
    split
    · rename_i heq
      rw [heq]
    · rfl
  · have hwaited : (s.addPending c x).waited = s.waited ++ [(c, x)] := if_neg hmem
    refine ⟨fun d y => ?_, fun d => ?_⟩
    · have hcount := h.count d y
      have hsettled : (s.addPending c x).settled = s.settled := rfl
      rw [hwaited, hsettled, List.count_append, hcount, hwaiting d, List.count_singleton]
      by_cases hd : d = c
      · subst hd
        rw [if_pos rfl, hbefore, List.insert_of_not_mem hmem]
        by_cases hy : y = x
        · subst hy
          simp [hmem]
        · simp [hy, Ne.symm hy]
      · simp [hd, Ne.symm hd]
    · rw [hwaiting d]
      split
      · rw [List.insert_of_not_mem hmem]
        exact List.nodup_cons.mpr ⟨hmem, hbefore ▸ h.nodup c⟩
      · exact h.nodup d

theorem attach_counted (h : s.Counted leaving) (c x : Nat)
    (hleaving : ∀ d rest, leaving = some (d, rest) → (s.circuit d).isDone = true) :
    (s.attach c x).1.Counted leaving := by
  rcases attach_cases c x s with ⟨hattach, -⟩ | ⟨-, hopen, -, hattach⟩
  · rw [hattach]
    exact h
  · rw [hattach]
    dsimp only
    refine setStream_counted ?_ x _
    split
    · exact addStream_counted h c x
    · refine addPending_counted h x fun d rest heq hc => ?_
      rw [hc, hleaving d rest heq] at hopen
      cases hopen

theorem handleStream_counted (h : s.Counted leaving) (x : Nat) (best : Option Nat)
    (hleaving : ∀ d rest, leaving = some (d, rest) → (s.circuit d).isDone = true) :
    (s.handleStream x best).Counted leaving := by
  unfold handleStream
  dsimp only
  split
  · exact setStream_counted h x _
  · split
    · exact setStream_counted h x _
    · exact attach_counted (setStream_counted h x _) _ x hleaving

/-- The first stream that still waits is settled. -/
theorem settle_counted {c x : Nat} {rest : List Nat} (h : s.Counted (some (c, x :: rest))) (outcome : Outcome) :
    (s.settle c x outcome).Counted (some (c, rest)) where
  count := fun d y => by
    have hcount := h.count d y
    have hnodup := h.nodup c
    have hwaited : (s.settle c x outcome).waited = s.waited := rfl
    have hsettled : (s.settle c x outcome).settled = s.settled ++ [((c, x), outcome)] := rfl
    simp only [waiting, if_pos] at hnodup
    have hx : x ∉ rest := (List.nodup_cons.mp hnodup).1
    rw [hwaited, hsettled, hcount, List.map_append, List.count_append, List.map_singleton, List.count_singleton]
    simp only [waiting, settle_circuit]
    by_cases hd : d = c
    · subst hd
      by_cases hy : y = x
      · subst hy
        simp [hx]
      · simp [hy, Ne.symm hy]
    · simp [hd, Ne.symm hd]
  nodup := fun d => by
    have hnodup := h.nodup d
    simp only [waiting, settle_circuit] at hnodup ⊢
    split
    · rename_i hd
      rw [if_pos hd] at hnodup
      exact (List.nodup_cons.mp hnodup).2
    · rename_i hd
      rwa [if_neg hd] at hnodup

theorem leavePending_counted {c x : Nat} {rest : List Nat} (h : s.Counted (some (c, x :: rest)))
    (hdone : (s.circuit c).isDone = true) (best : List (Nat × Nat)) :
    (s.leavePending c best x).Counted (some (c, rest)) := by
  have hsettled := fun outcome => settle_counted (setStream_counted h x fun stream => { stream with circuit := none }) outcome
  unfold leavePending
  dsimp only
  split
  · refine handleStream_counted (hsettled .detachHandler) x _ fun d rest heq => ?_
    obtain ⟨rfl, -⟩ := Prod.mk.inj (Option.some.inj heq)
    exact hdone
  · exact hsettled .closed

theorem leavePendings_keeps (c : Nat) (best : List (Nat × Nat)) (pending : List Nat) (hlive : s.LiveMade) :
    s.Keeps (pending.foldl (leavePending c best) s) := by
  induction pending generalizing s with
  | nil => exact Keeps.refl s
  | cons x rest ih =>
    have hkeeps := leavePending_keeps hlive c best x
    exact hkeeps.trans (ih (hkeeps.liveMade hlive))

theorem leavePendings_counted {c : Nat} (best : List (Nat × Nat)) (pending : List Nat) (hlive : s.LiveMade)
    (h : s.Counted (some (c, pending))) (hdone : (s.circuit c).isDone = true) :
    (pending.foldl (leavePending c best) s).Counted (some (c, [])) := by
  induction pending generalizing s with
  | nil => exact h
  | cons x rest ih =>
    have hkeeps := leavePending_keeps hlive c best x
    exact ih (hkeeps.liveMade hlive) (leavePending_counted h hdone best) ((hkeeps.isDone c).trans hdone)

/-! ### A circuit ends -/

/-- No circuit but one changes, but for its streams. -/
structure Changes (c : Nat) (s t : SocksApplication) : Prop where
  other : ∀ d, d ≠ c → t.circuit d = { s.circuit d with
    streams := (t.circuit d).streams, pendingStreams := (t.circuit d).pendingStreams }
  shut : ∀ d, d ≠ c → (s.circuit d).isDone ∨ s.circuitCount ≤ d →
    ∀ x ∈ (t.circuit d).pendingStreams, x ∈ (s.circuit d).pendingStreams
  live : ∀ d ∈ t.liveCircuits, d ∈ s.liveCircuits
  circuits : t.circuits = s.circuits
  circuitCount : t.circuitCount = s.circuitCount

/-- The circuit ends. -/
structure Ends (c : Nat) (s t : SocksApplication) : Prop extends Changes c s t where
  self : ∃ status streams, t.circuit c = { s.circuit c with
    done := true, status := status, streams := streams, pendingStreams := [] }
  notLive : c ∉ t.liveCircuits

theorem markDone_circuit_of_ne {c d : Nat} (h : d ≠ c) : (s.markDone c).circuit d = s.circuit d := by
  unfold markDone
  dsimp only
  rw [setCircuit_circuit, if_neg h]

theorem markDone_isDone (c : Nat) (s : SocksApplication) : ((s.markDone c).circuit c).isDone = true := by
  simp [markDone, Circuit.isDone, Circuit.isOpen]

theorem markDone_pendingStreams (c d : Nat) (s : SocksApplication) :
    ((s.markDone c).circuit d).pendingStreams = (s.circuit d).pendingStreams := by
  by_cases hd : d = c
  · subst hd
    simp [markDone]
  · rw [markDone_circuit_of_ne hd]

/-- The pending streams of a circuit, in any order. -/
theorem Counted.leave (h : s.Counted none) {c : Nat} {pending : List Nat}
    (hpending : pending.Perm (s.circuit c).pendingStreams) : s.Counted (some (c, pending)) := by
  refine ⟨fun d x => ?_, fun d => ?_⟩
  · have hcount := h.count d x
    unfold waiting at hcount ⊢
    dsimp only at hcount ⊢
    split
    · rename_i heq
      subst heq
      simp only [hpending.mem_iff]
      exact hcount
    · exact hcount
  · have hnodup := h.nodup d
    unfold waiting at hnodup ⊢
    dsimp only at hnodup ⊢
    split
    · rename_i heq
      subst heq
      exact hpending.nodup_iff.mpr hnodup
    · exact hnodup

/-- The streams that still wait are the pending streams of the circuit. -/
theorem waiting_stay {c : Nat} {rest : List Nat} {f : Circuit → Circuit} (hf : (f (s.circuit c)).pendingStreams = rest) :
    (s.setCircuit c f).waiting none = s.waiting (some (c, rest)) := by
  funext d
  unfold waiting
  dsimp only
  rw [setCircuit_circuit]
  split
  · exact hf
  · rfl

theorem Counted.stay {c : Nat} {rest : List Nat} (h : s.Counted (some (c, rest))) {f : Circuit → Circuit}
    (hf : (f (s.circuit c)).pendingStreams = rest) : (s.setCircuit c f).Counted none := by
  have hwaiting := waiting_stay hf
  exact ⟨fun d x => by rw [hwaiting]; exact h.count d x, fun d => by rw [hwaiting]; exact h.nodup d⟩

theorem markDone_liveMade (hlive : s.LiveMade) (c : Nat) : (s.markDone c).LiveMade :=
  fun d hd => hlive d (List.mem_filter.mp hd).1

theorem onDone_eq {c : Nat} (best : List (Nat × Nat)) (hopen : (s.circuit c).done = false) :
    s.onDone c best = (((s.circuit c).pendingStreams.foldl (leavePending c best) (s.markDone c)).setCircuit c fun circ =>
      { circ with pendingStreams := [] }) := by
  unfold onDone
  rw [if_neg (by rw [hopen]; exact Bool.false_ne_true)]
  dsimp only
  rw [markDone_pendingStreams]

theorem onDone_ends {c : Nat} (hlive : s.LiveMade) (best : List (Nat × Nat)) (hopen : (s.circuit c).done = false) :
    Ends c s (s.onDone c best) := by
  have hkeeps := leavePendings_keeps c best (s.circuit c).pendingStreams (markDone_liveMade hlive c)
  rw [onDone_eq best hopen]
  refine ⟨⟨fun d hd => ?_, fun d hd hshut x hx => ?_, fun d hd => ?_, hkeeps.circuits, hkeeps.circuitCount⟩, ?_, ?_⟩
  · rw [setCircuit_circuit, if_neg hd, hkeeps.circuit d, markDone_circuit_of_ne hd]
  · rw [setCircuit_circuit, if_neg hd] at hx
    have hmem := hkeeps.shut d (by rwa [markDone_circuit_of_ne hd]) x hx
    rwa [markDone_pendingStreams] at hmem
  · rw [setCircuit_liveCircuits, hkeeps.live] at hd
    exact (List.mem_filter.mp hd).1
  · rw [setCircuit_circuit_self, hkeeps.circuit c]
    generalize (List.foldl (leavePending c best) (s.markDone c) (s.circuit c).pendingStreams).circuit c = left
    refine ⟨((s.markDone c).circuit c).status, left.streams, ?_⟩
    simp [markDone]
  · rw [setCircuit_liveCircuits, hkeeps.live]
    intro hmem
    simpa using (List.mem_filter.mp hmem).2

theorem onDone_counted {c : Nat} (h : s.Counted none) (hlive : s.LiveMade) (best : List (Nat × Nat))
    (hopen : (s.circuit c).done = false) : (s.onDone c best).Counted none := by
  have hmarked : (s.markDone c).Counted none :=
    h.of_same (waiting_congr (fun d => markDone_pendingStreams c d s) none) rfl rfl
  have hleaving := hmarked.leave (.of_eq (markDone_pendingStreams c c s).symm)
  have hcounted := leavePendings_counted best _ (markDone_liveMade hlive c) hleaving (markDone_isDone c s)
  rw [onDone_eq best hopen]
  exact hcounted.stay rfl

/-! ### A circuit becomes ready -/

/-- Streams are attached to a circuit that is ready. -/
structure Attaches (c : Nat) (s t : SocksApplication) : Prop where
  self : t.circuit c = { s.circuit c with streams := (t.circuit c).streams }
  other : ∀ d, d ≠ c → t.circuit d = s.circuit d
  stream : ∀ x, (t.stream x).isDone = (s.stream x).isDone
  waited : t.waited = s.waited
  live : t.liveCircuits = s.liveCircuits
  circuits : t.circuits = s.circuits
  circuitCount : t.circuitCount = s.circuitCount
  torReady : t.torReady = s.torReady

theorem Attaches.refl (c : Nat) (s : SocksApplication) : Attaches c s s :=
  ⟨rfl, fun _ _ => rfl, fun _ => rfl, rfl, rfl, rfl, rfl, rfl⟩

theorem Attaches.trans {c : Nat} (h : Attaches c s t) (h' : Attaches c t u) : Attaches c s u where
  self := by rw [h'.self, h.self]
  other := fun d hd => (h'.other d hd).trans (h.other d hd)
  stream := fun x => (h'.stream x).trans (h.stream x)
  waited := h'.waited.trans h.waited
  live := h'.live.trans h.live
  circuits := h'.circuits.trans h.circuits
  circuitCount := h'.circuitCount.trans h.circuitCount
  torReady := h'.torReady.trans h.torReady

/-- The stream is attached, or it is closed already. -/
def served (c : Nat) (app : SocksApplication) (x : Nat) : Bool :=
  (app.stream x).isDone || (!(app.circuit c).isDone && app.torReady)

theorem Attaches.served_eq {c : Nat} (h : Attaches c s t) : t.served c = s.served c := by
  funext x
  unfold served Circuit.isDone Circuit.isOpen
  rw [h.stream x, h.self, h.torReady]

theorem attachPending_attaches {c : Nat} (hready : (s.circuit c).isReady = true) (x : Nat) :
    Attaches c s (s.attachPending c x) ∧
      (s.attachPending c x).settled.map Prod.fst =
        s.settled.map Prod.fst ++ if s.served c x then [(c, x)] else [] := by
  unfold attachPending
  rcases attach_cases c x s with ⟨hattach, hfail⟩ | ⟨hstream, hopen, htor, hattach⟩
  · rw [hattach]
    dsimp only
    split
    · rename_i hdone
      have hserved : s.served c x = true := by simp [served, hdone]
      rw [if_pos hserved]
      exact ⟨⟨rfl, fun _ _ => rfl, fun _ => rfl, rfl, rfl, rfl, rfl, rfl⟩, List.map_append ..⟩
    · rename_i hdone
      have hserved : ¬s.served c x = true := by
        rcases hfail with h | h | h
        · exact absurd h hdone
        · simp [served, h, hdone]
        · simp [served, h, hdone]
      rw [if_neg hserved, List.append_nil]
      exact ⟨Attaches.refl c s, rfl⟩
  · rw [hattach, if_pos hready]
    have hserved : s.served c x = true := by simp [served, hopen, htor]
    rw [if_pos hserved]
    dsimp only
    refine ⟨⟨?_, fun d hd => ?_, fun y => ?_, rfl, rfl, rfl, rfl, rfl⟩, List.map_append ..⟩
    · simp [addStream]
    · simp [addStream, setCircuit_circuit, hd]
    · rw [settle_stream, setStream_stream]
      split
      · rename_i heq
        rw [heq]
        rfl
      · rfl

theorem attachPendings {c : Nat} (pending : List Nat) (hready : (s.circuit c).isReady = true) :
    Attaches c s (pending.foldl (attachPending c) s) ∧
      (pending.foldl (attachPending c) s).settled.map Prod.fst =
        s.settled.map Prod.fst ++ (pending.filter (s.served c)).map fun x => (c, x) := by
  induction pending generalizing s with
  | nil => exact ⟨Attaches.refl c s, (List.append_nil _).symm⟩
  | cons x pending ih =>
    obtain ⟨hfirst, hsettled⟩ := attachPending_attaches hready x
    have hready' : ((s.attachPending c x).circuit c).isReady = true := by
      rw [hfirst.self]
      exact hready
    obtain ⟨hrest, hrestSettled⟩ := ih hready'
    refine ⟨hfirst.trans hrest, ?_⟩
    rw [List.foldl_cons, hrestSettled, hsettled, hfirst.served_eq, List.append_assoc, List.filter_cons]
    split
    · rfl
    · rfl

/-- The circuit is ready, and the others stay as they are. -/
structure Readies (c : Nat) (s t : SocksApplication) : Prop where
  self : t.circuit c = { s.circuit c with
    status := .built, succeeded := true, streams := (t.circuit c).streams, pendingStreams := [], queuedDHTRequests := []
    builtDeferred := (s.circuit c).builtDeferred.or (some true) }
  other : ∀ d, d ≠ c → t.circuit d = s.circuit d
  waited : t.waited = s.waited
  settled : t.settled.map Prod.fst =
    s.settled.map Prod.fst ++ ((s.circuit c).pendingStreams.filter ((s.markReady c).served c)).map fun x => (c, x)
  live : t.liveCircuits = s.liveCircuits
  circuits : t.circuits = s.circuits
  circuitCount : t.circuitCount = s.circuitCount

theorem onParReady_readies (c : Nat) (s : SocksApplication) : Readies c s (s.onParReady c) := by
  have hready : ((s.markReady c).circuit c).isReady = true := by simp [markReady, Circuit.isReady]
  have hpending : ((s.markReady c).circuit c).pendingStreams = (s.circuit c).pendingStreams := by simp [markReady]
  have hother : ∀ d, d ≠ c → (s.markReady c).circuit d = s.circuit d := fun d hd => by
    unfold markReady
    rw [setCircuit_circuit, if_neg hd]
  obtain ⟨hattaches, hsettled⟩ := attachPendings (s.circuit c).pendingStreams hready
  unfold onParReady
  dsimp only
  rw [hpending]
  refine ⟨?_, fun d hd => ?_, hattaches.waited, hsettled, hattaches.live, hattaches.circuits, hattaches.circuitCount⟩
  · rw [setCircuit_circuit_self, hattaches.self]
    simp [markReady]
  · rw [setCircuit_circuit, if_neg hd, hattaches.other d hd, hother d hd]

/-- What became of the pending streams of the circuit. -/
theorem Readies.count_settled {c : Nat} (h : Readies c s t) (hcounted : s.Counted none) (d x : Nat) :
    (t.settled.map Prod.fst).count (d, x) = (s.settled.map Prod.fst).count (d, x) +
      if d = c ∧ x ∈ (s.circuit c).pendingStreams ∧ (s.markReady c).served c x then 1 else 0 := by
  have hinjective : Function.Injective fun x : Nat => (c, x) := fun x y heq => (Prod.mk.inj heq).2
  have hnodup : (s.circuit c).pendingStreams.Nodup := hcounted.nodup c
  rw [h.settled, List.count_append]
  congr 1
  by_cases hd : d = c
  · subst hd
    rw [List.count_map_of_injective _ _ hinjective, List.Nodup.count (hnodup.filter _)]
    simp
  · rw [List.count_eq_zero_of_not_mem, if_neg fun hc => hd hc.1]
    intro hmem
    obtain ⟨y, -, heq⟩ := List.mem_map.mp hmem
    exact hd (Prod.mk.inj heq).1.symm

theorem Readies.waiting_eq {c : Nat} (h : Readies c s t) (d : Nat) :
    t.waiting none d = if d = c then [] else s.waiting none d := by
  unfold waiting
  dsimp only
  split
  · rename_i heq
    rw [heq, h.self]
  · rename_i hne
    rw [h.other d hne]

/-- Nobody is forgotten exactly when every pending stream was attached or is closed. -/
theorem Readies.counted_iff {c : Nat} (h : Readies c s t) (hcounted : s.Counted none) :
    t.Counted none ↔ ∀ x ∈ (s.circuit c).pendingStreams, (s.markReady c).served c x = true := by
  constructor
  · intro ht x hx
    have hwaits : x ∈ s.waiting none c := hx
    have hs := hcounted.count c x
    have hcount := ht.count c x
    rw [h.waiting_eq, if_pos rfl, if_neg List.not_mem_nil, h.waited, h.count_settled hcounted, hs, if_pos hwaits] at hcount
    by_contra hserved
    rw [if_neg fun hc => hserved hc.2.2] at hcount
    omega
  · intro hall
    refine ⟨fun d x => ?_, fun d => ?_⟩
    · rw [h.waiting_eq, h.waited, h.count_settled hcounted, hcounted.count d x]
      by_cases hd : d = c
      · subst hd
        by_cases hx : x ∈ (s.circuit d).pendingStreams
        · simp [waiting, hx, hall x hx]
        · simp [waiting, hx]
      · simp [hd]
    · rw [h.waiting_eq]
      split
      · exact List.nodup_nil
      · exact hcounted.nodup d

/-! ### What holds in every state -/

/-- What holds of a circuit as long as nobody was left waiting. -/
structure Fine (app : SocksApplication) (c : Nat) : Prop where
  finished : (app.circuit c).isDone → c ∉ app.liveCircuits ∧ (app.circuit c).pendingStreams = [] ∧
    (app.circuit c).queuedDHTRequests = [] ∧ (app.circuit c).builtDeferred.isSome
  created : (app.circuit c).creationFailed = false
  closed : (app.circuit c).status = .closed ∨ (app.circuit c).status = .failed → (app.circuit c).done = true
  creating : (app.circuit c).creating = true →
    (app.circuit c).id = none ∧ (app.circuit c).parClient = false ∧ (app.circuit c).builtDeferred = none
  fresh : app.circuitCount ≤ c → (app.circuit c).pendingStreams = [] ∧ (app.circuit c).creating = false

structure Regular (app : SocksApplication) : Prop where
  circuit : ∀ c, app.Fine c
  counted : app.Counted none
  live : app.LiveMade

theorem isDone_of_done {circ : Circuit} (h : circ.done = true) : circ.isDone = true := by
  simp [Circuit.isDone, Circuit.isOpen, h]

theorem Fine.of_streams {d : Nat} (h : s.Fine d)
    (hcircuit : t.circuit d = { s.circuit d with
      streams := (t.circuit d).streams, pendingStreams := (t.circuit d).pendingStreams })
    (hshut : (s.circuit d).isDone ∨ s.circuitCount ≤ d →
      ∀ x ∈ (t.circuit d).pendingStreams, x ∈ (s.circuit d).pendingStreams)
    (hlive : d ∈ t.liveCircuits → d ∈ s.liveCircuits) (hcount : t.circuitCount = s.circuitCount) : t.Fine d := by
  have hnone : (s.circuit d).isDone ∨ s.circuitCount ≤ d → (s.circuit d).pendingStreams = [] →
      (t.circuit d).pendingStreams = [] := by
    intro hd hempty
    have hall := hshut hd
    rw [hempty] at hall
    exact List.eq_nil_iff_forall_not_mem.mpr fun x hx => List.not_mem_nil (hall x hx)
  have hisDone : (t.circuit d).isDone = (s.circuit d).isDone := by
    rw [hcircuit]
    rfl
  refine ⟨fun hdone => ?_, ?_, ?_, ?_, fun hfresh => ?_⟩
  · rw [hisDone] at hdone
    obtain ⟨hnotLive, hpending, hqueued, hbuilt⟩ := h.finished hdone
    refine ⟨fun hmem => hnotLive (hlive hmem), hnone (Or.inl hdone) hpending, ?_, ?_⟩
    · rw [hcircuit]
      exact hqueued
    · rw [hcircuit]
      exact hbuilt
  · rw [hcircuit]
    exact h.created
  · rw [hcircuit]
    exact h.closed
  · rw [hcircuit]
    exact h.creating
  · rw [hcount] at hfresh
    refine ⟨hnone (Or.inr hfresh) (h.fresh hfresh).1, ?_⟩
    rw [hcircuit]
    exact (h.fresh hfresh).2

theorem Keeps.regular (h : s.Keeps t) (hs : s.Regular) (hcounted : t.Counted none) : t.Regular where
  circuit := fun d => (hs.circuit d).of_streams (h.circuit d) (h.shut d) (h.live ▸ id) h.circuitCount
  counted := hcounted
  live := h.liveMade hs.live

/-- Nothing changes but for the streams themselves. -/
theorem Regular.of_same (h : s.Regular) (hcircuit : t.circuit = s.circuit) (hlive : t.liveCircuits = s.liveCircuits)
    (hcircuits : t.circuits = s.circuits) (hcount : t.circuitCount = s.circuitCount) (hwaited : t.waited = s.waited)
    (hsettled : t.settled = s.settled) : t.Regular := by
  have hkeeps : s.Keeps t :=
    ⟨fun c => by rw [hcircuit], fun c _ x hx => by rwa [hcircuit] at hx, hlive, hcircuits, hcount⟩
  refine hkeeps.regular h (h.counted.of_same (waiting_congr (fun c => ?_) none) hwaited hsettled)
  rw [hcircuit]

theorem Changes.regular {c : Nat} (h : Changes c s t) (hs : s.Regular) (hcounted : t.Counted none) (hc : t.Fine c) :
    t.Regular where
  circuit := fun d => by
    by_cases hd : d = c
    · exact hd ▸ hc
    · exact (hs.circuit d).of_streams (h.other d hd) (h.shut d hd) (h.live d) h.circuitCount
  counted := hcounted
  live := fun d hd => by
    rw [h.circuitCount]
    exact hs.live d (h.live d hd)

/-- A change of the circuit before. -/
theorem Changes.of_setCircuit {c : Nat} {f : Circuit → Circuit} (h : Changes c (s.setCircuit c f) t) : Changes c s t where
  other := fun d hd => by
    rw [h.other d hd, setCircuit_circuit, if_neg hd]
  shut := fun d hd hshut x hx => by
    have hcircuit : (s.setCircuit c f).circuit d = s.circuit d := by rw [setCircuit_circuit, if_neg hd]
    have hmem := h.shut d hd (by rwa [hcircuit]) x hx
    rwa [hcircuit] at hmem
  live := h.live
  circuits := h.circuits
  circuitCount := h.circuitCount

theorem setCircuit_changes (c : Nat) (f : Circuit → Circuit) (s : SocksApplication) : Changes c s (s.setCircuit c f) where
  other := fun d hd => by rw [setCircuit_circuit, if_neg hd]
  shut := fun d hd _ x hx => by rwa [setCircuit_circuit, if_neg hd] at hx
  live := fun _ h => h
  circuits := rfl
  circuitCount := rfl

theorem setCircuit_counted (h : s.Counted none) {c : Nat} {f : Circuit → Circuit}
    (hf : (f (s.circuit c)).pendingStreams = (s.circuit c).pendingStreams) : (s.setCircuit c f).Counted none := by
  refine h.of_same (waiting_congr (fun d => ?_) none) rfl rfl
  rw [setCircuit_circuit]
  split
  · rename_i heq
    rw [heq, hf]
  · rfl

/-- A circuit changes, but not its pending streams. -/
theorem setCircuit_regular (h : s.Regular) {c : Nat} {f : Circuit → Circuit}
    (hpending : (f (s.circuit c)).pendingStreams = (s.circuit c).pendingStreams)
    (hfinished : (f (s.circuit c)).isDone = true → (s.circuit c).isDone = true ∧
      (f (s.circuit c)).queuedDHTRequests = (s.circuit c).queuedDHTRequests)
    (hbuilt : (f (s.circuit c)).builtDeferred = (s.circuit c).builtDeferred)
    (hcreated : (f (s.circuit c)).creationFailed = (s.circuit c).creationFailed)
    (hclosed : (f (s.circuit c)).status = .closed ∨ (f (s.circuit c)).status = .failed → (f (s.circuit c)).done = true)
    (hcreating : (f (s.circuit c)).creating = true → (s.circuit c).creating = true ∧
      (f (s.circuit c)).id = (s.circuit c).id ∧ (f (s.circuit c)).parClient = (s.circuit c).parClient) :
    (s.setCircuit c f).Regular := by
  have hfine := h.circuit c
  refine (setCircuit_changes c f s).regular h (setCircuit_counted h.counted hpending) ?_
  refine ⟨fun hdone => ?_, ?_, fun hstatus => ?_, fun hagain => ?_, fun hfresh => ?_⟩
  · rw [setCircuit_circuit_self] at hdone ⊢
    obtain ⟨hbefore, hqueued⟩ := hfinished hdone
    rw [hpending, hqueued, hbuilt]
    exact hfine.finished hbefore
  · rw [setCircuit_circuit_self, hcreated]
    exact hfine.created
  · rw [setCircuit_circuit_self] at hstatus ⊢
    exact hclosed hstatus
  · rw [setCircuit_circuit_self] at hagain ⊢
    obtain ⟨hbefore, hid, hparClient⟩ := hcreating hagain
    rw [hid, hparClient, hbuilt]
    exact hfine.creating hbefore
  · rw [setCircuit_circuit_self, hpending]
    refine ⟨(hfine.fresh hfresh).1, ?_⟩
    cases hagain : (f (s.circuit c)).creating with
    | false => rfl
    | true => rw [← (hfine.fresh hfresh).2, (hcreating hagain).1]

/-- A circuit may end when it was ready before and no request is queued. -/
def MayEnd (c : Nat) (app : SocksApplication) : Prop :=
  (app.circuit c).done = false →
    (app.circuit c).builtDeferred.isSome ∧ (app.circuit c).queuedDHTRequests = []

/-- The pending streams of a circuit can be attached or are closed. -/
def MayBeReady (c : Nat) (app : SocksApplication) : Prop :=
  ∀ x ∈ (app.circuit c).pendingStreams, app.torReady = true ∨ (app.stream x).isDone = true

theorem Ends.fine {c : Nat} (h : Ends c s t) (hs : s.Fine c) (hbuilt : (s.circuit c).builtDeferred.isSome)
    (hqueued : (s.circuit c).queuedDHTRequests = []) : t.Fine c := by
  obtain ⟨status, streams, hself⟩ := h.self
  refine ⟨fun _ => ⟨h.notLive, ?_, ?_, ?_⟩, ?_, fun _ => ?_, ?_, fun hfresh => ⟨?_, ?_⟩⟩
  · rw [hself]
  · rw [hself]
    exact hqueued
  · rw [hself]
    exact hbuilt
  · rw [hself]
    exact hs.created
  · rw [hself]
  · rw [hself]
    exact hs.creating
  · rw [hself]
  · rw [h.circuitCount] at hfresh
    rw [hself]
    exact (hs.fresh hfresh).2

/-- What on_done leaves is asked for by nobody exactly when the circuit may end. -/
theorem Ends.mayEnd {c : Nat} (h : Ends c s t)
    (ht : (t.circuit c).isDone → (t.circuit c).queuedDHTRequests = [] ∧ (t.circuit c).builtDeferred.isSome) :
    s.MayEnd c := by
  intro _
  obtain ⟨status, streams, hself⟩ := h.self
  have hdone : (t.circuit c).isDone = true := isDone_of_done (by rw [hself])
  obtain ⟨hqueued, hbuilt⟩ := ht hdone
  rw [hself] at hqueued hbuilt
  exact ⟨hbuilt, hqueued⟩

/-- A finished circuit leaves nobody waiting, and no stream that waited is forgotten. -/
structure LeavesNobody (app : SocksApplication) : Prop where
  finished : ∀ c, (app.circuit c).isDone ∨ (app.circuit c).creationFailed →
    c ∉ app.liveCircuits ∧ (app.circuit c).pendingStreams = [] ∧ (app.circuit c).queuedDHTRequests = [] ∧
      (app.circuit c).builtDeferred.isSome
  settled : ∀ c x, app.waited.count (c, x) = (app.settled.map Prod.fst).count (c, x) +
    if x ∈ (app.circuit c).pendingStreams then 1 else 0

theorem Regular.leavesNobody (h : s.Regular) : s.LeavesNobody where
  finished := fun c hc => by
    rcases hc with hdone | hfailed
    · exact (h.circuit c).finished hdone
    · rw [(h.circuit c).created] at hfailed
      cases hfailed
  settled := h.counted.count

/-- A step that leaves nobody waiting under the condition, and only then. -/
structure Agrees (t : SocksApplication) (P : Prop) : Prop where
  regular : P → t.Regular
  needed : t.LeavesNobody → P

/-- Who asks for a finished circuit gets an answer. -/
theorem LeavesNobody.getBuiltDeferred (h : s.LeavesNobody) {c : Nat}
    (hc : (s.circuit c).isDone ∨ (s.circuit c).creationFailed) : (s.circuit c).getBuiltDeferred.isSome := by
  unfold Circuit.getBuiltDeferred
  split
  · rfl
  · exact (h.finished c hc).2.2.2

theorem Regular.agrees (h : t.Regular) : Agrees t True := ⟨fun _ => h, fun _ => trivial⟩

/-- `on_done`, after a change of the status. -/
theorem onDone_agrees (h : s.Regular) (c : Nat) (status : CircStatus) (best : List (Nat × Nat)) :
    Agrees ((s.setCircuit c fun circ => { circ with status := status }).onDone c best) (s.MayEnd c) := by
  cases hdone : (s.circuit c).done with
  | true =>
    have hsame : (s.setCircuit c fun circ => { circ with status := status }).onDone c best =
        s.setCircuit c fun circ => { circ with status := status } := by
      unfold onDone
      rw [setCircuit_circuit_self, if_pos hdone]
    rw [hsame]
    refine ⟨fun _ => ?_, fun _ hopen => ?_⟩
    · exact setCircuit_regular h rfl (fun _ => ⟨isDone_of_done hdone, rfl⟩) rfl rfl (fun _ => hdone)
        fun hcreating => ⟨hcreating, rfl, rfl⟩
    · rw [hdone] at hopen
      cases hopen
  | false =>
    have hcounted : (s.setCircuit c fun circ => { circ with status := status }).Counted none :=
      setCircuit_counted h.counted rfl
    have hopen : ((s.setCircuit c fun circ => { circ with status := status }).circuit c).done = false := by
      rw [setCircuit_circuit_self]
      exact hdone
    have hlive : (s.setCircuit c fun circ => { circ with status := status }).LiveMade := h.live
    have hends := onDone_ends hlive best hopen
    have hcounted' := onDone_counted hcounted hlive best hopen
    have hends' : Ends c s ((s.setCircuit c fun circ => { circ with status := status }).onDone c best) := by
      obtain ⟨status', streams, hself⟩ := hends.self
      refine ⟨hends.toChanges.of_setCircuit, ⟨status', streams, ?_⟩, hends.notLive⟩
      rw [hself, setCircuit_circuit_self]
    refine ⟨fun hmay => ?_, fun ht => ?_⟩
    · obtain ⟨hbuilt, hqueued⟩ := hmay hdone
      exact hends'.regular h hcounted' (hends'.fine (h.circuit c) hbuilt hqueued)
    · exact hends'.mayEnd fun hd => (ht.finished c (Or.inl hd)).2.2

theorem setCircuit_status_self (c : Nat) (s : SocksApplication) :
    (s.setCircuit c fun circ => { circ with status := (s.circuit c).status }) = s := by
  unfold setCircuit
  rw [Function.update_eq_self]

theorem Readies.changes {c : Nat} (h : Readies c s t) : Changes c s t where
  other := fun d hd => by rw [h.other d hd]
  shut := fun d hd _ x hx => by rwa [h.other d hd] at hx
  live := fun d hd => by rwa [h.live] at hd
  circuits := h.circuits
  circuitCount := h.circuitCount

theorem Readies.fine {c : Nat} (h : Readies c s t) (hs : s.Fine c) (hcreating : (s.circuit c).creating = false) :
    t.Fine c := by
  refine ⟨fun hdone => ⟨?_, ?_, ?_, ?_⟩, ?_, fun hstatus => ?_, fun hc => ?_, fun _ => ⟨?_, ?_⟩⟩
  · have hdone' : (s.circuit c).done = true := by
      rw [h.self] at hdone
      simpa [Circuit.isDone, Circuit.isOpen] using hdone
    rw [h.live]
    exact (hs.finished (isDone_of_done hdone')).1
  · rw [h.self]
  · rw [h.self]
  · rw [h.self]
    simp
  · rw [h.self]
    exact hs.created
  · rw [h.self] at hstatus
    simp at hstatus
  · rw [h.self, hcreating] at hc
    cases hc
  · rw [h.self]
  · rw [h.self]
    exact hcreating

theorem served_iff {c x : Nat} (h : s.Fine c) (hx : x ∈ (s.circuit c).pendingStreams) :
    (s.markReady c).served c x = true ↔ s.torReady = true ∨ (s.stream x).isDone = true := by
  have hopen : (s.circuit c).done = false := by
    cases hdone : (s.circuit c).done with
    | false => rfl
    | true =>
      rw [(h.finished (isDone_of_done hdone)).2.1] at hx
      exact absurd hx List.not_mem_nil
  simp [served, markReady, Circuit.isDone, Circuit.isOpen, hopen, or_comm]

/-- `on_par_ready`, after a change of the status. -/
theorem onParReady_agrees (h : s.Regular) {c : Nat} (hcreating : (s.circuit c).creating = false) (status : CircStatus) :
    Agrees ((s.setCircuit c fun circ => { circ with status := status }).onParReady c) (s.MayBeReady c) := by
  have hmark : (s.setCircuit c fun circ => { circ with status := status }).markReady c = s.markReady c := by
    unfold markReady setCircuit
    simp
  have hsame : (s.setCircuit c fun circ => { circ with status := status }).onParReady c = s.onParReady c := by
    unfold onParReady
    rw [hmark]
  rw [hsame]
  have hreadies := onParReady_readies c s
  have hiff : (s.onParReady c).Counted none ↔ s.MayBeReady c := by
    rw [hreadies.counted_iff h.counted]
    exact forall₂_congr fun x hx => served_iff (h.circuit c) hx
  refine ⟨fun hmay => ?_, fun ht => hiff.mp ⟨ht.settled, fun d => ?_⟩⟩
  · exact hreadies.changes.regular h (hiff.mpr hmay) (hreadies.fine (h.circuit c) hcreating)
  · rw [hreadies.waiting_eq]
    split
    · exact List.nodup_nil
    · exact h.counted.nodup d

/-! ### Events of streams -/

theorem removeStream_keeps (c x : Nat) (outcome : Outcome) (app : SocksApplication) :
    app.Keeps (app.removeStream c x outcome) := by
  unfold removeStream
  split
  · exact keeps_of_streams app rfl fun _ _ h => h
  · split
    · exact (keeps_of_streams (c := c) (f := fun circ => { circ with pendingStreams := circ.pendingStreams.erase x })
        app rfl fun _ _ h => List.mem_of_mem_erase h).trans (settle_keeps c x outcome _)
    · exact Keeps.refl app

theorem removeStream_counted (h : s.Counted none) (c x : Nat) (outcome : Outcome) :
    (s.removeStream c x outcome).Counted none := by
  unfold removeStream
  split
  · exact setCircuit_counted h rfl
  · split
    · rename_i hmem
      have hleave := h.leave (List.perm_cons_erase hmem).symm
      exact (settle_counted hleave outcome).stay (f := fun circ =>
        { circ with pendingStreams := circ.pendingStreams.erase x }) rfl
    · exact h

theorem leaveCircuit_keeps (x : Nat) (outcome : Outcome) (app : SocksApplication) :
    app.Keeps (app.leaveCircuit x outcome) := by
  unfold leaveCircuit
  split
  · exact Keeps.refl app
  · exact (removeStream_keeps _ x outcome app).trans (setStream_keeps x _ _)

theorem leaveCircuit_counted (h : s.Counted none) (x : Nat) (outcome : Outcome) :
    (s.leaveCircuit x outcome).Counted none := by
  unfold leaveCircuit
  split
  · exact h
  · exact setStream_counted (removeStream_counted h _ x outcome) x _

theorem takeCircuit_keeps (x : Nat) (circId : Option Nat) (app : SocksApplication) :
    app.Keeps (app.takeCircuit x circId).1 := by
  unfold takeCircuit
  split
  · exact Keeps.refl app
  · split
    · exact setStream_keeps x (fun stream => { stream with circuit := none }) app
    · rename_i c _
      exact (setStream_keeps x (fun stream => { stream with circuit := some c }) app).trans (addStream_keeps c x _)

theorem takeCircuit_counted (h : s.Counted none) (x : Nat) (circId : Option Nat) :
    (s.takeCircuit x circId).1.Counted none := by
  unfold takeCircuit
  split
  · exact h
  · split
    · exact setStream_counted h x fun stream => { stream with circuit := none }
    · rename_i c _
      exact addStream_counted (setStream_counted h x fun stream => { stream with circuit := some c }) c x

theorem handleStream_regular (h : s.Regular) (x : Nat) (best : Option Nat) : (s.handleStream x best).Regular :=
  (handleStream_keeps h.live x best).regular h
    (handleStream_counted h.counted x best fun _ _ heq => by cases heq)

theorem attach_regular (h : s.Regular) {c : Nat} (hlt : c < s.circuitCount) (x : Nat) : (s.attach c x).1.Regular :=
  (attach_keeps hlt x).regular h (attach_counted h.counted c x fun _ _ heq => by cases heq)

theorem setStream_regular (h : s.Regular) (x : Nat) (g : Stream → Stream) : (s.setStream x g).Regular :=
  (setStream_keeps x g s).regular h (setStream_counted h.counted x g)

theorem streamStatusEvent_keeps (hlive : s.LiveMade) (x : Nat) (status : StreamStatus) (circId best : Option Nat) :
    s.Keeps (s.streamStatusEvent x status circId best) := by
  have htaken := (setStream_keeps x (fun stream => { stream with status := status }) s).trans
    (takeCircuit_keeps x circId _)
  unfold streamStatusEvent
  dsimp only
  generalize takeCircuit x circId _ = taken at htaken
  obtain ⟨app, known⟩ := taken
  have hleft := fun outcome => htaken.trans (leaveCircuit_keeps x outcome app)
  cases known with
  | false => exact htaken
  | true =>
    dsimp only
    split
    · split
      · exact (hleft .detachHandler).trans (handleStream_keeps ((hleft .detachHandler).liveMade hlive) x best)
      · exact hleft .closed
    · exact hleft .closed
    · exact hleft .closed
    · exact htaken

theorem streamStatusEvent_counted (h : s.Counted none) (x : Nat) (status : StreamStatus) (circId best : Option Nat) :
    (s.streamStatusEvent x status circId best).Counted none := by
  have htaken := takeCircuit_counted (setStream_counted h x fun stream => { stream with status := status }) x circId
  unfold streamStatusEvent
  dsimp only
  generalize takeCircuit x circId _ = taken at htaken
  obtain ⟨app, known⟩ := taken
  cases known with
  | false => exact htaken
  | true =>
    dsimp only at htaken ⊢
    split
    · split
      · exact handleStream_counted (leaveCircuit_counted htaken x .detachHandler) x best fun _ _ heq => by cases heq
      · exact leaveCircuit_counted htaken x .closed
    · exact leaveCircuit_counted htaken x .closed
    · exact leaveCircuit_counted htaken x .closed
    · exact htaken

theorem streamStatusEvent_regular (h : s.Regular) (x : Nat) (status : StreamStatus) (circId best : Option Nat) :
    (s.streamStatusEvent x status circId best).Regular :=
  (streamStatusEvent_keeps h.live x status circId best).regular h (streamStatusEvent_counted h.counted x status circId best)

/-! ### Steps -/

/-- An event does not end the circuit before it was ready or with a request that is queued, nor make
it ready with pending streams while Tor is not. -/
def EventOrderly (c : Nat) (event : CircEvent) (app : SocksApplication) : Prop :=
  match event with
  | .closed | .failed => app.MayEnd c
  | .built =>
    if (app.circuit c).isBitBlinderCircuit && (app.circuit c).sendPayments then app.torReady = false → app.MayEnd c
    else app.MayBeReady c
  | .launched | .extended => True

/-- No creation of a circuit fails, no circuit is first heard of when it is over, none ends before it
was ready or with a request that is queued, and Tor is ready when a circuit with pending streams
becomes ready. -/
def Orderly (app : SocksApplication) : AppAction → Prop
  | .creationFailure _ => False
  | .circEvent id event _ =>
    match app.getCircuit id with
    | none => event ≠ .closed ∧ event ≠ .failed
    | some c => app.EventOrderly c event
  | .parReady c => app.MayBeReady c
  | .parFailed c _ | .close c _ => app.MayEnd c
  | .createCircuit _ | .creationSuccess .. | .newStream .. | .streamEvent .. | .handleStream .. | .circuitHandleStream ..
  | .attach .. | .sendDhtRequest .. | .torReady _ => True

theorem getCircuit_id {id c : Nat} (h : s.getCircuit id = some c) : (s.circuit c).id = some id := by
  have hfound := List.find?_some h
  simpa using hfound

/-- A circuit with an id is not being created. -/
theorem getCircuit_creating {id c : Nat} (hs : s.Regular) (h : s.getCircuit id = some c) :
    (s.circuit c).creating = false := by
  cases hcreating : (s.circuit c).creating with
  | false => rfl
  | true =>
    have hid := ((hs.circuit c).creating hcreating).1
    rw [getCircuit_id h] at hid
    cases hid

theorem setStatus_regular (h : s.Regular) (c : Nat) {status : CircStatus} (hstatus : status ≠ .closed ∧ status ≠ .failed) :
    (s.setCircuit c fun circ => { circ with status := status }).Regular := by
  refine setCircuit_regular h rfl (fun hdone => ⟨?_, rfl⟩) rfl rfl (fun hclosed => ?_) fun hcreating => ⟨hcreating, rfl, rfl⟩
  · have hdone' : (s.circuit c).done = true := by
      simpa [Circuit.isDone, Circuit.isOpen, hstatus.1, hstatus.2] using hdone
    exact isDone_of_done hdone'
  · exact absurd hclosed (not_or.mpr hstatus)

theorem setStatus_setStatus (c : Nat) (status status' : CircStatus) (s : SocksApplication) :
    ((s.setCircuit c fun circ => { circ with status := status }).setCircuit c fun circ =>
      { circ with status := status' }) = s.setCircuit c fun circ => { circ with status := status' } := by
  unfold setCircuit
  simp

theorem circStatusEvent_agrees (h : s.Regular) {c id : Nat} (hget : s.getCircuit id = some c) (event : CircEvent)
    (best : List (Nat × Nat)) : Agrees (s.circStatusEvent c event best) (s.EventOrderly c event) := by
  cases event with
  | launched => exact (setStatus_regular h c (by decide)).agrees
  | extended => exact (setStatus_regular h c (by decide)).agrees
  | closed => exact onDone_agrees h c _ best
  | failed => exact onDone_agrees h c _ best
  | built =>
    rw [circStatusEvent, EventOrderly, setCircuit_circuit_self]
    dsimp only
    split
    · rw [setStatus_setStatus, setCircuit_torReady]
      cases htor : s.torReady with
      | true => exact ⟨fun _ => setStatus_regular h c (by decide), fun _ habsurd => absurd habsurd (by decide)⟩
      | false =>
        have hdone := onDone_agrees h c .parSetup best
        exact ⟨fun hmay => hdone.regular (hmay rfl), fun ht _ => hdone.needed ht⟩
    · exact onParReady_agrees h (getCircuit_creating h hget) _

theorem newCircuit_counted (h : s.Regular) {circ : Circuit} (hpending : circ.pendingStreams = []) :
    (s.newCircuit circ).Counted none := by
  have hcounted : (s.setCircuit s.circuitCount fun _ => circ).Counted none :=
    setCircuit_counted h.counted (hpending.trans ((h.circuit _).fresh (Nat.le_refl _)).1.symm)
  exact hcounted.of_same rfl rfl rfl

theorem newCircuit_regular (h : s.Regular) {circ : Circuit} (hopen : circ.isDone = false)
    (hpending : circ.pendingStreams = []) (hcreated : circ.creationFailed = false)
    (hcreating : circ.creating = true → circ.id = none ∧ circ.parClient = false ∧ circ.builtDeferred = none) :
    (s.newCircuit circ).Regular := by
  have hself : (s.newCircuit circ).circuit s.circuitCount = circ := by
    unfold newCircuit
    exact setCircuit_circuit_self s.circuitCount (fun _ => circ) s
  have hother : ∀ d, d ≠ s.circuitCount → (s.newCircuit circ).circuit d = s.circuit d := fun d hd => by
    unfold newCircuit
    dsimp only
    rw [setCircuit_circuit, if_neg hd]
  have hlive : ∀ d ∈ (s.newCircuit circ).liveCircuits, d ∈ s.liveCircuits ∨ d = s.circuitCount := by
    intro d hd
    unfold newCircuit at hd
    dsimp only at hd
    split at hd
    · exact (List.mem_append.mp hd).imp_right List.mem_singleton.mp
    · exact Or.inl hd
  refine ⟨fun d => ?_, newCircuit_counted h hpending, fun d hd => ?_⟩
  · by_cases hd : d = s.circuitCount
    · subst hd
      refine ⟨fun hdone => ?_, ?_, fun hclosed => ?_, ?_, fun hfresh => ?_⟩
      · rw [hself, hopen] at hdone
        cases hdone
      · rw [hself]
        exact hcreated
      · rw [hself] at hclosed
        have hdone : circ.isDone = true := by
          rcases hclosed with hclosed | hclosed <;> simp [Circuit.isDone, Circuit.isOpen, hclosed]
        rw [hopen] at hdone
        cases hdone
      · rw [hself]
        exact hcreating
      · exact absurd hfresh (Nat.not_succ_le_self _)
    · have hfine := h.circuit d
      refine ⟨fun hdone => ?_, ?_, ?_, ?_, fun hfresh => ?_⟩
      · rw [hother d hd] at hdone ⊢
        obtain ⟨hnotLive, hrest⟩ := hfine.finished hdone
        exact ⟨fun hmem => (hlive d hmem).elim hnotLive hd, hrest⟩
      · rw [hother d hd]
        exact hfine.created
      · rw [hother d hd]
        exact hfine.closed
      · rw [hother d hd]
        exact hfine.creating
      · rw [hother d hd]
        exact hfine.fresh (Nat.le_of_succ_le hfresh)
  · rcases hlive d hd with hmem | rfl
    · exact Nat.lt_succ_of_lt (h.live d hmem)
    · exact Nat.lt_succ_self _

/-- A circuit that is being created is not done. -/
theorem Fine.open_of_creating {c : Nat} (h : s.Fine c) (hcreating : (s.circuit c).creating = true) :
    (s.circuit c).done = false := by
  cases hdone : (s.circuit c).done with
  | false => rfl
  | true =>
    have hbuilt := (h.finished (isDone_of_done hdone)).2.2.2
    rw [(h.creating hcreating).2.2] at hbuilt
    cases hbuilt

theorem creationSuccess_regular (h : s.Regular) {c : Nat} (hcreating : (s.circuit c).creating = true) (id : Nat)
    (best : List (Nat × Nat)) :
    ((s.setCircuit c fun circ => { circ with creating := false }).onLearnedId c id best).Regular := by
  have hfine := h.circuit c
  have hopen := hfine.open_of_creating hcreating
  have hlearned : (s.setCircuit c fun circ => { circ with creating := false }).onLearnedId c id best =
      s.setCircuit c fun circ => { circ with creating := false, id := some id, parClient := true } := by
    unfold onLearnedId setCircuit
    simp [hopen]
  rw [hlearned]
  exact setCircuit_regular h rfl (fun hdone => ⟨hdone, rfl⟩) rfl rfl hfine.closed fun hagain => by cases hagain

theorem creationFailure_leaves (h : s.Regular) {c : Nat} (hcreating : (s.circuit c).creating = true)
    (hself : t.circuit c = { s.circuit c with creating := false, creationFailed := true }) : ¬t.LeavesNobody := by
  intro ht
  have hbuilt := (ht.finished c (Or.inr (by rw [hself]))).2.2.2
  rw [hself] at hbuilt
  dsimp only at hbuilt
  rw [((h.circuit c).creating hcreating).2.2] at hbuilt
  cases hbuilt

theorem newCircuit_circuit_self (circ : Circuit) (app : SocksApplication) :
    (app.newCircuit circ).circuit app.circuitCount = circ := by
  unfold newCircuit
  exact setCircuit_circuit_self app.circuitCount (fun _ => circ) app

theorem observe_agrees (h : s.Regular) (id : Nat) (event : CircEvent) :
    Agrees (s.newCircuit (.observe id event)) (event ≠ .closed ∧ event ≠ .failed) := by
  refine ⟨fun hevent => ?_, fun ht => ?_⟩
  · refine newCircuit_regular h ?_ rfl rfl fun hcreating => ?_
    · cases event with
      | launched | extended | built => rfl
      | closed => exact absurd rfl hevent.1
      | failed => exact absurd rfl hevent.2
    · cases hcreating
  · rw [← not_or]
    intro hover
    have hself := newCircuit_circuit_self (.observe id event) s
    have hdone : ((s.newCircuit (.observe id event)).circuit s.circuitCount).isDone = true := by
      rw [hself]
      exact isDone_of_done (decide_eq_true hover)
    have hbuilt := (ht.finished s.circuitCount (Or.inl hdone)).2.2.2
    rw [hself] at hbuilt
    cases hbuilt

theorem sendDhtRequest_regular (h : s.Regular) {c : Nat} (hopen : (s.circuit c).isDone = false) (request : Nat) :
    (s.setCircuit c fun circ => { circ with queuedDHTRequests := circ.queuedDHTRequests ++ [request] }).Regular := by
  refine setCircuit_regular h rfl (fun hdone => ?_) rfl rfl (h.circuit c).closed fun hcreating => ⟨hcreating, rfl, rfl⟩
  exact absurd hdone (ne_true_of_eq_false hopen)

/-- `on_done` alone. -/
theorem onDone_agrees_self (h : s.Regular) (c : Nat) (best : List (Nat × Nat)) :
    Agrees (s.onDone c best) (s.MayEnd c) := by
  have hagrees := onDone_agrees h c (s.circuit c).status best
  rwa [setCircuit_status_self] at hagrees

theorem step_agrees (h : s.Regular) {action : AppAction} (hstep : s.step action = some t) :
    Agrees t (s.Orderly action) := by
  cases action with
  | createCircuit sendPayments =>
    obtain rfl := Option.some.inj hstep
    exact (newCircuit_regular h rfl rfl rfl fun _ => ⟨rfl, rfl, rfl⟩).agrees
  | creationSuccess c id best =>
    obtain ⟨hcreating, ⟨⟩⟩ := Option.ite_none_right_eq_some.mp hstep
    exact (creationSuccess_regular h hcreating id best).agrees
  | creationFailure c =>
    obtain ⟨hcreating, ⟨⟩⟩ := Option.ite_none_right_eq_some.mp hstep
    refine ⟨False.elim, creationFailure_leaves h hcreating ?_⟩
    exact setCircuit_circuit_self c (fun circ => { circ with creating := false, creationFailed := true }) s
  | circEvent id event best =>
    rw [step] at hstep
    cases hget : s.getCircuit id with
    | none =>
      rw [hget] at hstep
      obtain rfl := Option.some.inj hstep
      rw [Orderly, hget]
      exact observe_agrees h id event
    | some c =>
      rw [hget] at hstep
      obtain rfl := Option.some.inj hstep
      rw [Orderly, hget]
      exact circStatusEvent_agrees h hget event best
  | parReady c =>
    obtain ⟨hparClient, ⟨⟩⟩ := Option.ite_none_right_eq_some.mp hstep
    have hcreating : (s.circuit c).creating = false := by
      cases hcreating : (s.circuit c).creating with
      | false => rfl
      | true =>
        rw [((h.circuit c).creating hcreating).2.1] at hparClient
        cases hparClient
    have hagrees := onParReady_agrees h hcreating (s.circuit c).status
    rwa [setCircuit_status_self] at hagrees
  | parFailed c best =>
    obtain ⟨-, ⟨⟩⟩ := Option.ite_none_right_eq_some.mp hstep
    exact onDone_agrees_self h c best
  | close c best =>
    obtain ⟨-, ⟨⟩⟩ := Option.ite_none_right_eq_some.mp hstep
    exact onDone_agrees_self h c best
  | newStream resolve detachHandler =>
    obtain rfl := Option.some.inj hstep
    refine Regular.agrees ?_
    exact h.of_same rfl rfl rfl rfl rfl rfl
  | streamEvent x status circId best =>
    obtain ⟨-, ⟨⟩⟩ := Option.ite_none_right_eq_some.mp hstep
    exact (streamStatusEvent_regular h x status circId best).agrees
  | handleStream x best =>
    obtain ⟨-, ⟨⟩⟩ := Option.ite_none_right_eq_some.mp hstep
    exact (handleStream_regular h x best).agrees
  | circuitHandleStream c x =>
    obtain ⟨hlt, ⟨⟩⟩ := Option.ite_none_right_eq_some.mp hstep
    exact (attach_regular (setStream_regular h x _) hlt.1 x).agrees
  | attach c x =>
    obtain ⟨hlt, ⟨⟩⟩ := Option.ite_none_right_eq_some.mp hstep
    exact (attach_regular h hlt.1 x).agrees
  | sendDhtRequest c request =>
    obtain ⟨⟨-, hopen⟩, ⟨⟩⟩ := Option.ite_none_right_eq_some.mp hstep
    split
    · exact h.agrees
    · exact (sendDhtRequest_regular h hopen request).agrees
  | torReady ready =>
    obtain rfl := Option.some.inj hstep
    refine Regular.agrees ?_
    exact h.of_same rfl rfl rfl rfl rfl rfl

theorem initial_regular : initial.Regular where
  circuit := fun c => by
    refine ⟨fun hdone => ?_, rfl, fun hclosed => ?_, fun hcreating => ?_, fun _ => ⟨rfl, rfl⟩⟩
    · cases hdone
    · rcases hclosed with hclosed | hclosed
      · cases hclosed
      · cases hclosed
    · cases hcreating
  counted := ⟨fun _ _ => rfl, fun _ => List.nodup_nil⟩
  live := fun c hc => absurd hc List.not_mem_nil

end

/-- In every run nobody is left waiting by a finished circuit exactly when its steps are orderly. -/
theorem leaves_nobody_iff {actions : List AppAction} {s : SocksApplication}
    (hrun : Run step (fun _ _ => True) initial actions s) :
    (∀ start t, start <+: actions → Run step (fun _ _ => True) initial start t → t.LeavesNobody) ↔
      EachStep step Orderly initial actions :=
  hrun.forall_prefix_iff (I := Regular) Regular.leavesNobody
    (fun h hstep horderly => (step_agrees h hstep).regular horderly)
    (fun h hstep ht => (step_agrees h hstep).needed ht) initial_regular

instance (c : Nat) (app : SocksApplication) : Decidable (app.MayEnd c) :=
  inferInstanceAs (Decidable (_ → _ ∧ _))

instance (c : Nat) (app : SocksApplication) : Decidable (app.MayBeReady c) :=
  inferInstanceAs (Decidable (∀ x ∈ (app.circuit c).pendingStreams, app.torReady = true ∨ (app.stream x).isDone = true))

instance decidableEventOrderly (c : Nat) (app : SocksApplication) : ∀ event, Decidable (app.EventOrderly c event)
  | .closed | .failed => inferInstanceAs (Decidable (app.MayEnd c))
  | .built => inferInstanceAs (Decidable (if (app.circuit c).isBitBlinderCircuit && (app.circuit c).sendPayments then
      app.torReady = false → app.MayEnd c else app.MayBeReady c))
  | .launched | .extended => isTrue trivial

instance decidableOrderly (app : SocksApplication) : ∀ action, Decidable (app.Orderly action)
  | .creationFailure _ => isFalse id
  | .circEvent id event _ =>
    show Decidable (match app.getCircuit id with
      | none => event ≠ .closed ∧ event ≠ .failed
      | some c => app.EventOrderly c event) from
    match app.getCircuit id with
    | none => inferInstanceAs (Decidable (event ≠ .closed ∧ event ≠ .failed))
    | some c => decidableEventOrderly c app event
  | .parReady c => inferInstanceAs (Decidable (app.MayBeReady c))
  | .parFailed c _ | .close c _ => inferInstanceAs (Decidable (app.MayEnd c))
  | .createCircuit _ | .creationSuccess .. | .newStream .. | .streamEvent .. | .handleStream .. | .circuitHandleStream ..
  | .attach .. | .sendDhtRequest .. | .torReady _ => isTrue trivial

/-- A stream waits for the circuit and is attached to it. -/
def exampleActions : List AppAction :=
  [.createCircuit true, .newStream false true, .handleStream 0 (some 0), .creationSuccess 0 5 [],
    .sendDhtRequest 0 9, .circEvent 5 .launched [], .circEvent 5 .extended [], .circEvent 5 .built [], .parReady 0,
    .streamEvent 0 .succeeded (some 5) none, .close 0 [], .circEvent 5 .closed [],
    .streamEvent 0 .closed (some 5) none]

theorem example_leaves_nobody : ∃ s, Run step (fun _ _ => True) initial exampleActions s ∧
    (s.circuit 0).isDone = true ∧ s.settled = [((0, 0), .attached)] ∧
    ∀ start t, start <+: exampleActions → Run step (fun _ _ => True) initial start t → t.LeavesNobody := by
  have hend : (exec step initial exampleActions).any
      (fun s => (s.circuit 0).isDone && decide (s.settled = [((0, 0), .attached)])) = true := by
    decide
  have horderly : EachStep step Orderly initial exampleActions := by decide
  obtain ⟨s, hrun, hs⟩ := exists_run hend (eachStep_true _ _)
  obtain ⟨hdone, hsettled⟩ := Bool.and_eq_true_iff.mp hs
  exact ⟨s, hrun, hdone, of_decide_eq_true hsettled, (leaves_nobody_iff hrun).mpr horderly⟩

/-- Who waits for the circuit to be built does so for ever, and so does the request. -/
theorem failed_circuit_keeps_waiters : ∃ s, Run step (fun _ _ => True) initial
      [.createCircuit true, .creationSuccess 0 5 [], .sendDhtRequest 0 9, .circEvent 5 .failed []] s ∧
    (s.circuit 0).isDone = true ∧ (s.circuit 0).builtDeferred = none ∧
    (s.circuit 0).queuedDHTRequests = [9] ∧ ¬s.LeavesNobody := by
  have hend : (exec step initial
      [.createCircuit true, .creationSuccess 0 5 [], .sendDhtRequest 0 9, .circEvent 5 .failed []]).any
      (fun s => decide ((s.circuit 0).isDone = true ∧ (s.circuit 0).builtDeferred = none ∧
        (s.circuit 0).queuedDHTRequests = [9])) = true := by
    decide
  obtain ⟨s, hrun, hs⟩ := exists_run hend (eachStep_true _ _)
  obtain ⟨hdone, hbuilt, hqueued⟩ := of_decide_eq_true hs
  refine ⟨s, hrun, hdone, hbuilt, hqueued, fun hleaves => ?_⟩
  have hfired := (hleaves.finished 0 (Or.inl hdone)).2.2.2
  rw [hbuilt] at hfired
  cases hfired

end SocksApplication

end BitBlinder.Tor.Socks
