import BitBlinder.BitTorrent.JashEncoder

/-!
# The peers that are complete

`JashConnecter` lists the peers whose handshake is done. They enter it when their id
is found to be new, which may close others, and leave it when they are severed.
-/

namespace BitBlinder.BitTorrent.JashEncoder

open Effects

set_option autoImplicit false

variable {config : EncoderConfig} {env : EncoderContext} {s t : JashEncoder} {j k : Nat}
  {f : BTProtocol → BTProtocol}

@[simp] theorem update_self : (update k f s).protocols k = f (s.protocols k) := Function.update_self ..

@[simp] theorem update_of_ne (h : j ≠ k) : (update k f s).protocols j = s.protocols j :=
  Function.update_of_ne h ..

/-! ## What closing does -/

/-- A connection that is taken from the lists. -/
def dropped (k : Nat) (s : JashEncoder) : JashEncoder :=
  { s with
    connections := s.connections.erase k
    connecter :=
      if (s.protocols k).complete then
        ⟨s.connecter.connections.erase k, s.connecter.made, s.connecter.lost ++ [k]⟩
      else s.connecter }

def severed (k : Nat) (s : JashEncoder) : JashEncoder :=
  let t := s.update k fun p => { p with closed := true }
  if (s.protocols k).encoder = .own then t.dropped k else t

def shut (k : Nat) (s : JashEncoder) : JashEncoder :=
  if (s.protocols k).closed then s
  else (s.update k fun p => { p with reading := false }).severed k

def shutEach (ks : List Nat) (s : JashEncoder) : JashEncoder := ks.foldl (fun s k => s.shut k) s

theorem sever_eq (h : (s.protocols k).encoder = .own → (s.protocols k).complete = true →
    k ∈ s.connecter.connections) : sever k s = .ok () (s.severed k) := by
  rw [eq_ok_iff]
  by_cases hown : (s.protocols k).encoder = .own
  · by_cases hcomplete : (s.protocols k).complete = true
    · have hmem := h hown hcomplete
      simp [sever, connectionLost, severed, dropped, hown, hcomplete, update, hmem]
    · simp [sever, connectionLost, severed, dropped, hown, hcomplete, update]
  · simp [sever, severed, hown]

/-! ## The invariant -/

/-- A protocol of this torrent that is complete and not closed. -/
def Active (p : BTProtocol) : Prop := p.encoder = .own ∧ p.complete = true ∧ p.closed = false

/-- Where the protocol with a number is, by what it is. -/
structure Placed (config : EncoderConfig) (s : JashEncoder) (k : Nat) : Prop where
  fresh : s.count ≤ k → s.protocols k = .blank ∧ k ∉ s.attempts
  pending : k ∈ s.attempts → (s.protocols k).stage = .connecting ∧ (s.protocols k).encoder = .own
  quiet : (s.protocols k).stage = .connecting → (s.protocols k).closed = false ∧ (s.protocols k).reading = false
  unfinished : (s.protocols k).stage ≠ .complete → (s.protocols k).complete = false
  started : k ∈ s.connections → (s.protocols k).stage ≠ .connecting
  held : (s.protocols k).encoder = .own → (s.protocols k).reading = true → (s.protocols k).closed = false →
    k ∈ s.connections
  kept : Active (s.protocols k) → k ∈ s.connections
  gone : (s.protocols k).encoder = .own → (s.protocols k).closed = true → k ∉ s.connections
  flushes : (s.protocols k).readyToFlush = true → (s.protocols k).complete = true
  keys : k ∈ s.connecter.connections ↔ Active (s.protocols k)
  made : k ∈ s.connecter.made ↔ (s.protocols k).encoder = .own ∧ (s.protocols k).complete = true
  lost : k ∈ s.connecter.lost ↔
    ((s.protocols k).encoder = .own ∧ (s.protocols k).complete = true) ∧ (s.protocols k).closed = true
  notOwn : Active (s.protocols k) → (s.protocols k).id ≠ some config.myId

structure Sound (config : EncoderConfig) (s : JashEncoder) : Prop where
  placed : ∀ k, Placed config s k
  distinct : ∀ j k, Active (s.protocols j) → Active (s.protocols k) → (s.protocols j).id = (s.protocols k).id → j = k
  madeNodup : s.connecter.made.Nodup
  lostNodup : s.connecter.lost.Nodup
  noKeyError : .keyError ∉ s.raised

/-- Nothing happened to the protocol `j`. -/
structure SameAt (s t : JashEncoder) (j : Nat) : Prop where
  count : t.count ≤ j → s.count ≤ j
  protocols : t.protocols j = s.protocols j
  attempts : j ∈ t.attempts ↔ j ∈ s.attempts
  connections : j ∈ t.connections ↔ j ∈ s.connections
  keys : j ∈ t.connecter.connections ↔ j ∈ s.connecter.connections
  made : j ∈ t.connecter.made ↔ j ∈ s.connecter.made
  lost : j ∈ t.connecter.lost ↔ j ∈ s.connecter.lost

theorem Placed.of_same (h : Placed config s j) (hsame : SameAt s t j) : Placed config t j := by
  obtain ⟨hcount, hprotocols, hattempts, hconnections, hkeys, hmade, hlost⟩ := hsame
  constructor
  · intro hj
    rw [hprotocols, hattempts]
    exact h.fresh (hcount hj)
  · rw [hprotocols, hattempts]
    exact h.pending
  · rw [hprotocols]
    exact h.quiet
  · rw [hprotocols]
    exact h.unfinished
  · rw [hprotocols, hconnections]
    exact h.started
  · rw [hprotocols, hconnections]
    exact h.held
  · rw [hprotocols, hconnections]
    exact h.kept
  · rw [hprotocols, hconnections]
    exact h.gone
  · rw [hprotocols]
    exact h.flushes
  · rw [hprotocols, hkeys]
    exact h.keys
  · rw [hprotocols, hmade]
    exact h.made
  · rw [hprotocols, hlost]
    exact h.lost
  · rw [hprotocols]
    exact h.notOwn

theorem Sound.of_frame (hs : Sound config s) (hsame : ∀ j, j ≠ k → SameAt s t j) (hplaced : Placed config t k)
    (hdistinct : ∀ j, j ≠ k → Active (t.protocols k) → Active (s.protocols j) →
      (s.protocols j).id ≠ (t.protocols k).id)
    (hmade : t.connecter.made.Nodup) (hlost : t.connecter.lost.Nodup) (hraised : .keyError ∉ t.raised) :
    Sound config t where
  placed := by
    intro j
    by_cases hj : j = k
    · rw [hj]
      exact hplaced
    · exact (hs.placed j).of_same (hsame j hj)
  distinct := by
    intro i j hi hj hid
    by_cases hik : i = k
    · by_cases hjk : j = k
      · exact hik.trans hjk.symm
      · rw [(hsame j hjk).protocols] at hj hid
        rw [hik] at hi hid
        exact absurd hid.symm (hdistinct j hjk hi hj)
    · rw [(hsame i hik).protocols] at hi hid
      by_cases hjk : j = k
      · rw [hjk] at hj hid
        exact absurd hid (hdistinct i hik hj hi)
      · rw [(hsame j hjk).protocols] at hj hid
        exact hs.distinct i j hi hj hid
  madeNodup := hmade
  lostNodup := hlost
  noKeyError := hraised

theorem Sound.congr (hs : Sound config s) (hsame : ∀ j, SameAt s t j) (hmade : t.connecter.made.Nodup)
    (hlost : t.connecter.lost.Nodup) (hraised : .keyError ∉ t.raised) : Sound config t :=
  hs.of_frame (k := 0) (fun j _ => hsame j) ((hs.placed 0).of_same (hsame 0))
    (fun j hj h0 hactive hid => hj (hs.distinct j 0 hactive ((hsame 0).protocols ▸ h0) (hid.trans (by rw [(hsame 0).protocols]))))
    hmade hlost hraised

theorem sameAt_update (h : j ≠ k) : SameAt s (s.update k f) j :=
  ⟨id, update_of_ne h, Iff.rfl, Iff.rfl, Iff.rfl, Iff.rfl, Iff.rfl⟩

/-- A change to one protocol that does not make it active. -/
theorem Sound.update (hs : Sound config s) (hplaced : Placed config (s.update k f) k)
    (hactive : Active (f (s.protocols k)) → Active (s.protocols k) ∧ (f (s.protocols k)).id = (s.protocols k).id) :
    Sound config (s.update k f) := by
  refine hs.of_frame (fun j hj => sameAt_update hj) hplaced ?_ hs.madeNodup hs.lostNodup hs.noKeyError
  intro j hj hk hjactive hid
  rw [update_self] at hk hid
  obtain ⟨hkactive, hkid⟩ := hactive hk
  exact hj (hs.distinct j k hjactive hkactive (hid.trans hkid))

theorem Placed.count_lt (h : Placed config s k) (hstage : (s.protocols k).stage ≠ .connecting) : k < s.count := by
  by_contra hcount
  obtain ⟨hblank, _⟩ := h.fresh (by omega)
  rw [hblank] at hstage
  exact hstage rfl

/-! ### Severing -/

@[simp] theorem severed_self : (s.severed k).protocols k = { s.protocols k with closed := true } := by
  unfold severed
  dsimp only
  split
  · simp [dropped]
  · exact update_self

theorem severed_of_ne (h : j ≠ k) : (s.severed k).protocols j = s.protocols j := by
  unfold severed
  dsimp only
  split
  · simp [dropped, h]
  · exact update_of_ne h

theorem severed_connections : (s.severed k).connections =
    if (s.protocols k).encoder = .own then s.connections.erase k else s.connections := by
  unfold severed
  dsimp only
  split <;> rfl

theorem severed_connecter : (s.severed k).connecter =
    if (s.protocols k).encoder = .own ∧ (s.protocols k).complete = true then
      ⟨s.connecter.connections.erase k, s.connecter.made, s.connecter.lost ++ [k]⟩
    else s.connecter := by
  unfold severed
  dsimp only
  split
  · case isTrue hown =>
    simp [dropped, update, hown]
  · case isFalse hown =>
    simp [update, hown]

theorem severed_frame : (s.severed k).count = s.count ∧ (s.severed k).attempts = s.attempts ∧
    (s.severed k).raised = s.raised := by
  unfold severed
  dsimp only
  split <;> exact ⟨rfl, rfl, rfl⟩

theorem sameAt_severed (h : j ≠ k) : SameAt s (s.severed k) j := by
  obtain ⟨hcount, hattempts, _⟩ := severed_frame (s := s) (k := k)
  refine ⟨hcount ▸ id, severed_of_ne h, hattempts ▸ Iff.rfl, ?_, ?_, ?_, ?_⟩
  · rw [severed_connections]
    split <;> simp [h]
  all_goals
    rw [severed_connecter]
    split <;> simp [h]

theorem Sound.severed (hs : Sound config s) (hstage : (s.protocols k).stage ≠ .connecting)
    (hclosed : (s.protocols k).closed = false) : Sound config (s.severed k) := by
  have hk := hs.placed k
  obtain ⟨hcount, hattempts, hraised⟩ := severed_frame (s := s) (k := k)
  have hlost : k ∉ s.connecter.lost := by simp [hk.lost, hclosed]
  refine hs.of_frame (fun j hj => sameAt_severed hj) ?_ ?_ ?_ ?_ (hraised ▸ hs.noKeyError)
  · constructor
    · intro hfresh
      exact absurd (hk.count_lt hstage) (by omega)
    · intro hpending
      exact absurd (hk.pending (hattempts ▸ hpending)).1 hstage
    · intro hconnecting
      rw [severed_self] at hconnecting
      exact absurd hconnecting hstage
    · simpa using hk.unfinished
    · intro _
      simpa using hstage
    · simp
    · simp [Active]
    · simp +contextual [severed_connections]
    · simpa using hk.flushes
    · rw [severed_connecter]
      split
      · simp [Active]
      · case isFalse hnone =>
        rw [hk.keys]
        refine iff_of_false (fun hactive => hnone ⟨hactive.1, hactive.2.1⟩) ?_
        simp [Active]
    · rw [severed_connecter]
      split <;> simpa using hk.made
    · rw [severed_connecter]
      split
      · case isTrue hown => simp [hown]
      · case isFalse hnone =>
        rw [hk.lost]
        refine iff_of_false (fun hold => hnone hold.1) (fun hold => hnone ?_)
        simpa using hold.1
    · simp [Active]
  · intro j _ hactive
    simp [Active] at hactive
  · rw [severed_connecter]
    split <;> exact hs.madeNodup
  · rw [severed_connecter]
    split
    · exact hs.lostNodup.append (List.nodup_singleton k) (by simpa using hlost)
    · exact hs.lostNodup
/-- A change that leaves alone what the lists go by. -/
theorem Sound.adjust (hs : Sound config s) (hstage : (s.protocols k).stage ≠ .connecting)
    (hstage' : (f (s.protocols k)).stage ≠ .connecting)
    (hfinished : (s.protocols k).stage = .complete → (f (s.protocols k)).stage = .complete)
    (hencoder : (f (s.protocols k)).encoder = (s.protocols k).encoder)
    (hcomplete : (f (s.protocols k)).complete = (s.protocols k).complete)
    (hclosed : (f (s.protocols k)).closed = (s.protocols k).closed)
    (hflush : (f (s.protocols k)).readyToFlush = (s.protocols k).readyToFlush)
    (hreading : (f (s.protocols k)).reading = true → (s.protocols k).reading = true)
    (hid : Active (s.protocols k) → (f (s.protocols k)).id = (s.protocols k).id) : Sound config (s.update k f) := by
  have hk := hs.placed k
  have hactive : Active (f (s.protocols k)) ↔ Active (s.protocols k) := by
    unfold Active
    rw [hencoder, hcomplete, hclosed]
  refine hs.update ?_ fun hf => ⟨hactive.mp hf, hid (hactive.mp hf)⟩
  constructor
  · intro hfresh
    exact absurd (hk.count_lt hstage) (Nat.not_lt.mpr hfresh)
  · intro hpending
    exact absurd (hk.pending hpending).1 hstage
  · rw [update_self]
    exact fun hconnecting => absurd hconnecting hstage'
  · rw [update_self, hcomplete]
    exact fun hunfinished => hk.unfinished fun h => hunfinished (hfinished h)
  · rw [update_self]
    exact fun _ => hstage'
  · rw [update_self, hencoder, hclosed]
    exact fun hown hread => hk.held hown (hreading hread)
  · rw [update_self, hactive]
    exact hk.kept
  · rw [update_self, hencoder, hclosed]
    exact hk.gone
  · rw [update_self, hflush, hcomplete]
    exact hk.flushes
  · rw [update_self, hactive]
    exact hk.keys
  · rw [update_self, hencoder, hcomplete]
    exact hk.made
  · rw [update_self, hencoder, hcomplete, hclosed]
    exact hk.lost
  · rw [update_self, hactive]
    intro h
    rw [hid h]
    exact hk.notOwn h

/-! ### Closing -/

theorem close_eq (hs : Sound config s) : close k s = .ok () (s.shut k) := by
  rw [eq_ok_iff]
  by_cases hclosed : (s.protocols k).closed = true
  · simp [close, shut, hclosed]
  · have hsever : sever k (s.update k fun p => { p with reading := false }) =
        .ok () ((s.update k fun p => { p with reading := false }).severed k) := by
      apply sever_eq
      rw [update_self]
      intro hown hcomplete
      exact (hs.placed k).keys.mpr ⟨hown, hcomplete, Bool.not_eq_true _ ▸ hclosed⟩
    have houtcome := eq_ok_iff.mp hsever
    simpa [close, shut, hclosed] using houtcome

theorem Sound.shut (hs : Sound config s) (hstage : (s.protocols k).stage ≠ .connecting) :
    Sound config (s.shut k) := by
  unfold JashEncoder.shut
  split
  · exact hs
  · case isFalse hclosed =>
    have hreading : Sound config (s.update k fun p => { p with reading := false }) :=
      hs.adjust hstage hstage id rfl rfl rfl rfl nofun fun _ => rfl
    apply hreading.severed
    · simpa using hstage
    · simpa using hclosed

theorem Sound.close (hs : Sound config s) (hstage : (s.protocols k).stage ≠ .connecting) :
    Outcome (close k) s (fun _ => Sound config) fun _ => Sound config := by
  refine (eq_ok_iff.mp (close_eq hs)).mono ?_ fun _ _ => False.elim
  rintro _ _ ⟨rfl, rfl⟩
  exact hs.shut hstage

theorem SameAt.trans {u : JashEncoder} (h : SameAt s t j) (h' : SameAt t u j) : SameAt s u j where
  count := fun hcount => h.count (h'.count hcount)
  protocols := h'.protocols.trans h.protocols
  attempts := h'.attempts.trans h.attempts
  connections := h'.connections.trans h.connections
  keys := h'.keys.trans h.keys
  made := h'.made.trans h.made
  lost := h'.lost.trans h.lost

theorem SameAt.refl (s : JashEncoder) (j : Nat) : SameAt s s j :=
  ⟨id, rfl, Iff.rfl, Iff.rfl, Iff.rfl, Iff.rfl, Iff.rfl⟩

theorem sameAt_shut (h : j ≠ k) : SameAt s (s.shut k) j := by
  unfold shut
  split
  · exact .refl s j
  · exact (sameAt_update h).trans (sameAt_severed h)

@[simp] theorem shut_closed : ((s.shut k).protocols k).closed = true := by
  unfold shut
  split
  · assumption
  · rw [severed_self]

theorem shut_stage : ((s.shut k).protocols j).stage = (s.protocols j).stage := by
  by_cases hj : j = k
  · rw [hj]
    unfold shut
    split
    · rfl
    · rw [severed_self, update_self]
  · rw [(sameAt_shut hj).protocols]

theorem shutEach_cons (k : Nat) (ks : List Nat) : shutEach (k :: ks) s = shutEach ks (s.shut k) := rfl

theorem sameAt_shutEach {ks : List Nat} (h : j ∉ ks) : SameAt s (shutEach ks s) j := by
  induction ks generalizing s with
  | nil => exact .refl s j
  | cons k ks ih =>
    exact (sameAt_shut (List.ne_of_not_mem_cons h)).trans (ih (List.not_mem_of_not_mem_cons h))

theorem shutEach_closed {ks : List Nat} (h : j ∈ ks) : ((shutEach ks s).protocols j).closed = true := by
  induction ks generalizing s with
  | nil => cases h
  | cons k ks ih =>
    by_cases hks : j ∈ ks
    · exact ih hks
    · obtain rfl := (List.mem_cons.mp h).resolve_right hks
      rw [shutEach_cons, (sameAt_shutEach hks).protocols, shut_closed]

theorem Sound.shutEach {ks : List Nat} (hs : Sound config s) (h : ∀ k ∈ ks, (s.protocols k).stage ≠ .connecting) :
    Sound config (shutEach ks s) := by
  induction ks generalizing s with
  | nil => exact hs
  | cons k ks ih =>
    obtain ⟨hk, hks⟩ := List.forall_mem_cons.mp h
    refine ih (hs.shut hk) fun j hj => ?_
    rw [shut_stage]
    exact hks j hj

theorem closeEach_eq {ks : List Nat} (hs : Sound config s) (h : ∀ k ∈ ks, (s.protocols k).stage ≠ .connecting) :
    closeEach ks s = .ok () (shutEach ks s) := by
  induction ks generalizing s with
  | nil => rfl
  | cons k ks ih =>
    obtain ⟨hk, hks⟩ := List.forall_mem_cons.mp h
    rw [closeEach, bind_eq_ok (close_eq hs), shutEach_cons]
    refine ih (hs.shut hk) fun j hj => ?_
    rw [shut_stage]
    exact hks j hj

/-! ### The peer id -/

theorem mem_duplicates {order : List Nat} {v : Nat} (h : v ∈ (duplicates config k s order).1) : v ∈ order ∧ v ≠ k := by
  induction order with
  | nil => cases h
  | cons w order ih =>
    simp only [duplicates] at h
    split at h
    · exact ⟨List.mem_cons_of_mem w (ih h).1, (ih h).2⟩
    · case isFalse hw =>
      split at h
      · cases h
      · rw [List.mem_append, List.mem_append] at h
        rcases h with (hid | hip) | hrest
        · obtain rfl : v = w := by
            split at hid
            · exact List.mem_singleton.mp hid
            · cases hid
          exact ⟨List.mem_cons_self, hw⟩
        · obtain rfl : v = w := by
            split at hip
            · exact List.mem_singleton.mp hip
            · cases hip
          exact ⟨List.mem_cons_self, hw⟩
        · exact ⟨List.mem_cons_of_mem w (ih hrest).1, (ih hrest).2⟩

/-- If the id is found to be new, the connections that have it are among those to close. -/
theorem duplicates_complete {order : List Nat} {v : Nat} (hfound : (duplicates config k s order).2 = true)
    (hv : v ∈ order) (hne : v ≠ k) (hid : (s.protocols k).id = (s.protocols v).id) :
    v ∈ (duplicates config k s order).1 := by
  induction order with
  | nil => cases hv
  | cons w order ih =>
    simp only [duplicates] at hfound ⊢
    split at hfound
    · case isTrue hw =>
      rw [if_pos hw]
      rcases List.mem_cons.mp hv with rfl | hv
      · exact absurd hw hne
      · exact ih hfound hv
    · case isFalse hw =>
      rw [if_neg hw]
      split at hfound
      · cases hfound
      · case isFalse hsame =>
        rw [if_neg hsame]
        rcases List.mem_cons.mp hv with rfl | hv
        · simp [hid]
        · exact List.mem_append_right _ (ih hfound hv)

theorem Lists.mem {order : List Nat} (h : Lists order s) {v : Nat} : v ∈ order ↔ v ∈ s.connections := by
  rw [← h.2, List.mem_toFinset]

/-- After an answer that the id is new, no other connection that is complete has it. -/
theorem gotId_spec {order : List Nat} (hs : Sound config s) (horder : Lists order s) :
    ∃ new t, gotId config k order s = .ok new t ∧ Sound config t ∧ SameAt s t k ∧
      (new = true → (s.protocols k).id ≠ some config.myId ∧
        ∀ j, j ≠ k → Active (t.protocols j) → (t.protocols j).id ≠ (t.protocols k).id) := by
  by_cases hown : (s.protocols k).id = some config.myId
  · refine ⟨false, s, ?_, hs, .refl s k, nofun⟩
    simp [gotId, eq_ok_iff, hown]
  · have hstarted : ∀ v ∈ (duplicates config k s order).1, (s.protocols v).stage ≠ .connecting := fun v hv =>
      (hs.placed v).started (horder.mem.mp (mem_duplicates hv).1)
    have hk : k ∉ (duplicates config k s order).1 := fun hk => (mem_duplicates hk).2 rfl
    refine ⟨(duplicates config k s order).2, shutEach (duplicates config k s order).1 s, ?_, hs.shutEach hstarted,
      sameAt_shutEach hk, fun hnew => ⟨hown, ?_⟩⟩
    · have hclose := eq_ok_iff.mp (closeEach_eq hs hstarted)
      rw [eq_ok_iff]
      simp only [gotId, outcome_bind, outcome_get, outcome_ite, if_neg hown, outcome_pure]
      exact hclose.mono (fun _ _ ht => ⟨trivial, ht.2⟩) fun _ _ => id
    · intro j hj hactive hid
      by_cases hmem : j ∈ (duplicates config k s order).1
      · have hclosed := shutEach_closed (s := s) hmem
        exact absurd (hactive.2.2.symm.trans hclosed) nofun
      · rw [(sameAt_shutEach hmem).protocols] at hactive hid
        rw [(sameAt_shutEach hk).protocols] at hid
        exact hmem (duplicates_complete hnew (horder.mem.mpr ((hs.placed j).kept hactive)) hj hid.symm)

/-- A protocol whose id is new is entered in the list of the complete ones. -/
def completed (k : Nat) (s : JashEncoder) : JashEncoder :=
  ((s.update k fun p => { p with complete := true }).connectionMade k).update k fun p =>
    { p with stage := .complete, readyToFlush := true }

@[simp] theorem completed_self : (s.completed k).protocols k =
    { s.protocols k with complete := true, stage := .complete, readyToFlush := true } := by
  simp [completed, connectionMade]

theorem sameAt_completed (h : j ≠ k) : SameAt s (s.completed k) j := by
  refine ⟨id, ?_, Iff.rfl, Iff.rfl, ?_, ?_, Iff.rfl⟩
  · simp [completed, connectionMade, h]
  · simp [completed, connectionMade, update, h]
  · simp [completed, connectionMade, update, h]

theorem Sound.completed (hs : Sound config s) (hreads : Reads .handshake (s.protocols k))
    (hown : (s.protocols k).encoder = .own) (hid : (s.protocols k).id ≠ some config.myId)
    (hnew : ∀ j, j ≠ k → Active (s.protocols j) → (s.protocols j).id ≠ (s.protocols k).id) :
    Sound config (s.completed k) := by
  have hk := hs.placed k
  obtain ⟨hreading, hclosed, hstage⟩ := hreads
  have hstarted : (s.protocols k).stage ≠ .connecting := by simp [hstage]
  have hincomplete : (s.protocols k).complete = false := hk.unfinished (by simp [hstage])
  have hmade : k ∉ s.connecter.made := by simp [hk.made, hincomplete]
  refine hs.of_frame (fun j hj => sameAt_completed hj) ?_ ?_ ?_ hs.lostNodup hs.noKeyError
  · constructor
    · intro hfresh
      exact absurd (hk.count_lt hstarted) (Nat.not_lt.mpr hfresh)
    · intro hpending
      exact absurd (hk.pending hpending).1 hstarted
    · simp
    · simp
    · simp
    · intro _ _ _
      exact hk.held hown hreading hclosed
    · intro _
      exact hk.held hown hreading hclosed
    · simp [hclosed]
    · simp
    · simp [Active, hown, hclosed, JashEncoder.completed, connectionMade, JashEncoder.update]
    · simp [hown, JashEncoder.completed, connectionMade, JashEncoder.update]
    · have hlost : k ∉ s.connecter.lost := by simp [hk.lost, hincomplete]
      simpa [hclosed, JashEncoder.completed, connectionMade, JashEncoder.update] using hlost
    · intro _
      simpa using hid
  · intro j hj _ hactive
    simpa using hnew j hj hactive
  · exact hs.madeNodup.append (List.nodup_singleton k) (by simpa using hmade)

theorem Sound.readPeerId {order : List Nat} (hs : Sound config s) (hreads : Reads .handshake (s.protocols k))
    (hown : (s.protocols k).encoder = .own) (horder : Lists order s) (id : List UInt8) :
    Sound config (finish (readPeerId config k id order) s) := by
  have hstarted : (s.protocols k).stage ≠ .connecting := by simp [hreads.2.2]
  have hclose := hs.close hstarted
  refine outcome_finish.mp ?_
  simp only [JashEncoder.readPeerId, outcome_bind, outcome_get, outcome_ite, outcome_modify]
  split
  · exact hclose
  · split
    · exact hclose
    · have hincomplete : (s.protocols k).complete = false := (hs.placed k).unfinished (by simp [hreads.2.2])
      have hset : Sound config (s.update k fun p => { p with id := some id }) := by
        apply hs.adjust hstarted hstarted (fun h => h) rfl rfl rfl rfl (fun h => h)
        intro hactive
        exact absurd (hactive.2.1.symm.trans hincomplete) (by simp)
      obtain ⟨new, t, hgot, ht, hsame, hnew⟩ := gotId_spec (k := k) hset horder
      have hself : t.protocols k = { s.protocols k with id := some id } := by
        rw [hsame.protocols, update_self]
      refine (eq_ok_iff.mp hgot).mono ?_ fun _ _ => False.elim
      rintro complete t ⟨rfl, rfl⟩
      cases complete with
      | true =>
        rw [update_self] at hnew
        apply ht.completed
        · rw [hself]
          exact hreads
        · rw [hself]
          exact hown
        · rw [hself]
          exact (hnew rfl).1
        · exact (hnew rfl).2
      | false =>
        have hsame : (t.protocols k).complete = false := by rw [hself]; exact hincomplete
        have hstage : (t.protocols k).stage ≠ .connecting := by rw [hself]; exact hstarted
        refine (ht.adjust hstage hstage (fun h => h) rfl hsame.symm rfl rfl (fun h => h) fun _ => rfl).close ?_
        rw [update_self]
        exact hstage

/-! ### Starting connections -/

/-- What the lists of peers that are to be tried do not change. -/
structure SameCore (s t : JashEncoder) : Prop where
  protocols : t.protocols = s.protocols
  count : t.count = s.count
  attempts : t.attempts = s.attempts
  connections : t.connections = s.connections
  connecter : t.connecter = s.connecter
  raised : t.raised = s.raised
  incompletecounter : t.incompletecounter = s.incompletecounter
  admissions : t.admissions = s.admissions

theorem SameCore.refl (s : JashEncoder) : SameCore s s := ⟨rfl, rfl, rfl, rfl, rfl, rfl, rfl, rfl⟩

theorem Sound.of_core (hs : Sound config s) (h : SameCore s t) : Sound config t := by
  refine hs.congr (fun j => ?_) (h.connecter ▸ hs.madeNodup) (h.connecter ▸ hs.lostNodup) (h.raised ▸ hs.noKeyError)
  constructor
  · rw [h.count]
    exact id
  · rw [h.protocols]
  · rw [h.attempts]
  · rw [h.connections]
  all_goals rw [h.connecter]

/-- What is run keeps the invariant. -/
abbrev Keeps {α : Type} (config : EncoderConfig) (x : Jash α) : Prop := Moves (Kept (Sound config)) x

theorem keeps_raise {α : Type} {e : PyError} (h : e ≠ .keyError) : Keeps config (raise e : Jash α) := by
  refine Moves.bind (.modify fun s hs => ?_) fun _ => .throw e
  refine hs.congr (fun j => ⟨id, rfl, Iff.rfl, Iff.rfl, Iff.rfl, Iff.rfl, Iff.rfl⟩) hs.madeNodup hs.lostNodup ?_
  simpa [Ne.symm h] using hs.noKeyError

theorem sameAt_addAttempt {peer : Peer} {encrypted : Option Bool} (h : j ≠ s.count) :
    SameAt s (s.addAttempt peer encrypted) j := by
  refine ⟨fun hcount => Nat.le_of_succ_le hcount, ?_, ?_, Iff.rfl, Iff.rfl, Iff.rfl, Iff.rfl⟩
  · exact Function.update_of_ne h ..
  · simp [addAttempt, h]

/-- A protocol that was not complete is neither complete nor closed. -/
theorem Sound.place (hs : Sound config s) (hsame : ∀ j, j ≠ k → SameAt s t j)
    (hold : (s.protocols k).complete = false) (hcount : k < t.count)
    (hconnecter : t.connecter = s.connecter) (hraised : t.raised = s.raised)
    (hcomplete : (t.protocols k).complete = false) (hclosed : (t.protocols k).closed = false)
    (hflush : (t.protocols k).readyToFlush = false)
    (hpending : k ∈ t.attempts → (t.protocols k).stage = .connecting ∧ (t.protocols k).encoder = .own)
    (hreading : (t.protocols k).stage = .connecting → (t.protocols k).reading = false)
    (hstarted : k ∈ t.connections → (t.protocols k).stage ≠ .connecting)
    (hheld : (t.protocols k).encoder = .own → (t.protocols k).reading = true → k ∈ t.connections) :
    Sound config t := by
  have hk := hs.placed k
  have hkeys : k ∉ s.connecter.connections := by simp [hk.keys, Active, hold]
  have hmade : k ∉ s.connecter.made := by simp [hk.made, hold]
  have hlost : k ∉ s.connecter.lost := by simp [hk.lost, hold]
  refine hs.of_frame hsame ?_ ?_ (hconnecter ▸ hs.madeNodup) (hconnecter ▸ hs.lostNodup) (hraised ▸ hs.noKeyError)
  · constructor
    · exact fun hfresh => absurd hfresh (Nat.not_le.mpr hcount)
    · exact hpending
    · exact fun hconnecting => ⟨hclosed, hreading hconnecting⟩
    · exact fun _ => hcomplete
    · exact hstarted
    · exact fun hown hread _ => hheld hown hread
    · simp [Active, hcomplete]
    · simp [hclosed]
    · simp [hflush]
    · rw [hconnecter]
      exact iff_of_false hkeys (by simp [Active, hcomplete])
    · rw [hconnecter]
      exact iff_of_false hmade (by simp [hcomplete])
    · rw [hconnecter]
      exact iff_of_false hlost (by simp [hcomplete])
    · simp [Active, hcomplete]
  · simp [Active, hcomplete]

theorem Sound.count_fresh (hs : Sound config s) :
    s.protocols s.count = .blank ∧ s.count ∉ s.attempts ∧ s.count ∉ s.connections := by
  have hplaced := hs.placed s.count
  obtain ⟨hblank, hattempts⟩ := hplaced.fresh le_rfl
  refine ⟨hblank, hattempts, fun h => ?_⟩
  have hstarted := hplaced.started h
  rw [hblank] at hstarted
  exact hstarted rfl

theorem Sound.addAttempt (hs : Sound config s) (peer : Peer) (encrypted : Option Bool) :
    Sound config (s.addAttempt peer encrypted) := by
  obtain ⟨hblank, _, hconnections⟩ := hs.count_fresh
  have hself : (s.addAttempt peer encrypted).protocols s.count = .outgoing peer encrypted :=
    Function.update_self ..
  have hold : (s.protocols s.count).complete = false := by rw [hblank]; rfl
  apply hs.place (fun j hj => sameAt_addAttempt hj) hold (Nat.lt_succ_self s.count) rfl rfl <;> rw [hself]
  · rfl
  · rfl
  · rfl
  · exact fun _ => ⟨rfl, rfl⟩
  · exact fun _ => rfl
  · exact fun h => absurd h hconnections
  · exact nofun

theorem Sound.accept (hs : Sound config s) (ip : List Char) (port : Nat) : Sound config (s.accept ip port) := by
  obtain ⟨hblank, hattempts, _⟩ := hs.count_fresh
  have hself : (s.accept ip port).protocols s.count = .accepted ip port := Function.update_self ..
  have hsame : ∀ j, j ≠ s.count → SameAt s (s.accept ip port) j := fun j hj =>
    ⟨fun hcount => Nat.le_of_succ_le hcount, Function.update_of_ne hj .., Iff.rfl, Iff.rfl, Iff.rfl, Iff.rfl, Iff.rfl⟩
  have hold : (s.protocols s.count).complete = false := by rw [hblank]; rfl
  apply hs.place hsame hold (Nat.lt_succ_self s.count) rfl rfl <;> rw [hself]
  · rfl
  · rfl
  · rfl
  · exact fun h => absurd h hattempts
  · exact nofun
  · exact fun _ => nofun
  · exact nofun

theorem startCheck_error {peer : Peer} {e : PyError} (h : s.startCheck config env peer = .error e) :
    e = .attributeError := by
  unfold startCheck at h
  split at h
  · cases h
  · split at h
    · cases h
    · split at h
      · exact (Except.error.inj h).symm
      · cases h

theorem keeps_startConnection (peer : Peer) : Keeps config (startConnection config env peer) := by
  refine Moves.bind .get fun s => ?_
  split
  · case h_1 e he =>
    apply keeps_raise
    rw [startCheck_error he]
    nofun
  · exact .pure ()
  · case h_3 encrypted _ =>
    refine Moves.bind (.modify fun s hs => ?_) fun _ => .ite (fun _ => keeps_raise nofun) fun _ => ?_
    · refine hs.congr (fun j => ?_) hs.madeNodup hs.lostNodup hs.noKeyError
      exact ⟨id, rfl, Iff.rfl, Iff.rfl, Iff.rfl, Iff.rfl, Iff.rfl⟩
    · exact .modify fun s hs => hs.addAttempt peer encrypted

section Queues
variable {R : JashEncoder → JashEncoder → Prop} [IsPreorder JashEncoder R]

/-! The rounds of the timer, for relations that the lists do not matter to. -/

theorem moves_drain {setQueue : List Peer → JashEncoder → JashEncoder} {tried : Peer → JashEncoder → JashEncoder}
    (hset : ∀ peers s, R s (setQueue peers s)) (htried : ∀ peer s, R s (tried peer s))
    (hstart : ∀ peer, Moves R (startConnection config env peer)) (peers : List Peer) (numOpened : Nat) :
    Moves R (drain config env setQueue tried peers numOpened) := by
  induction peers generalizing numOpened with
  | nil => exact .pure numOpened
  | cons peer peers ih =>
    refine Moves.bind .get fun s => .ite (fun _ => ?_) fun _ => .pure numOpened
    refine Moves.bind (.modify (hset peers)) fun _ => Moves.bind (hstart peer) fun _ => ?_
    exact Moves.bind (.modify (htried peer)) fun _ => ih (numOpened + 1)

theorem sameCore_cyclePeers (now : Rat) : SameCore s (s.cyclePeers now) := by
  unfold cyclePeers
  split
  · exact ⟨rfl, rfl, rfl, rfl, rfl, rfl, rfl, rfl⟩
  · exact .refl s

theorem sameCore_cutPrevConnected : SameCore s s.cutPrevConnected := by
  constructor <;> simp only [cutPrevConnected]

theorem sameCore_addPeers (peers : List Peer) : SameCore s (s.addPeers peers) := by
  induction peers generalizing s with
  | nil => exact .refl s
  | cons peer peers ih =>
    obtain ⟨h₁, h₂, h₃, h₄, h₅, h₆, h₇, h₈⟩ := ih (s := s.addPeer peer)
    have hpeer : SameCore s (s.addPeer peer) := by
      unfold addPeer
      split
      · exact .refl s
      · split
        · exact ⟨rfl, rfl, rfl, rfl, rfl, rfl, rfl, rfl⟩
        · exact ⟨rfl, rfl, rfl, rfl, rfl, rfl, rfl, rfl⟩
    exact ⟨h₁.trans hpeer.protocols, h₂.trans hpeer.count, h₃.trans hpeer.attempts, h₄.trans hpeer.connections,
      h₅.trans hpeer.connecter, h₆.trans hpeer.raised, h₇.trans hpeer.incompletecounter,
      h₈.trans hpeer.admissions⟩

variable (hcore : ∀ {s t}, SameCore s t → R s t) (hstart : ∀ peer, Moves R (startConnection config env peer))
include hcore hstart

theorem moves_drainQueues : Moves R (drainQueues config env) := by
  have hset : ∀ peers s, R s (setNeverConnected peers s) := fun peers s =>
    hcore ⟨rfl, rfl, rfl, rfl, rfl, rfl, rfl, rfl⟩
  have hset' : ∀ peers s, R s (setToConnect peers s) := fun peers s =>
    hcore ⟨rfl, rfl, rfl, rfl, rfl, rfl, rfl, rfl⟩
  have htried : ∀ peer s, R s (addPrevConnected peer s) := fun peer s =>
    hcore ⟨rfl, rfl, rfl, rfl, rfl, rfl, rfl, rfl⟩
  refine Moves.bind .get fun s => Moves.bind ?_ fun numOpened => Moves.bind .get fun s => ?_
  · exact moves_drain hset htried hstart s.neverConnected 0
  · refine Moves.bind ?_ fun _ => .pure ()
    exact moves_drain hset' (fun _ s => refl_of R s) hstart s.toConnect numOpened

theorem moves_startConnectionFromQueue : Moves R (startConnectionFromQueue config env) := by
  refine Moves.rescue (Moves.bind .get fun s => ?_) (.pure ())
  refine Moves.bind (.when fun _ => moves_drainQueues hcore hstart) fun _ => .modify fun s => ?_
  exact trans_of R (hcore sameCore_cutPrevConnected) (hcore (sameCore_cyclePeers env.now))

theorem moves_startConnections (peers : List Peer) : Moves R (startConnections config env peers) := by
  refine Moves.bind (.modify fun s => hcore (sameCore_addPeers peers)) fun _ => ?_
  refine Moves.bind (.modify fun s => hcore ⟨rfl, rfl, rfl, rfl, rfl, rfl, rfl, rfl⟩) fun _ => ?_
  refine Moves.bind (.modify fun s => hcore ⟨rfl, rfl, rfl, rfl, rfl, rfl, rfl, rfl⟩) fun _ => ?_
  refine Moves.bind .get fun s => .when fun _ => ?_
  refine Moves.bind (.modify fun s => hcore ⟨rfl, rfl, rfl, rfl, rfl, rfl, rfl, rfl⟩) fun _ => ?_
  exact moves_startConnectionFromQueue hcore hstart

end Queues

/-! ### Connections that are made -/

theorem sameAt_connectFailed (h : j ≠ k) : SameAt s (s.connectFailed k) j := by
  refine ⟨id, rfl, ?_, Iff.rfl, Iff.rfl, Iff.rfl, Iff.rfl⟩
  simp [connectFailed, h]

theorem sameAt_insert (h : j ≠ k) : SameAt s { s with connections := insert k s.connections } j := by
  refine ⟨id, rfl, Iff.rfl, ?_, Iff.rfl, Iff.rfl, Iff.rfl⟩
  simp [h]

theorem Placed.incomplete (h : Placed config s k) (hpending : k ∈ s.attempts) : (s.protocols k).complete = false :=
  h.unfinished (by simp [(h.pending hpending).1])

theorem Placed.readyToFlush_eq (h : Placed config s k) (hincomplete : (s.protocols k).complete = false) :
    (s.protocols k).readyToFlush = false :=
  Bool.eq_false_iff.mpr fun hflush => absurd ((h.flushes hflush).symm.trans hincomplete) nofun

theorem Sound.connectFailed (hs : Sound config s) (hpending : k ∈ s.attempts) : Sound config (s.connectFailed k) := by
  have hk := hs.placed k
  have hincomplete := hk.incomplete hpending
  obtain ⟨hstage, _⟩ := hk.pending hpending
  have hcount : k < s.count := Nat.lt_of_not_le fun hfresh => (hk.fresh hfresh).2 hpending
  obtain ⟨hclosed, hreading⟩ := hk.quiet hstage
  apply hs.place (fun j hj => sameAt_connectFailed hj) hincomplete hcount rfl rfl hincomplete hclosed
    (hk.readyToFlush_eq hincomplete)
  · exact fun h => absurd h (Finset.notMem_erase k s.attempts)
  · exact fun _ => hreading
  · exact hk.started
  · exact fun _ h => absurd (h.symm.trans hreading) nofun

/-- A connection is only listed while the torrent is there, and otherwise told to close. -/
theorem Sound.outgoingMade (hs : Sound config s) (hpending : k ∈ s.attempts) (host : List Char) :
    Sound config (finish (outgoingMade config k host) s) := by
  have hk := hs.placed k
  have hincomplete := hk.incomplete hpending
  obtain ⟨hstage, hown⟩ := hk.pending hpending
  have hcount : k < s.count := Nat.lt_of_not_le fun hfresh => (hk.fresh hfresh).2 hpending
  obtain ⟨hclosed, _⟩ := hk.quiet hstage
  have hflush := hk.readyToFlush_eq hincomplete
  refine outcome_finish.mp ?_
  simp only [JashEncoder.outgoingMade, connectSucceeded, outcome_bind, outcome_modify, outcome_get, outcome_ite]
  split
  · refine hs.place ?_ hincomplete hcount rfl rfl ?_ ?_ ?_ ?_ ?_ ?_ ?_
    · exact fun j hj => ((sameAt_connectFailed hj).trans (sameAt_update hj)).trans (sameAt_update hj)
    · simpa [established] using hincomplete
    · simpa [established] using hclosed
    · simpa [established] using hflush
    · exact fun h => absurd h (Finset.notMem_erase k s.attempts)
    · simp [established]
    · simp [established]
    · simp
  · refine hs.place ?_ hincomplete hcount rfl rfl ?_ ?_ ?_ ?_ ?_ ?_ ?_
    · exact fun j hj => ((sameAt_connectFailed hj).trans (sameAt_update hj)).trans (sameAt_insert hj)
    · simpa [established] using hincomplete
    · simpa [established] using hclosed
    · simpa [established] using hflush
    · exact fun h => absurd h (Finset.notMem_erase k s.attempts)
    · simp [established]
    · simp [established]
    · exact fun _ _ => Finset.mem_insert_self k s.connections

theorem shouldClose_open {ip : List Char} (h : s.shouldClose config ip = .ok false) : s.done = false := by
  unfold shouldClose at h
  split at h
  · cases h
  · case isFalse hdone => exact Bool.eq_false_iff.mpr hdone

theorem shouldClose_error {ip : List Char} {e : PyError} (h : s.shouldClose config ip = .error e) :
    e = .nameError := by
  unfold shouldClose at h
  split at h
  · cases h
  · split at h
    · exact (Except.error.inj h).symm
    · split at h
      · cases h
      · split at h
        · cases h
        · split at h <;> cases h

/-- A protocol that is passed to a torrent. -/
theorem Sound.externalHandshakeDone (hs : Sound config s) (hreads : Reads .handshake (s.protocols k))
    (encrypted : Bool) (owner : Owner) (hsame : ∀ j, j ≠ k → SameAt s t j) (hcount : t.count = s.count)
    (hattempts : t.attempts = s.attempts) (hconnecter : t.connecter = s.connecter) (hraised : t.raised = s.raised)
    (hself : t.protocols k = JashEncoder.externalHandshakeDone encrypted owner (s.protocols k))
    (hheld : owner = .own → k ∈ t.connections) : Sound config t := by
  have hk := hs.placed k
  obtain ⟨hreading, hclosed, hstage⟩ := hreads
  have hincomplete := hk.unfinished (by simp [hstage])
  have hlt := hk.count_lt (by simp [hstage])
  apply hs.place hsame hincomplete (hcount ▸ hlt) hconnecter hraised <;> rw [hself]
  · exact hincomplete
  · exact hclosed
  · exact hk.readyToFlush_eq hincomplete
  · rw [hattempts]
    intro hpending
    exact absurd ((hk.pending hpending).1.symm.trans hstage) nofun
  · exact nofun
  · exact fun _ => nofun
  · exact fun hown _ => hheld hown

theorem Sound.raise {α : Type} {e : PyError} (hs : Sound config s) (he : e ≠ .keyError) :
    Outcome (raise e : Jash α) s (fun _ => Sound config) fun _ => Sound config :=
  (keeps_raise he).invariant hs

theorem Sound.record (hs : Sound config s) (a : Admission) : Sound config (s.record a) :=
  hs.congr (fun _ => ⟨id, rfl, Iff.rfl, Iff.rfl, Iff.rfl, Iff.rfl, Iff.rfl⟩) hs.madeNodup hs.lostNodup hs.noKeyError

theorem Sound.externallyHandshaked (hs : Sound config s) (hreads : Reads .handshake (s.protocols k)) (encrypted : Bool) :
    Sound config (finish (externallyHandshakedConnectionMade config k encrypted) s) := by
  have hstage : (s.protocols k).stage ≠ .connecting := by simp [hreads.2.2]
  refine outcome_finish.mp ?_
  simp only [externallyHandshakedConnectionMade, outcome_bind, outcome_get]
  split
  · case h_1 e he =>
    simp only [outcome_bind, outcome_modify]
    refine Sound.raise ?_ ?_
    · exact (hs.record _).adjust hstage (by simp) (fun h => absurd (hreads.2.2.symm.trans h) (by simp)) rfl rfl rfl rfl
        (fun h => h) fun _ => rfl
    · rw [shouldClose_error he]
      simp
  · simp only [outcome_bind, outcome_modify]
    exact (hs.record _).close hstage
  · case h_3 hopen =>
    have hdone : ∀ a, ¬(s.record a).done = true := fun _ => by simp [JashEncoder.record, shouldClose_open hopen]
    simp only [connectSucceeded, outcome_bind, outcome_modify, outcome_get, outcome_ite]
    rw [if_neg (hdone _)]
    refine (hs.record (s.admission config (s.protocols k).ip true)).externalHandshakeDone hreads encrypted .own (fun j hj => ?_) rfl rfl rfl rfl update_self ?_
    · exact (sameAt_insert hj).trans (sameAt_update hj)
    · exact fun _ => Finset.mem_insert_self k s.connections

/-- A change to a protocol that belongs to another torrent. -/
theorem Sound.elsewhere (hs : Sound config s) (hstage : (s.protocols k).stage ≠ .connecting)
    (hother : (s.protocols k).encoder ≠ .own) (hother' : (f (s.protocols k)).encoder ≠ .own)
    (hstage' : (f (s.protocols k)).stage ≠ .connecting)
    (hfinished : (f (s.protocols k)).stage ≠ .complete → (f (s.protocols k)).complete = false)
    (hflush : (f (s.protocols k)).readyToFlush = true → (f (s.protocols k)).complete = true) :
    Sound config (s.update k f) := by
  have hk := hs.placed k
  refine hs.update ?_ fun hactive => absurd hactive.1 hother'
  constructor
  · exact fun hfresh => absurd hfresh (Nat.not_le.mpr (hk.count_lt hstage))
  · exact fun hpending => absurd (hk.pending hpending).1 hstage
  · rw [update_self]
    exact fun hconnecting => absurd hconnecting hstage'
  · rw [update_self]
    exact hfinished
  · rw [update_self]
    exact fun _ => hstage'
  · rw [update_self]
    exact fun hown => absurd hown hother'
  · rw [update_self]
    exact fun hactive => absurd hactive.1 hother'
  · rw [update_self]
    exact fun hown => absurd hown hother'
  · rw [update_self]
    exact hflush
  · rw [update_self]
    exact iff_of_false (fun h => hother (hk.keys.mp h).1) fun h => hother' h.1
  · rw [update_self]
    exact iff_of_false (fun h => hother (hk.made.mp h).1) fun h => hother' h.1
  · rw [update_self]
    exact iff_of_false (fun h => hother (hk.lost.mp h).1.1) fun h => hother' h.1.1
  · rw [update_self]
    exact fun hactive => absurd hactive.1 hother'

theorem Sound.readPeerIdElsewhere (hs : Sound config s) (hreads : Reads .handshake (s.protocols k))
    (hother : (s.protocols k).encoder = .other) (id : List UInt8) (complete : Bool) :
    Sound config (s.update k (JashEncoder.readPeerIdElsewhere id complete)) := by
  have hk := hs.placed k
  obtain ⟨_, _, hstage⟩ := hreads
  have hincomplete := hk.unfinished (by simp [hstage])
  have hflush := hk.readyToFlush_eq hincomplete
  apply hs.elsewhere (by simp [hstage]) (by simp [hother]) <;> unfold JashEncoder.readPeerIdElsewhere <;> split
  · simp [hother]
  · simp [hother]
  · nofun
  · simp [hstage]
  · exact fun h => absurd rfl h
  · exact fun _ => hincomplete
  · exact fun _ => rfl
  · exact fun h => absurd (h.symm.trans hflush) nofun

/-- What is flushed is listed. -/
theorem Sound.write (hs : Sound config s) : finish (write k) s = s := by
  have hk := hs.placed k
  have hlisted : ¬(¬(s.protocols k).closed = true ∧ (s.protocols k).readyToFlush = true ∧
      (s.protocols k).encoder = .own ∧ k ∉ s.connecter.connections) := by
    rintro ⟨hclosed, hflush, hown, hkeys⟩
    exact hkeys (hk.keys.mpr ⟨hown, hk.flushes hflush, Bool.eq_false_iff.mpr hclosed⟩)
  refine (outcome_finish (I := fun t => t = s)).mp ?_
  simp only [JashEncoder.write, outcome_bind, outcome_get, outcome_when, if_neg hlisted]

theorem Sound.startConnection (hs : Sound config s) (peer : Peer) :
    Outcome (JashEncoder.startConnection config env peer) s (fun _ => Sound config) fun _ => Sound config :=
  (keeps_startConnection peer).invariant hs

/-- The state in which a connection that was lost is tried again. -/
def released (k : Nat) (s : JashEncoder) : JashEncoder :=
  if k ∈ s.connections then (s.cut k).severed k else s.cut k

theorem Sound.cut (hs : Sound config s) (hstage : (s.protocols k).stage ≠ .connecting) : Sound config (s.cut k) :=
  hs.adjust hstage hstage (fun h => h) rfl rfl rfl rfl nofun fun _ => rfl

theorem Sound.not_closed (hs : Sound config s) (hown : (s.protocols k).encoder = .own) (hmem : k ∈ s.connections) :
    (s.protocols k).closed = false :=
  Bool.eq_false_iff.mpr fun hclosed => (hs.placed k).gone hown hclosed hmem

theorem Sound.released (hs : Sound config s) (hstage : (s.protocols k).stage ≠ .connecting)
    (hown : (s.protocols k).encoder = .own) : Sound config (s.released k) := by
  unfold JashEncoder.released
  split
  · case isTrue hmem =>
    apply (hs.cut hstage).severed
    · rw [JashEncoder.cut, update_self]
      exact hstage
    · rw [JashEncoder.cut, update_self]
      exact hs.not_closed hown hmem
  · exact hs.cut hstage

theorem transportLost_own (hs : Sound config s) (hstage : (s.protocols k).stage ≠ .connecting)
    (hown : (s.protocols k).encoder = .own) : finish (transportLost config env k true) s =
      if retries (s.protocols k) then
        finish (startConnection config env (retryPeer (s.protocols k))) (s.released k)
      else s.released k := by
  have hself : (s.cut k).protocols k = { s.protocols k with reading := false, disconnected := true } := update_self
  have hown' : ((s.cut k).protocols k).encoder = .own := by rw [hself]; exact hown
  have hretries : retries ((s.cut k).protocols k) = retries (s.protocols k) := by rw [hself]; rfl
  have hpeer : retryPeer ((s.cut k).protocols k) = retryPeer (s.protocols k) := by rw [hself]; rfl
  have hsever : when (k ∈ (s.cut k).connections) (sever k) (s.cut k) = .ok () (s.released k) := by
    unfold JashEncoder.released when
    split
    · case isTrue hmem =>
      rw [if_pos (show k ∈ s.connections from hmem)]
      apply sever_eq
      intro _ hcomplete
      exact ((hs.cut hstage).placed k).keys.mpr ⟨hown', hcomplete, (hs.cut hstage).not_closed hown' hmem⟩
    · case isFalse hmem =>
      rw [if_neg (show k ∉ s.connections from hmem)]
      rfl
  change finish (when (true = true) (if ((s.cut k).protocols k).encoder = .own then _ else _)) (s.cut k) = _
  rw [when, if_pos rfl, if_pos hown', finish_bind hsever, hretries, hpeer, when]
  split <;> rfl

theorem transportLost_other (hother : (s.protocols k).encoder ≠ .own) : finish (transportLost config env k true) s =
    (s.cut k).update k fun p => { p with closed := true } := by
  have hother' : ((s.cut k).protocols k).encoder ≠ .own := by
    rw [cut, update_self]
    exact hother
  change finish (when (true = true) (if ((s.cut k).protocols k).encoder = .own then _ else _)) (s.cut k) = _
  rw [when, if_pos rfl, if_neg hother']
  rfl

theorem Sound.transportLost (env : EncoderContext) (hs : Sound config s) (hstage : (s.protocols k).stage ≠ .connecting) (running : Bool) :
    Sound config (finish (transportLost config env k running) s) := by
  cases running with
  | false => exact hs.cut hstage
  | true =>
    by_cases hown : (s.protocols k).encoder = .own
    · rw [transportLost_own hs hstage hown]
      split
      · exact outcome_finish.mp ((hs.released hstage hown).startConnection _)
      · exact hs.released hstage hown
    · have hself : (s.cut k).protocols k = { s.protocols k with reading := false, disconnected := true } := update_self
      have hstage' : ((s.cut k).protocols k).stage ≠ .connecting := by rw [hself]; exact hstage
      have hown' : ((s.cut k).protocols k).encoder ≠ .own := by rw [hself]; exact hown
      have hplaced := (hs.cut hstage).placed k
      rw [transportLost_other hown]
      exact (hs.cut hstage).elsewhere hstage' hown' hown' hstage' hplaced.unfinished hplaced.flushes

theorem Sound.closeAll {order : List Nat} (hs : Sound config s) (horder : Lists order s) :
    Sound config (finish (closeAll order) s) := by
  have hdone : Sound config { s with done := true } := hs.of_core ⟨rfl, rfl, rfl, rfl, rfl, rfl, rfl, rfl⟩
  have hstarted : ∀ v ∈ order, (s.protocols v).stage ≠ .connecting := fun v hv =>
    (hs.placed v).started (horder.mem.mp hv)
  refine outcome_finish.mp ?_
  simp only [JashEncoder.closeAll, outcome_bind, outcome_modify]
  refine (eq_ok_iff.mp (closeEach_eq hdone hstarted)).mono ?_ fun _ _ => False.elim
  rintro _ _ ⟨rfl, rfl⟩
  exact (hdone.shutEach hstarted).of_core ⟨rfl, rfl, rfl, rfl, rfl, rfl, rfl, rfl⟩

/-! ## The registry -/

theorem sound_new : Sound config new where
  placed k := by
    constructor <;> simp [new, BTProtocol.blank, Active]
  distinct j k h := absurd h.2.1 nofun
  madeNodup := .nil
  lostNodup := .nil
  noKeyError := List.not_mem_nil

theorem step_sound {a : Action} (hs : Sound config s) (hstep : step config s a = some t) : Sound config t := by
  cases a with
  | startConnections env peers =>
    cases hstep
    exact (moves_startConnections (fun h hs => hs.of_core h) keeps_startConnection peers).finish s hs
  | startConnection env peer =>
    cases hstep
    exact (keeps_startConnection peer).finish s hs
  | startConnectionFromQueue env =>
    obtain ⟨_, ⟨⟩⟩ := Option.ite_none_right_eq_some.mp hstep
    exact (moves_startConnectionFromQueue (fun h hs => hs.of_core h) keeps_startConnection).finish s hs
  | connected k host =>
    obtain ⟨hpending, ⟨⟩⟩ := Option.ite_none_right_eq_some.mp hstep
    exact hs.outgoingMade hpending host
  | failed k =>
    obtain ⟨hpending, ⟨⟩⟩ := Option.ite_none_right_eq_some.mp hstep
    exact hs.connectFailed hpending
  | accepted ip port =>
    cases hstep
    exact hs.accept ip port
  | header k =>
    obtain ⟨⟨_, _, hstage⟩, ⟨⟩⟩ := Option.ite_none_right_eq_some.mp hstep
    refine hs.adjust (by simp [hstage]) ?_ (fun h => ?_) rfl rfl rfl rfl (fun h => h) fun _ => rfl
    · exact nofun
    · exact absurd (hstage.symm.trans h) nofun
  | handshake k encrypted =>
    obtain ⟨⟨hreads, _⟩, ⟨⟩⟩ := Option.ite_none_right_eq_some.mp hstep
    exact hs.externallyHandshaked hreads encrypted
  | handshakeElsewhere k encrypted =>
    obtain ⟨⟨hreads, _⟩, ⟨⟩⟩ := Option.ite_none_right_eq_some.mp hstep
    exact hs.externalHandshakeDone hreads encrypted .other (fun j hj => sameAt_update hj) rfl rfl rfl rfl
      update_self nofun
  | peerId k id order =>
    obtain ⟨⟨hreads, hown, horder⟩, ⟨⟩⟩ := Option.ite_none_right_eq_some.mp hstep
    exact hs.readPeerId hreads hown horder id
  | peerIdElsewhere k id complete =>
    obtain ⟨⟨hreads, hother⟩, ⟨⟩⟩ := Option.ite_none_right_eq_some.mp hstep
    exact hs.readPeerIdElsewhere hreads hother id complete
  | write k =>
    obtain ⟨_, ⟨⟩⟩ := Option.ite_none_right_eq_some.mp hstep
    rw [hs.write]
    exact hs
  | close k =>
    obtain ⟨hstage, ⟨⟩⟩ := Option.ite_none_right_eq_some.mp hstep
    exact outcome_finish.mp (hs.close hstage)
  | lost env k running =>
    obtain ⟨⟨hstage, _⟩, ⟨⟩⟩ := Option.ite_none_right_eq_some.mp hstep
    exact hs.transportLost env hstage running
  | closeAll order =>
    obtain ⟨horder, ⟨⟩⟩ := Option.ite_none_right_eq_some.mp hstep
    exact hs.closeAll horder
  | pause flag =>
    cases hstep
    exact hs.of_core ⟨rfl, rfl, rfl, rfl, rfl, rfl, rfl, rfl⟩
  | ban ip =>
    cases hstep
    exact hs.of_core ⟨rfl, rfl, rfl, rfl, rfl, rfl, rfl, rfl⟩

theorem run_sound {as : List Action} (hrun : Run (step config) (fun _ _ => True) new as s) : Sound config s :=
  hrun.invariant (I := Sound config) (fun hs _ hstep => step_sound hs hstep) sound_new

/-- The list of the complete peers: who is in it, and the calls that entered and removed them. -/
structure Registered (config : EncoderConfig) (s : JashEncoder) : Prop where
  keys : ∀ k, k ∈ s.connecter.connections ↔ Active (s.protocols k)
  connected : s.connecter.connections ⊆ s.connections
  distinct : ∀ j ∈ s.connecter.connections, ∀ k ∈ s.connecter.connections,
    (s.protocols j).id = (s.protocols k).id → j = k
  notOwn : ∀ k ∈ s.connecter.connections, (s.protocols k).id ≠ some config.myId
  madeOnce : s.connecter.made.Nodup
  lostOnce : s.connecter.lost.Nodup
  lost : ∀ k, k ∈ s.connecter.lost ↔ k ∈ s.connecter.made ∧ (s.protocols k).closed = true
  noKeyError : .keyError ∉ s.raised

theorem Sound.registered (hs : Sound config s) : Registered config s where
  keys k := (hs.placed k).keys
  connected k hk := (hs.placed k).kept ((hs.placed k).keys.mp hk)
  distinct j hj k hk := hs.distinct j k ((hs.placed j).keys.mp hj) ((hs.placed k).keys.mp hk)
  notOwn k hk := (hs.placed k).notOwn ((hs.placed k).keys.mp hk)
  madeOnce := hs.madeNodup
  lostOnce := hs.lostNodup
  lost k := by rw [(hs.placed k).lost, (hs.placed k).made]
  noKeyError := hs.noKeyError

theorem run_registered {as : List Action} (hrun : Run (step config) (fun _ _ => True) new as s) :
    Registered config s :=
  (run_sound hrun).registered

def exampleConfig : EncoderConfig where
  myId := [0]
  security := false
  useSocks := false
  cryptoOnly := false
  maxConnections := 2
  maxInitiate := 40
  maxHalfOpen := 10
  maxInitiatePerSecond := 5
  globalConnectionLimit := 100
  externalBans := fun _ => false

def exampleContext : EncoderContext where
  ready := true
  others := 0
  now := 1

def examplePeer (port : Nat) : Peer where
  dns := (['a'], port)
  id := none
  encrypted := none

/-- Two connections to one address, on which the same id is read. -/
def exampleActions : List Action :=
  [.startConnections exampleContext [examplePeer 1, examplePeer 2], .connected 0 ['a'], .header 0,
   .peerId 0 [1] [0], .write 0, .connected 1 ['a'], .header 1, .peerId 1 [1] [0, 1]]

theorem example_registered : ∃ s, Run (step exampleConfig) (fun _ _ => True) new exampleActions s ∧
    (s.connecter.made, s.connecter.lost, s.connections) = ([0, 1], [0], {1}) ∧ Registered exampleConfig s := by
  have hend : (exec (step exampleConfig) new exampleActions).any (fun s =>
      (s.connecter.made, s.connecter.lost, s.connections) = ([0, 1], [0], {1})) = true := by
    decide +kernel
  obtain ⟨s, hrun, hs⟩ := exists_run hend (eachStep_true _ _)
  exact ⟨s, hrun, of_decide_eq_true hs, run_registered hrun⟩

end BitBlinder.BitTorrent.JashEncoder
