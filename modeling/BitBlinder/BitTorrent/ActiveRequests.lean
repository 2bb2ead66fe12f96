import BitBlinder.BitTorrent.Downloader
import BitBlinder.BitTorrent.PieceBooks

/-!
# What is asked of whom

The requests of the connections and those of the end game are the ones that the storage has
out: `SoundBut` is the invariant, `extra` are requests that are about to be given back and
`loose` those that a peer need not send any more. Each function of the downloader keeps it, and
none of them raises.
-/

namespace BitBlinder

set_option autoImplicit false

open Struct (Bytes)
open StorageWrapper (Books SameData requestsOf mem_requestsOf)

namespace Downloader
variable {n : Nat} {info : TorrentInfo n} {s t u : Downloader n} {extra : List (Request n)}
  {loose : Nat → List (Request n)} {j k : Nat} {i : Fin n} {r : Request n}

theorem shuffled_perm {α : Type} [DecidableEq α] (l : List α) (order : List Nat) : (shuffled l order).Perm l := by
  unfold shuffled
  dsimp only
  split
  · assumption
  · exact .refl l

/-- The requests of some of the connections. -/
def activeOf (peers : Nat → DownloadPeer n) (l : List Nat) : List (Request n) := l.flatMap fun j => (peers j).active

/-- The requests that the storage has out. -/
def outstanding (s : Downloader n) : List (Request n) :=
  if s.endgamemode then s.allRequests else activeOf s.peers s.downloads

/-- A connection asks for pieces that the peer has, while it is interested and not choked. -/
structure PeerOk (d : DownloadPeer n) : Prop where
  distinct : d.active.Nodup
  ready : d.active ≠ [] → d.interested = true ∧ d.choked = false
  asked : ∀ r ∈ d.active, d.haves r.1 = true
  fresh : d.gotAnything = false → d.choked = true

structure SoundBut (info : TorrentInfo n) (extra : List (Request n)) (loose : Nat → List (Request n))
    (s : Downloader n) : Prop where
  books : Books info s.storage info.cut (extra ++ outstanding s)
  nodup : s.downloads.Nodup
  made : ∀ j ∈ s.downloads, j < s.made
  idle : s.endgamemode = false → s.allRequests = []
  within : s.endgamemode = true → ∀ j ∈ s.downloads, ∀ r ∈ (s.peers j).active, r ∈ s.allRequests ∨ r ∈ loose j
  peer : ∀ j ∈ s.downloads, PeerOk (s.peers j)

def noLoose : Nat → List (Request n) := fun _ => []

structure Sound (info : TorrentInfo n) (s : Downloader n) : Prop extends SoundBut info [] noLoose s where
  paused : s.paused = true → s.endgamemode = false ∧ ∀ j ∈ s.downloads, (s.peers j).active = []

/-! ### What stays -/

/-- What the loops over the connections rely on. -/
structure Kept (s t : Downloader n) : Prop where
  downloads : t.downloads = s.downloads
  made : t.made = s.made
  paused : t.paused = s.paused
  choked : ∀ k, (t.peers k).choked = (s.peers k).choked
  haves : ∀ k, (t.peers k).haves = (s.peers k).haves
  data : SameData s.storage t.storage
  events : t.events = s.events

theorem Kept.trans (h : Kept s t) (h' : Kept t u) : Kept s u where
  downloads := h'.downloads.trans h.downloads
  made := h'.made.trans h.made
  paused := h'.paused.trans h.paused
  choked := fun k => (h'.choked k).trans (h.choked k)
  haves := fun k => (h'.haves k).trans (h.haves k)
  data := h.data.trans h'.data
  events := h'.events.trans h.events

/-- No data came. -/
structure Unmoved (s t : Downloader n) : Prop where
  data : SameData s.storage t.storage
  events : t.events = s.events

theorem Unmoved.refl (s : Downloader n) : Unmoved s s := ⟨.refl _, rfl⟩

theorem Unmoved.trans (h : Unmoved s t) (h' : Unmoved t u) : Unmoved s u :=
  ⟨h.data.trans h'.data, h'.events.trans h.events⟩

theorem Kept.unmoved (h : Kept s t) : Unmoved s t := ⟨h.data, h.events⟩

/-- While the torrent is paused no request is made. -/
structure Calm (s t : Downloader n) : Prop extends Kept s t where
  still : s.paused = true → t.endgamemode = s.endgamemode ∧ ∀ k, (t.peers k).active = (s.peers k).active

namespace Calm

theorem refl (s : Downloader n) : Calm s s :=
  ⟨⟨rfl, rfl, rfl, fun _ => rfl, fun _ => rfl, .refl _, rfl⟩, fun _ => ⟨rfl, fun _ => rfl⟩⟩

theorem trans (h : Calm s t) (h' : Calm t u) : Calm s u where
  toKept := h.toKept.trans h'.toKept
  still := fun hp =>
    have hp' := h.paused.trans hp
    ⟨(h'.still hp').1.trans (h.still hp).1, fun k => ((h'.still hp').2 k).trans ((h.still hp).2 k)⟩

theorem keepsPaused (h : Calm s t) (hs : s.paused = true → s.endgamemode = false ∧ ∀ j ∈ s.downloads, (s.peers j).active = []) :
    t.paused = true → t.endgamemode = false ∧ ∀ j ∈ t.downloads, (t.peers j).active = [] := by
  intro hp
  have hp' := h.paused.symm.trans hp
  obtain ⟨hend, hactive⟩ := hs hp'
  refine ⟨(h.still hp').1.trans hend, fun j hj => ?_⟩
  rw [h.downloads] at hj
  exact ((h.still hp').2 j).trans (hactive j hj)

end Calm

theorem Calm.setPeer {d : DownloadPeer n} (hp : s.paused = false) (hchoked : d.choked = (s.peers j).choked)
    (hhaves : d.haves = (s.peers j).haves) : Calm s (setPeer s j d) := by
  have hpeer : ∀ k, ((Downloader.setPeer s j d).peers k) = if k = j then d else s.peers k := fun k =>
    Function.update_apply ..
  refine ⟨⟨rfl, rfl, rfl, fun k => ?_, fun k => ?_, .refl _, rfl⟩, fun hbad => absurd (hp.symm.trans hbad) Bool.false_ne_true⟩
  all_goals
    rw [hpeer k]
    split
    · rename_i hk
      rw [hk]
      assumption
    · rfl

theorem Calm.storage {storage : StorageWrapper n Nat} (h : SameData s.storage storage) : Calm s { s with storage := storage } :=
  ⟨⟨rfl, rfl, rfl, fun _ => rfl, fun _ => rfl, h, rfl⟩, fun _ => ⟨rfl, fun _ => rfl⟩⟩

/-- Nothing of the requests changes. -/
structure Quiet (s t : Downloader n) : Prop where
  storage : t.storage = s.storage
  events : t.events = s.events
  downloads : t.downloads = s.downloads
  made : t.made = s.made
  endgamemode : t.endgamemode = s.endgamemode
  allRequests : t.allRequests = s.allRequests
  paused : t.paused = s.paused
  active : ∀ k, (t.peers k).active = (s.peers k).active
  choked : ∀ k, (t.peers k).choked = (s.peers k).choked
  haves : ∀ k, (t.peers k).haves = (s.peers k).haves
  interested : ∀ k, (s.peers k).active ≠ [] → (s.peers k).interested = true → (t.peers k).interested = true
  fresh : ∀ k, (t.peers k).gotAnything = false → (s.peers k).gotAnything = false

namespace Quiet

theorem refl (s : Downloader n) : Quiet s s :=
  ⟨rfl, rfl, rfl, rfl, rfl, rfl, rfl, fun _ => rfl, fun _ => rfl, fun _ => rfl, fun _ _ h => h, fun _ h => h⟩

theorem trans (h : Quiet s t) (h' : Quiet t u) : Quiet s u where
  storage := h'.storage.trans h.storage
  events := h'.events.trans h.events
  downloads := h'.downloads.trans h.downloads
  made := h'.made.trans h.made
  endgamemode := h'.endgamemode.trans h.endgamemode
  allRequests := h'.allRequests.trans h.allRequests
  paused := h'.paused.trans h.paused
  active := fun k => (h'.active k).trans (h.active k)
  choked := fun k => (h'.choked k).trans (h.choked k)
  haves := fun k => (h'.haves k).trans (h.haves k)
  interested := fun k hne hi => h'.interested k (h.active k ▸ hne) (h.interested k hne hi)
  fresh := fun k hk => h.fresh k (h'.fresh k hk)

theorem calm (h : Quiet s t) : Calm s t where
  downloads := h.downloads
  made := h.made
  paused := h.paused
  choked := h.choked
  haves := h.haves
  data := h.storage ▸ .refl _
  events := h.events
  still := fun _ => ⟨h.endgamemode, h.active⟩

theorem unmoved (h : Quiet s t) : Unmoved s t := h.calm.unmoved

theorem outstanding_eq (h : Quiet s t) : outstanding t = outstanding s := by
  unfold outstanding activeOf
  rw [h.endgamemode, h.allRequests, h.downloads]
  simp only [h.active]

theorem sound (h : Quiet s t) (hs : SoundBut info extra loose s) : SoundBut info extra loose t where
  books := by
    rw [h.storage, h.outstanding_eq]
    exact hs.books
  nodup := h.downloads ▸ hs.nodup
  made := by
    rw [h.downloads, h.made]
    exact hs.made
  idle := by
    rw [h.endgamemode, h.allRequests]
    exact hs.idle
  within := by
    rw [h.endgamemode, h.allRequests, h.downloads]
    simp only [h.active]
    exact hs.within
  peer := by
    intro j hj
    rw [h.downloads] at hj
    have hpeer := hs.peer j hj
    refine ⟨?_, fun hne => ?_, ?_, fun hnew => ?_⟩
    · rw [h.active]
      exact hpeer.distinct
    · rw [h.active] at hne
      rw [h.choked]
      exact ⟨h.interested j hne (hpeer.ready hne).1, (hpeer.ready hne).2⟩
    · rw [h.active, h.haves]
      exact hpeer.asked
    · rw [h.choked]
      exact hpeer.fresh (h.fresh j hnew)

/-- A peer whose requests stay. -/
theorem setPeer {d : DownloadPeer n} (hactive : d.active = (s.peers j).active) (hchoked : d.choked = (s.peers j).choked)
    (hhaves : d.haves = (s.peers j).haves) (hint : (s.peers j).active ≠ [] → (s.peers j).interested = true → d.interested = true)
    (hfresh : d.gotAnything = false → (s.peers j).gotAnything = false) : Quiet s (setPeer s j d) := by
  have hpeer : ∀ k, ((Downloader.setPeer s j d).peers k) = if k = j then d else s.peers k := fun k =>
    Function.update_apply ..
  refine ⟨rfl, rfl, rfl, rfl, rfl, rfl, rfl, fun k => ?_, fun k => ?_, fun k => ?_, fun k => ?_, fun k => ?_⟩
  all_goals
    rw [hpeer k]
    split
    · rename_i hk
      subst hk
      assumption
    · first | rfl | exact fun _ h => h | exact id

theorem sendInterested (s : Downloader n) (j : Nat) : Quiet s (sendInterested s j) :=
  .setPeer rfl rfl rfl (fun _ _ => rfl) id

theorem sendNotInterested (h : (s.peers j).active = []) : Quiet s (sendNotInterested s j) :=
  .setPeer rfl rfl rfl (fun hne => absurd h hne) id

theorem choices (s : Downloader n) (c : Choices n) : Quiet s { s with choices := c } :=
  ⟨rfl, rfl, rfl, rfl, rfl, rfl, rfl, fun _ => rfl, fun _ => rfl, fun _ => rfl, fun _ _ h => h, fun _ h => h⟩

theorem refreshBacklog (s : Downloader n) (j : Nat) : Quiet s (refreshBacklog s j) := by
  unfold Downloader.refreshBacklog
  exact (choices s _).trans (.setPeer rfl rfl rfl (fun _ h => h) id)

theorem dropOrder (s : Downloader n) : Quiet s (dropOrder s) := choices s _

theorem dropPick (s : Downloader n) : Quiet s (dropPick s) := choices s _

theorem foldl {f : Downloader n → Nat → Downloader n} (h : ∀ s k, Quiet s (f s k)) (l : List Nat) (s : Downloader n) :
    Quiet s (l.foldl f s) := by
  induction l generalizing s with
  | nil => exact .refl s
  | cons k rest ih => exact (h s k).trans (ih (f s k))

theorem loseInterest (lost : List (Fin n)) (s : Downloader n) (k : Nat) : Quiet s (loseInterest lost s k) := by
  unfold Downloader.loseInterest
  dsimp only
  split
  · exact .refl s
  · rename_i hnone
    have hactive : (s.peers k).active = [] := not_not.mp (not_or.mp hnone).1
    split
    · exact .refl s
    · split
      · exact .refl s
      · split
        · exact (dropPick s).trans (.sendNotInterested hactive)
        · exact (dropPick s).trans (.setPeer rfl rfl rfl (fun _ h => h) id)

theorem interestIn (lost : List (Fin n)) (s : Downloader n) (k : Nat) : Quiet s (interestIn lost s k) := by
  unfold Downloader.interestIn
  dsimp only
  split
  · exact .sendInterested s k
  · exact .refl s

theorem interestAgain (i : Fin n) (s : Downloader n) (k : Nat) : Quiet s (interestAgain i s k) := by
  unfold Downloader.interestAgain
  split
  · exact .setPeer rfl rfl rfl (fun _ _ => rfl) id
  · exact .refl s

theorem checkInterests (s : Downloader n) (j : Nat) : Quiet s (checkInterests s j) := by
  unfold Downloader.checkInterests
  dsimp only
  split
  · exact .refl s
  · split
    · exact .sendInterested s j
    · exact .refl s

end Quiet

/-! ### The lists of requests -/

theorem peers_setPeer_self (s : Downloader n) (j : Nat) (d : DownloadPeer n) : (setPeer s j d).peers j = d :=
  Function.update_self ..

theorem peers_setPeer_of_ne (s : Downloader n) (h : k ≠ j) (d : DownloadPeer n) : (setPeer s j d).peers k = s.peers k :=
  Function.update_of_ne h _ _

theorem activeOf_setPeer_of_not_mem (s : Downloader n) (d : DownloadPeer n) {l : List Nat} (h : j ∉ l) :
    activeOf (setPeer s j d).peers l = activeOf s.peers l := by
  refine List.flatMap_congr fun k hk => ?_
  have hne : k ≠ j := by
    rintro rfl
    exact h hk
  rw [peers_setPeer_of_ne s hne]

theorem activeOf_perm (peers : Nat → DownloadPeer n) {l : List Nat} (h : j ∈ l) :
    (activeOf peers l).Perm ((peers j).active ++ activeOf peers (l.erase j)) :=
  (List.perm_cons_erase h).flatMap_right _

theorem activeOf_setPeer (s : Downloader n) (d : DownloadPeer n) {l : List Nat} (hl : l.Nodup) (h : j ∈ l) :
    (activeOf (setPeer s j d).peers l).Perm (d.active ++ activeOf s.peers (l.erase j)) := by
  have hperm := activeOf_perm (setPeer s j d).peers h
  rwa [peers_setPeer_self, activeOf_setPeer_of_not_mem s d hl.not_mem_erase] at hperm

theorem mem_activeOf {peers : Nat → DownloadPeer n} {l : List Nat} :
    r ∈ activeOf peers l ↔ ∃ j ∈ l, r ∈ (peers j).active := List.mem_flatMap

/-- No request is out twice. -/
theorem nodup_of_books {out : List (Request n)} {cut : Fin n → List (Nat × Nat)} {storage : StorageWrapper n Nat}
    (h : Books info storage cut out) : out.Nodup := by
  rw [List.nodup_iff_sublist]
  intro r hr
  have hrow := (hr.filter fun q => decide (q.1 = r.1)).map Prod.snd
  have hpair : [r, r].filter (fun q => decide (q.1 = r.1)) = [r, r] :=
    List.filter_eq_self.mpr fun q hq => decide_eq_true (congrArg Prod.fst ((List.mem_pair.mp hq).elim id id))
  rw [hpair] at hrow
  cases (h.piece r.1).ranges with
  | untouched _ _ hout _ => exact absurd (mem_requestsOf.mpr (hr.subset List.mem_cons_self)) (hout ▸ List.not_mem_nil)
  | done _ _ hout _ => exact absurd (mem_requestsOf.mpr (hr.subset List.mem_cons_self)) (hout ▸ List.not_mem_nil)
  | chunks _ _ _ htiles hshared => exact List.nodup_iff_sublist.mp (hshared.out_nodup htiles.nodup) r.2 hrow

theorem outstanding_of_endgame (h : s.endgamemode = true) : outstanding s = s.allRequests := if_pos h

theorem outstanding_of_not (h : s.endgamemode = false) : outstanding s = activeOf s.peers s.downloads :=
  if_neg (h ▸ Bool.false_ne_true)

/-! ### The end game -/

theorem forall_setPeer {P : DownloadPeer n → Prop} {d : DownloadPeer n} {l : List Nat} (h : ∀ k ∈ l, P (s.peers k))
    (hd : P d) : ∀ k ∈ l, P ((setPeer s j d).peers k) := by
  intro k hk
  by_cases hkj : k = j
  · rw [hkj, peers_setPeer_self]
    exact hd
  · rw [peers_setPeer_of_ne s hkj]
    exact h k hk

/-- A peer has other requests of the end game. -/
theorem SoundBut.changeInEndgame (hs : SoundBut info extra loose s) (hend : s.endgamemode = true) {d : DownloadPeer n}
    {loose' : Nat → List (Request n)} (hloose : ∀ k, k ≠ j → loose' k = loose k)
    (hactive : j ∈ s.downloads → ∀ r ∈ d.active, r ∈ s.allRequests ∨ r ∈ loose' j) (hd : PeerOk d) :
    SoundBut info extra loose' (setPeer s j d) where
  books := by
    have hout : outstanding (setPeer s j d) = outstanding s := by
      rw [outstanding_of_endgame hend]
      exact outstanding_of_endgame hend
    rw [hout]
    exact hs.books
  nodup := hs.nodup
  made := hs.made
  idle := hs.idle
  within := by
    intro _ k hk r hr
    by_cases hkj : k = j
    · subst hkj
      rw [peers_setPeer_self] at hr
      exact hactive hk r hr
    · rw [peers_setPeer_of_ne _ hkj] at hr
      rw [hloose k hkj]
      exact hs.within hend k hk r hr
  peer := forall_setPeer hs.peer hd

/-- What the steps of the end game leave alone. -/
structure Fixed (s t : Downloader n) : Prop extends Calm s t where
  storage : t.storage = s.storage
  endgamemode : t.endgamemode = s.endgamemode
  allRequests : t.allRequests = s.allRequests

namespace Fixed

theorem trans (h : Fixed s t) (h' : Fixed t u) : Fixed s u :=
  ⟨h.toCalm.trans h'.toCalm, h'.storage.trans h.storage, h'.endgamemode.trans h.endgamemode,
    h'.allRequests.trans h.allRequests⟩

theorem of_quiet (h : Quiet s t) : Fixed s t := ⟨h.calm, h.storage, h.endgamemode, h.allRequests⟩

end Fixed

theorem mem_wantOf : r ∈ wantOf s j ↔ r ∈ s.allRequests ∧ (s.peers j).haves r.1 = true ∧ r ∉ (s.peers j).active := by
  unfold wantOf
  rw [List.mem_filter, Bool.and_eq_true, Bool.not_eq_true', List.contains_eq_mem, decide_eq_false_iff_not]

theorem askFor_spec (hs : SoundBut info extra loose s) (hend : s.endgamemode = true) (hp : s.paused = false)
    {want : List (Request n)} (hwant : ∀ r ∈ want, r ∈ wantOf s j) (hnodup : want.Nodup)
    (hj : j ∈ s.downloads) (hint : want ≠ [] → (s.peers j).interested = true) :
    SoundBut info extra loose (askFor s j want) ∧ Fixed s (askFor s j want) := by
  unfold askFor
  dsimp only
  split
  · exact ⟨hs, .of_quiet (.refl s)⟩
  · rename_i hchoked
    have hperm : (shuffleOf s want).Perm want := shuffled_perm want _
    have hsub : ((shuffleOf s want).take ((s.peers j).backlog - (s.peers j).active.length)).Nodup :=
      (hperm.nodup_iff.mpr hnodup).sublist (List.take_sublist _ _)
    have hmem : ∀ r ∈ (shuffleOf s want).take ((s.peers j).backlog - (s.peers j).active.length), r ∈ want :=
      fun r hr => hperm.mem_iff.mp (List.mem_of_mem_take hr)
    generalize (shuffleOf s want).take ((s.peers j).backlog - (s.peers j).active.length) = more at hsub hmem
    have hquiet := Quiet.dropOrder s
    have hpeer := hs.peer j hj
    have hnew : ∀ r ∈ more, r ∈ s.allRequests ∧ (s.peers j).haves r.1 = true ∧ r ∉ (s.peers j).active := fun r hr =>
      mem_wantOf.mp (hwant r (hmem r hr))
    refine ⟨(hquiet.sound hs).changeInEndgame hend (fun _ _ => rfl) (fun _ r hr => ?_) ⟨?_, fun hne => ?_, fun r hr => ?_, hpeer.fresh⟩,
      ⟨hquiet.calm.trans (.setPeer hp rfl rfl), rfl, rfl, rfl⟩⟩
    · rcases List.mem_append.mp hr with hr | hr
      · exact hs.within hend j hj r hr
      · exact Or.inl (hnew r hr).1
    · exact hpeer.distinct.append hsub fun r hr hr' => (hnew r hr').2.2 hr
    · refine ⟨?_, eq_false_of_ne_true hchoked⟩
      by_cases hactive : (s.peers j).active = []
      · refine hint fun hnil => hne ?_
        change (s.peers j).active ++ more = []
        rw [hactive, List.nil_append]
        exact List.eq_nil_iff_forall_not_mem.mpr fun r hr => List.not_mem_nil (hnil ▸ hmem r hr)
      · exact (hpeer.ready hactive).1
    · rcases List.mem_append.mp hr with hr | hr
      · exact hpeer.asked r hr
      · exact (hnew r hr).2.1

theorem SoundBut.allNodup (hs : SoundBut info extra loose s) (hend : s.endgamemode = true) : s.allRequests.Nodup := by
  have hnodup := nodup_of_books hs.books
  rw [outstanding_of_endgame hend] at hnodup
  exact hnodup.of_append_right

theorem askAgain_spec (hs : SoundBut info extra loose s) (hend : s.endgamemode = true) (hp : s.paused = false)
    (hj : j ∈ s.downloads) : SoundBut info extra loose (askAgain s j) ∧ Fixed s (askAgain s j) := by
  have hnodup : (wantOf s j).Nodup := (hs.allNodup hend).filter _
  unfold askAgain
  split
  · exact ⟨hs, .of_quiet (.refl s)⟩
  · split
    · rename_i hempty
      have hquiet := Quiet.sendNotInterested (List.isEmpty_iff.mp (Bool.and_eq_true_iff.mp hempty).1)
      exact ⟨hquiet.sound hs, .of_quiet hquiet⟩
    · split
      · rename_i hnil
        rw [List.isEmpty_iff.mp hnil]
        exact askFor_spec hs hend hp (fun r hr => absurd hr List.not_mem_nil) List.nodup_nil hj fun hne => absurd rfl hne
      · have hquiet := Quiet.sendInterested s j
        have hwant : ∀ r ∈ wantOf s j, r ∈ wantOf (sendInterested s j) j := fun r hr => by
          obtain ⟨hall, hhave, hnot⟩ := mem_wantOf.mp hr
          exact mem_wantOf.mpr ⟨hall, (hquiet.haves j).symm ▸ hhave, (hquiet.active j).symm ▸ hnot⟩
        have hint : ((sendInterested s j).peers j).interested = true := congrArg DownloadPeer.interested (peers_setPeer_self s j _)
        obtain ⟨hsound, hfixed⟩ := askFor_spec (hquiet.sound hs) hend hp hwant hnodup hj fun _ => hint
        exact ⟨hsound, (Fixed.of_quiet hquiet).trans hfixed⟩

theorem fixDownloadEndgame_spec (hs : SoundBut info extra loose s) (hend : s.endgamemode = true) (hj : j ∈ s.downloads) :
    SoundBut info extra loose (fixDownloadEndgame s j) ∧ Fixed s (fixDownloadEndgame s j) := by
  unfold fixDownloadEndgame
  cases hp : s.paused with
  | true =>
    rw [if_pos rfl]
    exact ⟨hs, .of_quiet (.refl s)⟩
  | false =>
    have hquiet := Quiet.refreshBacklog s j
    rw [if_neg Bool.false_ne_true]
    obtain ⟨hsound, hfixed⟩ := askAgain_spec (hquiet.sound hs) (hquiet.endgamemode.trans hend) (hquiet.paused.trans hp)
      (hquiet.downloads ▸ hj)
    exact ⟨hsound, (Fixed.of_quiet hquiet).trans hfixed⟩

theorem fixEach_spec {l : List Nat} (hs : SoundBut info extra loose s) (hend : s.endgamemode = true)
    (hl : ∀ k ∈ l, k ∈ s.downloads) : SoundBut info extra loose (fixEach l s) ∧ Fixed s (fixEach l s) := by
  unfold fixEach
  induction l generalizing s with
  | nil => exact ⟨hs, .of_quiet (.refl s)⟩
  | cons k rest ih =>
    obtain ⟨hsound, hfixed⟩ := fixDownloadEndgame_spec hs hend (hl k List.mem_cons_self)
    obtain ⟨hsound', hfixed'⟩ := ih hsound (hfixed.endgamemode.trans hend) fun m hm => by
      rw [hfixed.downloads]
      exact hl m (List.mem_cons_of_mem k hm)
    exact ⟨hsound', hfixed.trans hfixed'⟩

/-! ### The beginning of the end game -/

theorem addRequests_eq {l all : List (Request n)} (h : (all ++ l).Nodup) : addRequests l all = .ok (all ++ l) := by
  induction l generalizing all with
  | nil =>
    rw [List.append_nil]
    rfl
  | cons r rest ih =>
    have hr : r ∉ all := fun hbad => List.disjoint_of_nodup_append h hbad List.mem_cons_self
    rw [List.append_cons] at h ⊢
    rw [addRequests, if_neg hr]
    exact ih h

theorem collect_eq {peers : Nat → DownloadPeer n} {l : List Nat} {all : List (Request n)}
    (hready : ∀ j ∈ l, (peers j).active ≠ [] → (peers j).interested = true ∧ (peers j).choked = false)
    (h : (all ++ activeOf peers l).Nodup) : collect peers l all = .ok (all ++ activeOf peers l) := by
  induction l generalizing all with
  | nil =>
    rw [activeOf, List.flatMap_nil, List.append_nil]
    rfl
  | cons j rest ih =>
    have hcons : activeOf peers (j :: rest) = (peers j).active ++ activeOf peers rest := List.flatMap_cons
    rw [hcons, ← List.append_assoc] at h ⊢
    rw [collect, if_neg fun hbad => hbad.2 (hready j List.mem_cons_self hbad.1), addRequests_eq h.of_append_left]
    exact ih (fun k hk => hready k (List.mem_cons_of_mem j hk)) h

theorem startEndgame_spec (hs : SoundBut info extra loose s) (hend : s.endgamemode = false) (hp : s.paused = false) :
    ∃ t, startEndgame s = .ok t ∧ SoundBut info extra loose t ∧ Calm s t := by
  have hnodup := nodup_of_books hs.books
  rw [outstanding_of_not hend] at hnodup
  have hcollect : collect s.peers s.downloads [] = .ok (activeOf s.peers s.downloads) :=
    collect_eq (fun k hk => (hs.peer k hk).ready) hnodup.of_append_right
  have hbegun : SoundBut info extra loose { s with endgamemode := true, allRequests := activeOf s.peers s.downloads } := by
    refine ⟨?_, hs.nodup, hs.made, fun hbad => absurd hbad.symm Bool.false_ne_true, ?_, hs.peer⟩
    · have hbooks := hs.books
      rw [outstanding_of_not hend] at hbooks
      rw [outstanding_of_endgame rfl]
      exact hbooks
    · exact fun _ k hk r hr => Or.inl (mem_activeOf.mpr ⟨k, hk, hr⟩)
  obtain ⟨hsound, hfixed⟩ := fixEach_spec hbegun rfl fun _ hk => hk
  unfold startEndgame
  rw [hend, if_neg Bool.false_ne_true, if_neg fun hbad => hbad (hs.idle hend), hcollect]
  have hcalm : Calm s { s with endgamemode := true, allRequests := activeOf s.peers s.downloads } :=
    ⟨⟨rfl, rfl, rfl, fun _ => rfl, fun _ => rfl, .refl _, rfl⟩, fun hbad => absurd (hp.symm.trans hbad) Bool.false_ne_true⟩
  exact ⟨_, rfl, hsound, hcalm.trans hfixed.toCalm⟩

/-! ### Asking for more -/

/-- The requests of one peer change outside of the end game. -/
theorem SoundBut.changeActive (hs : SoundBut info extra loose s) (hend : s.endgamemode = false) (hj : j ∈ s.downloads)
    {d : DownloadPeer n} {storage : StorageWrapper n Nat} {extra' : List (Request n)}
    (hbooks : Books info storage info.cut (extra' ++ (d.active ++ activeOf s.peers (s.downloads.erase j))))
    (hready : d.active ≠ [] → d.interested = true ∧ d.choked = false) (hasked : ∀ r ∈ d.active, d.haves r.1 = true)
    (hfresh : d.gotAnything = false → d.choked = true) :
    SoundBut info extra' loose (setPeer { s with storage := storage } j d) where
  books := by
    have hout : outstanding (setPeer { s with storage := storage } j d) = activeOf (setPeer s j d).peers s.downloads :=
      outstanding_of_not hend
    rw [hout]
    exact hbooks.perm ((activeOf_setPeer s d hs.nodup hj).symm.append_left extra')
  nodup := hs.nodup
  made := hs.made
  idle := hs.idle
  within := fun hbad => absurd (hend.symm.trans hbad) Bool.false_ne_true
  peer := forall_setPeer (s := { s with storage := storage }) hs.peer
    ⟨(nodup_of_books hbooks).of_append_right.of_append_left, hready, hasked, hfresh⟩

/-- The books with the requests of one peer apart. -/
theorem SoundBut.booksOf (hs : SoundBut info extra loose s) (hend : s.endgamemode = false) (hj : j ∈ s.downloads) :
    Books info s.storage info.cut (extra ++ ((s.peers j).active ++ activeOf s.peers (s.downloads.erase j))) := by
  have hbooks := hs.books
  rw [outstanding_of_not hend] at hbooks
  exact hbooks.perm ((activeOf_perm s.peers hj).append_left extra)

/-- What the loops of `_request_more` keep. -/
structure Asking (info : TorrentInfo n) (extra : List (Request n)) (loose : Nat → List (Request n)) (s t : Downloader n) : Prop where
  sound : SoundBut info extra loose t
  calm : Calm s t
  endgamemode : t.endgamemode = false
  paused : t.paused = false
  blocked : t.storage.blocked = s.storage.blocked

namespace Asking

theorem trans (h : Asking info extra loose s t) (h' : Asking info extra loose t u) : Asking info extra loose s u :=
  ⟨h'.sound, h.calm.trans h'.calm, h'.endgamemode, h'.paused, h'.blocked.trans h.blocked⟩

theorem of_quiet (h : Quiet s t) (hs : SoundBut info extra loose s) (hend : s.endgamemode = false) (hp : s.paused = false) :
    Asking info extra loose s t :=
  ⟨h.sound hs, h.calm, h.endgamemode.trans hend, h.paused.trans hp, congrArg StorageWrapper.blocked h.storage⟩

end Asking

theorem takeParts_spec (fuel : Nat) (hs : SoundBut info extra loose s) (hend : s.endgamemode = false)
    (hp : s.paused = false) (hj : j ∈ s.downloads) (hchoked : (s.peers j).choked = false)
    (hint : (s.peers j).interested = true) (hhave : (s.peers j).haves i = true) (hblocked : s.storage.blocked i = false)
    (hreq : s.storage.doIHaveRequests i = true) :
    ∃ p, takeParts info j i fuel s = .ok p ∧ Asking info extra loose s p.2 := by
  induction fuel generalizing s with
  | zero => exact ⟨_, rfl, .of_quiet (.refl s) hs hend hp⟩
  | succ fuel ih =>
    rw [takeParts]
    split
    · exact ⟨_, rfl, .of_quiet (.refl s) hs hend hp⟩
    · obtain ⟨r, storage, hnew, hbooks, hsame, -⟩ := hs.books.newRequest hblocked hreq
      rw [StorageWrapper.recut_cut] at hbooks
      rw [hnew, PyExcept.ok_bind]
      have hcalm : Calm s (setPeer { s with storage := storage } j
          { s.peers j with active := (s.peers j).active ++ [(i, r)] }) := (Calm.storage hsame).trans (.setPeer hp rfl rfl)
      have hsound : SoundBut info extra loose (setPeer { s with storage := storage } j
          { s.peers j with active := (s.peers j).active ++ [(i, r)] }) := by
        refine hs.changeActive hend hj ?_ (fun _ => ⟨hint, hchoked⟩) (fun q hq => ?_) (hs.peer j hj).fresh
        · refine hbooks.perm ?_
          rw [outstanding_of_not hend, List.append_assoc]
          exact List.perm_middle.symm.trans
            ((((activeOf_perm s.peers hj).cons (i, r)).trans List.perm_middle.symm).append_left extra)
        · rcases List.mem_append.mp hq with hq | hq
          · exact (hs.peer j hj).asked q hq
          · rw [List.mem_singleton.mp hq]
            exact hhave
      have hasking : Asking info extra loose s (setPeer { s with storage := storage } j
          { s.peers j with active := (s.peers j).active ++ [(i, r)] }) := ⟨hsound, hcalm, hend, hp, hsame.blocked⟩
      dsimp only
      split
      · rename_i hmore
        obtain ⟨p, hrun, hrest⟩ := ih hsound hend hp hj (by rw [peers_setPeer_self]; exact hchoked)
          (by rw [peers_setPeer_self]; exact hint) (by rw [peers_setPeer_self]; exact hhave)
          ((congrFun hsame.blocked i).trans hblocked) hmore
        exact ⟨p, hrun, hasking.trans hrest⟩
      · exact ⟨_, rfl, hasking⟩

theorem pickerNext_some (h : pickerNext s j = some i) :
    (s.peers j).haves i = true ∧ s.storage.doIHaveRequests i = true ∧ s.storage.blocked i = false := by
  obtain ⟨-, hi⟩ := Option.filter_eq_some_iff.mp h
  rw [Bool.and_eq_true, Bool.and_eq_true, Bool.not_eq_true'] at hi
  exact ⟨hi.1.1, hi.1.2, hi.2⟩

theorem takePieces_spec (fuel : Nat) (lost : List (Fin n)) (hs : SoundBut info extra loose s)
    (hend : s.endgamemode = false) (hp : s.paused = false) (hj : j ∈ s.downloads) (hchoked : (s.peers j).choked = false) :
    ∃ p, takePieces info j fuel lost s = .ok p ∧ Asking info extra loose s p.2 := by
  induction fuel generalizing s lost with
  | zero => exact ⟨_, rfl, .of_quiet (.refl s) hs hend hp⟩
  | succ fuel ih =>
    rw [takePieces]
    split
    · exact ⟨_, rfl, .of_quiet (.refl s) hs hend hp⟩
    · split
      · exact ⟨_, rfl, .of_quiet (.dropPick s) hs hend hp⟩
      · rename_i i hnext
        obtain ⟨hhave, hreq, hblocked⟩ := pickerNext_some hnext
        have hquiet : Quiet s (setPeer (dropPick s) j { (dropPick s).peers j with exampleInterest := some i, interested := true }) :=
          (Quiet.dropPick s).trans (.setPeer rfl rfl rfl (fun _ _ => rfl) id)
        have hasking := Asking.of_quiet hquiet hs hend hp
        have hself : (setPeer (dropPick s) j { (dropPick s).peers j with exampleInterest := some i, interested := true }).peers j =
            { s.peers j with exampleInterest := some i, interested := true } := peers_setPeer_self _ _ _
        dsimp only
        generalize setPeer (dropPick s) j { (dropPick s).peers j with exampleInterest := some i, interested := true } = t at *
        obtain ⟨p, hrun, hparts⟩ := takeParts_spec (t.peers j).backlog hasking.sound hasking.endgamemode hasking.paused
          (hquiet.downloads ▸ hj) (by rw [hself]; exact hchoked) (by rw [hself]) (by rw [hself]; exact hhave)
          ((congrFun hasking.blocked i).trans hblocked) (by rw [hquiet.storage]; exact hreq)
        have hboth := hasking.trans hparts
        obtain ⟨q, hrun', hrest⟩ := ih (if p.1 then lost ++ [i] else lost) hboth.sound hboth.endgamemode hboth.paused
          (by rw [hboth.calm.downloads]; exact hj) ((hboth.calm.choked j).trans hchoked)
        refine ⟨q, ?_, hboth.trans hrest⟩
        rw [hrun]
        exact hrun'

theorem requestMore_spec (hs : SoundBut info extra loose s) (hj : j ∈ s.downloads) (hchoked : (s.peers j).choked = false) :
    ∃ t, requestMore info s j = .ok t ∧ SoundBut info extra loose t ∧ Calm s t := by
  unfold requestMore
  rw [hchoked, if_neg Bool.false_ne_true]
  cases hend : s.endgamemode with
  | true =>
    rw [if_pos rfl]
    obtain ⟨hsound, hfixed⟩ := fixDownloadEndgame_spec hs hend hj
    exact ⟨_, rfl, hsound, hfixed.toCalm⟩
  | false =>
    rw [if_neg Bool.false_ne_true]
    cases hp : s.paused with
    | true => exact ⟨s, rfl, hs, .refl s⟩
    | false =>
      rw [if_neg Bool.false_ne_true]
      have hquiet := Quiet.refreshBacklog s j
      have hasking := Asking.of_quiet hquiet hs hend hp
      dsimp only
      split
      · exact ⟨_, rfl, hasking.sound, hasking.calm⟩
      · obtain ⟨p, hrun, hpieces⟩ := takePieces_spec ((refreshBacklog s j).peers j).backlog [] hasking.sound
          hasking.endgamemode hasking.paused (hquiet.downloads ▸ hj) ((hquiet.choked j).trans hchoked)
        have hboth := hasking.trans hpieces
        rw [hrun, PyExcept.ok_bind]
        have hquiet₁ : Quiet p.2 (if (p.2.peers j).active.isEmpty then sendNotInterested p.2 j else p.2) := by
          split
          · rename_i hempty
            exact .sendNotInterested (List.isEmpty_iff.mp hempty)
          · exact .refl _
        generalize (if (p.2.peers j).active.isEmpty then sendNotInterested p.2 j else p.2) = t₁ at *
        have hquiet₂ : Quiet t₁ (if p.1.isEmpty then t₁ else t₁.downloads.foldl (loseInterest p.1) t₁) := by
          split
          · exact .refl _
          · exact .foldl (Quiet.loseInterest p.1) _ _
        generalize (if p.1.isEmpty then t₁ else t₁.downloads.foldl (loseInterest p.1) t₁) = t₂ at *
        have hall := hboth.trans (.of_quiet (hquiet₁.trans hquiet₂) hboth.sound hboth.endgamemode hboth.paused)
        split
        · obtain ⟨t, hstart, hsound, hcalm⟩ := startEndgame_spec hall.sound hall.endgamemode hall.paused
          exact ⟨t, hstart, hsound, hall.calm.trans hcalm⟩
        · exact ⟨t₂, rfl, hall.sound, hall.calm⟩

theorem requestEach_spec {l : List Nat} (hs : SoundBut info extra loose s) (hl : ∀ k ∈ l, k ∈ s.downloads)
    (hchoked : ∀ k ∈ l, (s.peers k).choked = false) :
    ∃ t, requestEach info l s = .ok t ∧ SoundBut info extra loose t ∧ Calm s t := by
  induction l generalizing s with
  | nil => exact ⟨s, rfl, hs, .refl s⟩
  | cons k rest ih =>
    obtain ⟨t, hrun, hsound, hcalm⟩ := requestMore_spec hs (hl k List.mem_cons_self) (hchoked k List.mem_cons_self)
    obtain ⟨u, hrun', hsound', hcalm'⟩ := ih hsound
      (fun m hm => by rw [hcalm.downloads]; exact hl m (List.mem_cons_of_mem k hm))
      fun m hm => (hcalm.choked m).trans (hchoked m (List.mem_cons_of_mem k hm))
    refine ⟨u, ?_, hsound', hcalm.trans hcalm'⟩
    rw [requestEach, hrun]
    exact hrun'

/-- `_request_more` of all peers that do not choke, in some order. -/
theorem requestUnchoked_spec (hs : SoundBut info extra loose s) :
    ∃ t, requestEach info (shuffleOf s (s.downloads.filter fun k => !(s.peers k).choked)) (dropOrder s) = .ok t ∧
      SoundBut info extra loose t ∧ Calm s t := by
  have hquiet := Quiet.dropOrder s
  have hmem : ∀ k ∈ shuffleOf s (s.downloads.filter fun k => !(s.peers k).choked),
      k ∈ s.downloads ∧ (s.peers k).choked = false := by
    intro k hk
    obtain ⟨hmem, hnot⟩ := List.mem_filter.mp ((shuffled_perm _ _).mem_iff.mp hk)
    exact ⟨hmem, by simpa using hnot⟩
  obtain ⟨t, hrun, hsound, hcalm⟩ := requestEach_spec (hquiet.sound hs) (fun k hk => (hmem k hk).1) fun k hk => (hmem k hk).2
  exact ⟨t, hrun, hsound, hquiet.calm.trans hcalm⟩

/-! ### Giving up -/

/-- The end game is over, nothing of it may be left with the peers. -/
theorem resetEndgame_spec (hs : SoundBut info extra loose s) (hend : s.endgamemode = true)
    (hempty : ∀ k ∈ s.downloads, (s.peers k).active = []) :
    ∃ storage, resetEndgame s = .ok { s with storage := storage, endgamemode := false, allRequests := [] } ∧
      SoundBut info extra loose { s with storage := storage, endgamemode := false, allRequests := [] } ∧
      SameData s.storage storage := by
  have hbooks := hs.books
  rw [outstanding_of_endgame hend] at hbooks
  obtain ⟨storage, hreset, hrest, hsame⟩ := (hbooks.perm List.perm_append_comm).resetEndgame
  refine ⟨storage, ?_, ⟨?_, hs.nodup, hs.made, fun _ => rfl, fun hbad => absurd hbad Bool.false_ne_true, hs.peer⟩, hsame⟩
  · unfold resetEndgame
    rw [hreset]
    rfl
  · have hnone : activeOf s.peers s.downloads = [] := List.flatMap_eq_nil_iff.mpr hempty
    have hout : outstanding { s with storage := storage, endgamemode := false, allRequests := [] } = [] :=
      (outstanding_of_not rfl).trans hnone
    rw [hout, List.append_nil]
    exact hrest

theorem offerAgain_spec (lost : List (Fin n)) (hs : SoundBut info extra loose s) :
    ∃ t, offerAgain info s lost = .ok t ∧ SoundBut info extra loose t ∧ Calm s t := by
  unfold offerAgain
  split
  · exact ⟨s, rfl, hs, .refl s⟩
  · obtain ⟨t, hrun, hsound, hcalm⟩ := requestUnchoked_spec hs
    have hquiet := Quiet.foldl (Quiet.interestIn lost) t.downloads t
    dsimp only
    rw [hrun]
    exact ⟨_, rfl, hquiet.sound hsound, hcalm.trans hquiet.calm⟩

theorem setPeer_setPeer (s : Downloader n) (j : Nat) (d d' : DownloadPeer n) :
    setPeer (setPeer s j d) j d' = setPeer s j d' := by
  unfold setPeer
  rw [Function.update_idem]

theorem setPeer_self (s : Downloader n) (j : Nat) : setPeer s j (s.peers j) = s := by
  unfold setPeer
  rw [Function.update_eq_self]

/-- A peer whose requests stay. -/
theorem SoundBut.sameActive (hs : SoundBut info extra loose s) {d : DownloadPeer n} (hactive : d.active = (s.peers j).active)
    (hd : PeerOk d) : SoundBut info extra loose (setPeer s j d) where
  books := by
    have hpeers : ∀ k, ((setPeer s j d).peers k).active = (s.peers k).active := by
      intro k
      by_cases hkj : k = j
      · rw [hkj, peers_setPeer_self, hactive]
      · rw [peers_setPeer_of_ne s hkj]
    have hout : outstanding (setPeer s j d) = outstanding s := by
      unfold outstanding activeOf
      simp only [hpeers]
      rfl
    rw [hout]
    exact hs.books
  nodup := hs.nodup
  made := hs.made
  idle := hs.idle
  within := by
    intro hend k hk r hr
    by_cases hkj : k = j
    · subst hkj
      rw [peers_setPeer_self, hactive] at hr
      exact hs.within hend k hk r hr
    · rw [peers_setPeer_of_ne s hkj] at hr
      exact hs.within hend k hk r hr
  peer := forall_setPeer hs.peer hd

theorem peerOk_idle {d : DownloadPeer n} (h : d.active = []) (hfresh : d.gotAnything = false → d.choked = true) : PeerOk d :=
  ⟨h ▸ List.nodup_nil, fun hne => absurd h hne, fun _ hr => absurd (h ▸ hr) List.not_mem_nil, hfresh⟩

theorem Kept.both {d d' : DownloadPeer n} (j : Nat) {storage : StorageWrapper n Nat} (h : SameData s.storage storage)
    (hchoked : d'.choked = d.choked) (hhaves : d'.haves = d.haves) :
    Kept (setPeer s j d) (setPeer { s with storage := storage } j d') := by
  refine ⟨rfl, rfl, rfl, fun k => ?_, fun k => ?_, h, rfl⟩
  all_goals
    by_cases hkj : k = j
    · rw [hkj, peers_setPeer_self, peers_setPeer_self]
      assumption
    · rw [peers_setPeer_of_ne _ hkj, peers_setPeer_of_ne _ hkj]

theorem Kept.changed {d : DownloadPeer n} (hchoked : d.choked = (s.peers j).choked) (hhaves : d.haves = (s.peers j).haves) :
    Kept s (setPeer s j d) := by
  have h : Kept (Downloader.setPeer s j (s.peers j)) (Downloader.setPeer s j d) := .both j (.refl _) hchoked hhaves
  rwa [setPeer_self] at h

/-- All requests of a peer are given up, which may choke us from now on. -/
theorem letgo_spec (hs : SoundBut info [] loose s) (hj : j ∈ s.downloads) {d : DownloadPeer n}
    (hactive : d.active = (s.peers j).active) (hfresh : d.gotAnything = false → d.choked = true) :
    ∃ t, letgo info (setPeer s j d) j = .ok t ∧ SoundBut info [] loose t ∧ Kept (setPeer s j d) t ∧
      (s.paused = true → t.endgamemode = s.endgamemode ∧ (t.peers j).active = [] ∧
        ∀ k, k ≠ j → (t.peers k).active = (s.peers k).active) := by
  unfold letgo
  rw [peers_setPeer_self]
  dsimp only
  by_cases hnil : (s.peers j).active = []
  · rw [if_pos (List.isEmpty_iff.mpr (hactive.trans hnil))]
    refine ⟨_, rfl, hs.sameActive hactive (peerOk_idle (hactive.trans hnil) hfresh), ⟨rfl, rfl, rfl, fun _ => rfl, fun _ => rfl, .refl _, rfl⟩, fun _ => ⟨rfl, ?_, fun k hk => ?_⟩⟩
    · rw [peers_setPeer_self, hactive, hnil]
    · rw [peers_setPeer_of_ne s hk]
  · rw [if_neg fun hbad => hnil (hactive.symm.trans (List.isEmpty_iff.mp hbad)), setPeer_setPeer]
    have hd : PeerOk { d with active := [] } := peerOk_idle rfl hfresh
    have hother : ∀ storage : StorageWrapper n Nat, ∀ k, k ≠ j →
        ((setPeer { s with storage := storage } j { d with active := [] }).peers k).active = (s.peers k).active :=
      fun _ k hk => congrArg DownloadPeer.active (peers_setPeer_of_ne _ hk _)
    have hself : ∀ storage : StorageWrapper n Nat,
        ((setPeer { s with storage := storage } j { d with active := [] }).peers j).active = [] :=
      fun _ => congrArg DownloadPeer.active (peers_setPeer_self _ _ _)
    have hkept : ∀ {storage : StorageWrapper n Nat}, SameData s.storage storage →
        Kept (setPeer s j d) (setPeer { s with storage := storage } j { d with active := [] }) :=
      fun h => .both j h rfl rfl
    cases hend : s.endgamemode with
    | true =>
      have hend' : (setPeer s j d).endgamemode = true := hend
      rw [hend', if_pos rfl]
      exact ⟨_, rfl, hs.changeInEndgame hend (fun _ _ => rfl) (fun _ r hr => absurd hr List.not_mem_nil) hd, hkept (.refl _),
        fun _ => ⟨hend, hself s.storage, hother s.storage⟩⟩
    | false =>
      have hend' : (setPeer s j d).endgamemode = false := hend
      have hbooks : Books info s.storage info.cut ((s.peers j).active ++ activeOf s.peers (s.downloads.erase j)) :=
        hs.booksOf hend hj
      obtain ⟨storage, hreset, hrest, hsame⟩ := hbooks.resetEndgame
      have hsound : SoundBut info [] loose (setPeer { s with storage := storage } j { d with active := [] }) :=
        hs.changeActive hend hj hrest hd.ready hd.asked hd.fresh
      obtain ⟨t, hoffer, ht, hcalm⟩ := offerAgain_spec (d.active.map Prod.fst) hsound
      rw [hactive] at hoffer ⊢
      rw [hend', if_neg Bool.false_ne_true]
      change ∃ t, (StorageWrapper.resetEndgame (s.peers j).active s.storage >>= _) = _ ∧ _
      rw [hreset]
      refine ⟨t, hoffer, ht, (hkept hsame).trans hcalm.toKept, fun hp => ?_⟩
      obtain ⟨hmode, hstill⟩ := hcalm.still hp
      exact ⟨hmode.trans hend, (hstill j).trans (hself storage), fun k hk => (hstill k).trans (hother storage k hk)⟩

/-! ### The messages of a peer -/

theorem SoundBut.unasked (hs : SoundBut info extra loose s) (hj : j ∈ s.downloads) (hchoked : (s.peers j).choked = true) :
    (s.peers j).active = [] := by
  by_contra hne
  exact Bool.false_ne_true (((hs.peer j hj).ready hne).2.symm.trans hchoked)

theorem gotChoke_spec (hs : Sound info s) (hj : j ∈ s.downloads) :
    ∃ t, gotChoke info s j = .ok t ∧ Sound info t ∧ Unmoved s t := by
  unfold gotChoke
  split
  · exact ⟨s, rfl, hs, .refl s⟩
  · obtain ⟨t, hrun, hsound, hkept, hpaused⟩ := letgo_spec hs.toSoundBut hj (d := { s.peers j with choked := true }) rfl fun _ => rfl
    refine ⟨t, hrun, ⟨hsound, fun hp => ?_⟩, ⟨hkept.data, hkept.events⟩⟩
    have hp' : s.paused = true := hkept.paused.symm.trans hp
    obtain ⟨hend, hall⟩ := hs.paused hp'
    obtain ⟨hmode, hself, hother⟩ := hpaused hp'
    refine ⟨hmode.trans hend, fun k hk => ?_⟩
    rw [hkept.downloads] at hk
    by_cases hkj : k = j
    · rw [hkj, hself]
    · rw [hother k hkj]
      exact hall k hk

theorem Sound.of_calm (hs : Sound info s) (hsound : SoundBut info [] noLoose t) (h : Calm s t) : Sound info t :=
  ⟨hsound, h.keepsPaused hs.paused⟩

theorem Sound.of_quiet (hs : Sound info s) (h : Quiet s t) : Sound info t := hs.of_calm (h.sound hs.toSoundBut) h.calm

theorem calm_sameActive {d : DownloadPeer n} (hactive : d.active = (s.peers j).active) :
    s.paused = true → (setPeer s j d).endgamemode = s.endgamemode ∧
      ∀ k, ((setPeer s j d).peers k).active = (s.peers k).active := by
  refine fun _ => ⟨rfl, fun k => ?_⟩
  by_cases hkj : k = j
  · rw [hkj, peers_setPeer_self, hactive]
  · rw [peers_setPeer_of_ne s hkj]

/-- A peer says something about itself, its requests stay. -/
theorem Sound.sameActive (hs : Sound info s) {d : DownloadPeer n} (hactive : d.active = (s.peers j).active) (hd : PeerOk d) :
    Sound info (setPeer s j d) := by
  refine ⟨hs.toSoundBut.sameActive hactive hd, fun hp => ?_⟩
  obtain ⟨hend, hall⟩ := hs.paused hp
  exact ⟨hend, fun k hk => ((calm_sameActive hactive hp).2 k).trans (hall k hk)⟩

theorem gotUnchoke_spec (hs : Sound info s) (hj : j ∈ s.downloads) (hany : (s.peers j).gotAnything = true) :
    ∃ t, gotUnchoke info s j = .ok t ∧ Sound info t ∧ Unmoved s t := by
  unfold gotUnchoke
  split
  · rename_i hchoked
    have ht : Sound info (setPeer s j { s.peers j with choked := false }) :=
      hs.sameActive rfl (peerOk_idle (hs.toSoundBut.unasked hj hchoked) fun hbad => absurd (hany.symm.trans hbad) Bool.false_ne_true.symm)
    dsimp only
    split
    · obtain ⟨t, hrun, hsound, hcalm⟩ := requestMore_spec ht.toSoundBut hj (congrArg DownloadPeer.choked (peers_setPeer_self s j _))
      exact ⟨t, hrun, ht.of_calm hsound hcalm, ⟨hcalm.data, hcalm.events⟩⟩
    · exact ⟨_, rfl, ht, ⟨.refl _, rfl⟩⟩
  · exact ⟨s, rfl, hs, .refl s⟩

theorem snubbed_spec (hs : Sound info s) (hj : j ∈ s.downloads) :
    ∃ t, snubbed info s j = .ok t ∧ Sound info t ∧ Unmoved s t := by
  unfold snubbed
  split
  · exact gotChoke_spec hs hj
  · exact ⟨s, rfl, hs, .refl s⟩

theorem gotHave_spec (hs : Sound info s) (hj : j ∈ s.downloads) (i : Fin n) :
    ∃ t, gotHave info s j i = .ok t ∧ Sound info t ∧ Unmoved s t := by
  unfold gotHave
  split
  · exact ⟨s, rfl, hs, .refl s⟩
  · have hpeer := hs.peer j hj
    have ht : Sound info (setPeer s j { s.peers j with haves := Function.update (s.peers j).haves i true }) := by
      refine hs.sameActive rfl ⟨hpeer.distinct, hpeer.ready, fun r hr => ?_, hpeer.fresh⟩
      by_cases hri : r.1 = i
      · rw [hri]
        exact Function.update_self ..
      · exact (Function.update_of_ne hri _ _).trans (hpeer.asked r hr)
    dsimp only
    split
    · exact ⟨_, rfl, ht, ⟨.refl _, rfl⟩⟩
    · split
      · rename_i hend
        obtain ⟨hsound, hfixed⟩ := fixDownloadEndgame_spec ht.toSoundBut hend hj
        exact ⟨_, rfl, ht.of_calm hsound hfixed.toCalm, ⟨hfixed.data, hfixed.events⟩⟩
      · split
        · split
          · exact ⟨_, rfl, ht.of_quiet (.sendInterested _ j), ⟨.refl _, rfl⟩⟩
          · rename_i hchoked
            obtain ⟨t, hrun, hsound, hcalm⟩ := requestMore_spec ht.toSoundBut hj (eq_false_of_ne_true hchoked)
            exact ⟨t, hrun, ht.of_calm hsound hcalm, ⟨hcalm.data, hcalm.events⟩⟩
        · exact ⟨_, rfl, ht, ⟨.refl _, rfl⟩⟩

theorem gotHaveBitfield_spec (hs : Sound info s) (hj : j ∈ s.downloads) (hchoked : (s.peers j).choked = true)
    (haves : Fin n → Bool) : Sound info (gotHaveBitfield s j haves) ∧ Unmoved s (gotHaveBitfield s j haves) := by
  have ht : Sound info (setPeer s j { s.peers j with haves := haves }) :=
    hs.sameActive rfl (peerOk_idle (hs.toSoundBut.unasked hj hchoked) fun _ => hchoked)
  unfold gotHaveBitfield
  dsimp only
  split
  · exact ⟨hs, .refl s⟩
  · split
    · split
      · exact ⟨ht.of_quiet (.sendInterested _ j), ⟨.refl _, rfl⟩⟩
      · exact ⟨ht, ⟨.refl _, rfl⟩⟩
    · have hquiet := Quiet.checkInterests (setPeer s j { s.peers j with haves := haves }) j
      exact ⟨ht.of_quiet hquiet, ⟨hquiet.unmoved.data, hquiet.events⟩⟩

/-! ### A part that comes -/

/-- Requests that a peer need not send count only while it has them. -/
theorem SoundBut.reloose (hs : SoundBut info extra loose s) {loose' : Nat → List (Request n)}
    (h : s.endgamemode = true → ∀ k ∈ s.downloads, ∀ r ∈ (s.peers k).active, r ∈ loose k → r ∈ s.allRequests ∨ r ∈ loose' k) :
    SoundBut info extra loose' s where
  books := hs.books
  nodup := hs.nodup
  made := hs.made
  idle := hs.idle
  within := fun hend k hk r hr => (hs.within hend k hk r hr).elim Or.inl (h hend k hk r hr)
  peer := hs.peer

/-- All of a piece is asked for again. -/
theorem askAll_spec (fuel : Nat) (hs : SoundBut info extra loose s) (hend : s.endgamemode = true)
    (hblocked : s.storage.blocked i = false) (hfuel : (StorageWrapper.freeOf info s.storage i).length < fuel) :
    ∃ storage more, askAll info i fuel s = .ok { s with storage := storage, allRequests := s.allRequests ++ more } ∧
      SoundBut info extra loose { s with storage := storage, allRequests := s.allRequests ++ more } ∧
      storage.doIHaveRequests i = false ∧ SameData s.storage storage := by
  induction fuel generalizing s with
  | zero => exact absurd hfuel (Nat.not_lt_zero _)
  | succ fuel ih =>
    rw [askAll]
    cases hreq : s.storage.doIHaveRequests i with
    | false =>
      refine ⟨s.storage, [], ?_, ?_, hreq, .refl _⟩
      · rw [if_neg Bool.false_ne_true, List.append_nil]
      · rw [List.append_nil]
        exact hs
    | true =>
      obtain ⟨r, storage, hnew, hbooks, hsame, -, -, hcount⟩ := hs.books.newRequest hblocked hreq
      rw [StorageWrapper.recut_cut] at hbooks
      have ht : SoundBut info extra loose { s with storage := storage, allRequests := s.allRequests ++ [(i, r)] } := by
        refine ⟨?_, hs.nodup, hs.made, fun hbad => absurd (hend.symm.trans hbad) Bool.false_ne_true.symm,
          fun _ k hk q hq => (hs.within hend k hk q hq).imp_left (List.mem_append_left _), hs.peer⟩
        have hout : outstanding { s with storage := storage, allRequests := s.allRequests ++ [(i, r)] } =
            s.allRequests ++ [(i, r)] := outstanding_of_endgame hend
        rw [outstanding_of_endgame hend] at hbooks
        rw [hout, ← List.append_assoc]
        exact hbooks.perm (List.perm_append_singleton _ _).symm
      obtain ⟨storage', more, hrun, hsound, hnone, hsame'⟩ := ih ht hend ((congrFun hsame.blocked i).trans hblocked)
        (by
          rw [hcount, List.length_cons] at hfuel
          exact Nat.lt_of_succ_lt_succ hfuel)
      rw [List.append_assoc] at hsound hrun
      refine ⟨storage', [(i, r)] ++ more, ?_, hsound, hnone, hsame.trans hsame'⟩
      rw [if_pos rfl, hnew]
      exact hrun

theorem pieceFlunked_spec (hs : SoundBut info [] loose s) (hp : s.paused = false) (hj : j ∈ s.downloads)
    (hreq : s.storage.inactiveRequests i = .untouched) (hblocked : s.storage.blocked i = false)
    (hloose : ∀ k, ∀ q ∈ loose k, q.1 = i ∧ q.2 ∈ info.cut i) :
    ∃ t, pieceFlunked info s i = .ok t ∧ SoundBut info [] noLoose t ∧ t.paused = false ∧ Unmoved s t := by
  unfold pieceFlunked
  rw [hp, if_neg Bool.false_ne_true]
  cases hend : s.endgamemode with
  | true =>
    have hsome : ¬s.downloads.isEmpty = true := fun hbad => List.ne_nil_of_mem hj (List.isEmpty_iff.mp hbad)
    have hfuel : (StorageWrapper.freeOf info s.storage i).length < info.pieceLen i + 1 := Nat.lt_succ_of_le (hs.books.freeOf_le i)
    obtain ⟨storage, more, hrun, hsound, hnone, hsame⟩ := askAll_spec _ hs hend hblocked hfuel
    rw [if_pos rfl, if_neg hsome, hrun, PyExcept.ok_bind]
    cases (hs.books.piece i).ranges with
    | chunks _ hbad => rw [hreq] at hbad; cases hbad
    | done hbad => rw [hreq] at hbad; cases hbad
    | untouched _ hmissing _ hclean =>
      have hall : SoundBut info [] noLoose { s with storage := storage, allRequests := s.allRequests ++ more } := by
        refine hsound.reloose fun _ k _ q _ hq => ?_
        -- What a peer may still send is asked for once more.
        obtain ⟨hqi, hcut⟩ := hloose k q hq
        have hout := hsound.books.all_out ((congrFun hsame.has i).trans hmissing) hnone
          ((congrFun hsame.dirty i).trans hclean) hcut
        rw [List.nil_append, outstanding_of_endgame (by exact hend), ← hqi] at hout
        exact Or.inl hout
      obtain ⟨hfixed, hframe⟩ := fixEach_spec hall hend fun _ hk => hk
      exact ⟨_, rfl, hfixed, hframe.paused.trans hp, ⟨hsame.trans hframe.data, hframe.events⟩⟩
  | false =>
    have hnone : SoundBut info [] noLoose s := hs.reloose fun hbad => absurd (hend.symm.trans hbad) Bool.false_ne_true
    obtain ⟨t, hrun, hsound, hcalm⟩ := requestUnchoked_spec hnone
    have hquiet := Quiet.foldl (Quiet.interestAgain i) t.downloads t
    rw [if_neg Bool.false_ne_true]
    dsimp only
    rw [hrun]
    exact ⟨_, rfl, hquiet.sound hsound, hquiet.paused.trans (hcalm.paused.trans hp), hcalm.unmoved.trans hquiet.unmoved⟩

/-- The peers of the list, but for one, may still send the part. -/
def looseIn (j : Nat) (r : Request n) (l : List Nat) : Nat → List (Request n) :=
  fun k => if k ∈ l ∧ k ≠ j then [r] else []

theorem mem_looseIn {l : List Nat} {q : Request n} : q ∈ looseIn j r l k ↔ q = r ∧ k ∈ l ∧ k ≠ j := by
  unfold looseIn
  split
  · rename_i h
    rw [List.mem_singleton]
    exact (and_iff_left h).symm
  · rename_i h
    exact iff_of_false List.not_mem_nil fun hbad => h hbad.2

theorem cancelOthers_spec {l : List Nat} (hs : SoundBut info extra (looseIn j r l) s) (hend : s.endgamemode = true)
    (hp : s.paused = false) (hl : ∀ k ∈ l, k ∈ s.downloads) :
    ∃ t, cancelOthers j r l s = .ok t ∧ SoundBut info extra noLoose t ∧ Calm s t := by
  induction l generalizing s with
  | nil =>
    refine ⟨s, rfl, hs.reloose fun _ k _ q _ hq => ?_, .refl s⟩
    exact absurd (mem_looseIn.mp hq).2.1 List.not_mem_nil
  | cons k rest ih =>
    have hk := hl k List.mem_cons_self
    have hrest : ∀ m ∈ rest, m ∈ s.downloads := fun m hm => hl m (List.mem_cons_of_mem k hm)
    -- A peer that is not asked for the part need not be told.
    have hpast : (k = j ∨ r ∉ (s.peers k).active) → SoundBut info extra (looseIn j r rest) s := fun h =>
      hs.reloose fun _ m _ q hq hloose => by
        obtain ⟨rfl, hm, hmj⟩ := mem_looseIn.mp hloose
        refine Or.inr (mem_looseIn.mpr ⟨rfl, (List.mem_cons.mp hm).resolve_left ?_, hmj⟩)
        rintro rfl
        exact h.elim hmj fun hnot => hnot hq
    have hgo : ∀ {t : Downloader n}, SoundBut info extra (looseIn j r rest) t → t.endgamemode = true → Calm s t →
        ∃ u, cancelOthers j r rest (fixDownloadEndgame t k) = .ok u ∧ SoundBut info extra noLoose u ∧ Calm s u := by
      intro t ht htend hcalm
      obtain ⟨hsound, hfixed⟩ := fixDownloadEndgame_spec ht htend (j := k) (by rw [hcalm.downloads]; exact hk)
      have hboth := hcalm.trans hfixed.toCalm
      obtain ⟨u, hrun, hu, hcalm'⟩ := ih hsound (hfixed.endgamemode.trans htend) (hboth.paused.trans hp)
        fun m hm => by rw [hboth.downloads]; exact hrest m hm
      exact ⟨u, hrun, hu, hboth.trans hcalm'⟩
    have hpeer := hs.peer k hk
    rw [cancelOthers]
    split
    · rename_i hkj
      exact ih (hpast (Or.inl hkj)) hend hp hrest
    · split
      · split
        · rename_i hchoked
          have hactive := hs.unasked hk hchoked
          rw [if_neg fun hbad => hbad hactive]
          exact hgo (hpast (Or.inr (hactive ▸ List.not_mem_nil))) hend (.refl s)
        · split
          · rename_i hint hchoked hmem
            have hself : ∀ q ∈ (s.peers k).active.erase r, q ∈ s.allRequests ∨ q ∈ looseIn j r rest k := by
              intro q hq
              obtain ⟨hne, hmem⟩ := hpeer.distinct.mem_erase_iff.mp hq
              exact Or.inl ((hs.within hend k hk q hmem).resolve_right fun hbad => hne (mem_looseIn.mp hbad).1)
            have hother : ∀ m, m ≠ k → looseIn j r rest m = looseIn j r (k :: rest) m := by
              intro m hm
              exact if_congr (and_congr_left fun _ => ⟨List.mem_cons_of_mem k, fun h => (List.mem_cons.mp h).resolve_left hm⟩)
                rfl rfl
            have hd : PeerOk { s.peers k with active := (s.peers k).active.erase r } :=
              ⟨hpeer.distinct.erase r, fun _ => hpeer.ready (List.ne_nil_of_mem hmem),
                fun q hq => hpeer.asked q (List.mem_of_mem_erase hq), hpeer.fresh⟩
            exact hgo (hs.changeInEndgame hend hother (fun _ => hself) hd) hend (.setPeer hp rfl rfl)
          · rename_i hnot
            exact ih (hpast (Or.inr hnot)) hend hp hrest
      · rename_i hint
        have hactive : (s.peers k).active = [] := by
          by_contra hne
          exact hint (hpeer.ready hne).1
        rw [if_neg fun hbad => hbad hactive]
        exact ih (hpast (Or.inr (hactive ▸ List.not_mem_nil))) hend hp hrest

theorem checkComplete_spec (hs : SoundBut info [] noLoose s) :
    ∃ t, checkComplete s = .ok t ∧ SoundBut info [] noLoose t ∧ t.paused = s.paused ∧ Unmoved s t := by
  unfold checkComplete
  have hover : SoundBut info [] noLoose (if s.endgamemode && s.allRequests.isEmpty then { s with endgamemode := false } else s) := by
    split
    · rename_i h
      obtain ⟨hend, hempty⟩ := Bool.and_eq_true_iff.mp h
      have hnil := List.isEmpty_iff.mp hempty
      have hidle : ∀ k ∈ s.downloads, (s.peers k).active = [] := fun k hk =>
        List.eq_nil_iff_forall_not_mem.mpr fun r hr =>
          (hs.within hend k hk r hr).elim (fun hbad => List.not_mem_nil (hnil ▸ hbad)) fun hbad => List.not_mem_nil hbad
      refine ⟨?_, hs.nodup, hs.made, fun _ => hnil, fun hbad => absurd hbad Bool.false_ne_true, hs.peer⟩
      have hbooks := hs.books
      have hout : outstanding { s with endgamemode := false } = [] :=
        (outstanding_of_not rfl).trans (List.flatMap_eq_nil_iff.mpr hidle)
      rw [outstanding_of_endgame hend, hnil] at hbooks
      rw [hout]
      exact hbooks
    · exact hs
  have hpaused : (if s.endgamemode && s.allRequests.isEmpty then { s with endgamemode := false } else s).paused = s.paused := by
    split <;> rfl
  have hunmoved : Unmoved s (if s.endgamemode && s.allRequests.isEmpty then { s with endgamemode := false } else s) := by
    split
    · exact ⟨.refl _, rfl⟩
    · exact .refl s
  have hmode : (if s.endgamemode && s.allRequests.isEmpty then { s with endgamemode := false } else s).endgamemode = true →
      s.allRequests ≠ [] := by
    split
    · exact fun hbad => absurd hbad Bool.false_ne_true
    · rename_i h
      exact fun hend hnil => h (by rw [hend, hnil]; rfl)
  have hall : (if s.endgamemode && s.allRequests.isEmpty then { s with endgamemode := false } else s).allRequests = s.allRequests := by
    split <;> rfl
  generalize (if s.endgamemode && s.allRequests.isEmpty then { s with endgamemode := false } else s) = t at *
  dsimp only
  cases hcomplete : t.storage.amIComplete with
  | false => exact ⟨t, rfl, hover, hpaused, hunmoved⟩
  | true =>
    -- Nothing is out once everything that is wanted is there.
    have hhas := hover.books.amIComplete_iff.mp hcomplete
    have hout : outstanding t = [] := by
      rw [List.eq_nil_iff_forall_not_mem]
      intro r hr
      have hmem : (r.1, r.2) ∈ [] ++ outstanding t := hr
      obtain ⟨hblocked, hmissing, -⟩ := (hover.books.perm (List.perm_cons_erase hmem)).asked
      exact Bool.false_ne_true (hmissing.symm.trans (hhas r.1 hblocked))
    have hend : t.endgamemode = false := by
      by_contra hbad
      have hbad := eq_true_of_ne_false hbad
      rw [outstanding_of_endgame hbad, hall] at hout
      exact hmode hbad hout
    rw [if_pos rfl, if_neg fun hbad => hbad (hover.idle hend), hend, if_neg Bool.false_ne_true]
    exact ⟨t, rfl, hover, hpaused, hunmoved⟩

/-- The request whose data came is out no more, others may still send it in the end game. -/
theorem strike_spec (hs : Sound info s) (hj : j ∈ s.downloads) (hr : r ∈ (s.peers j).active) :
    SoundBut info [r] (looseIn j r s.downloads) (strike s j r) ∧ Kept s (strike s j r) ∧
      (strike s j r).storage = s.storage := by
  have hpeer := hs.peer j hj
  have hd : PeerOk { s.peers j with active := (s.peers j).active.erase r } :=
    ⟨hpeer.distinct.erase _, fun _ => hpeer.ready (List.ne_nil_of_mem hr), fun q hq => hpeer.asked q (List.mem_of_mem_erase hq),
      hpeer.fresh⟩
  have hkept : Kept s (setPeer s j { s.peers j with active := (s.peers j).active.erase r }) := .changed rfl rfl
  unfold strike
  dsimp only
  cases hend : s.endgamemode with
  | false =>
    rw [if_neg Bool.false_ne_true]
    refine ⟨?_, hkept, rfl⟩
    have hbooks := hs.toSoundBut.booksOf hend hj
    have hperm : ((s.peers j).active ++ activeOf s.peers (s.downloads.erase j)).Perm
        ([r] ++ ((s.peers j).active.erase r ++ activeOf s.peers (s.downloads.erase j))) :=
      (List.perm_cons_erase hr).append_right _
    have ht : SoundBut info [r] noLoose (setPeer s j { s.peers j with active := (s.peers j).active.erase r }) :=
      hs.toSoundBut.changeActive hend hj (hbooks.perm hperm) hd.ready hd.asked hd.fresh
    exact ht.reloose fun _ _ _ _ _ hbad => absurd hbad List.not_mem_nil
  | true =>
    rw [if_pos rfl]
    have hall : r ∈ s.allRequests := (hs.within hend j hj r hr).resolve_right List.not_mem_nil
    have hstruck : SoundBut info [r] (fun _ => [r]) { s with allRequests := s.allRequests.erase r } := by
      refine ⟨?_, hs.nodup, hs.made, fun hbad => absurd (hend.symm.trans hbad) Bool.false_ne_true.symm, fun _ k hk q hq => ?_, hs.peer⟩
      · have hout : outstanding { s with allRequests := s.allRequests.erase r } = s.allRequests.erase r := outstanding_of_endgame hend
        have hbooks := hs.books
        rw [outstanding_of_endgame hend] at hbooks
        rw [hout]
        exact hbooks.perm (List.perm_cons_erase hall)
      · by_cases hqr : q = r
        · exact Or.inr (List.mem_singleton.mpr hqr)
        · exact Or.inl ((List.mem_erase_of_ne hqr).mpr ((hs.within hend k hk q hq).resolve_right List.not_mem_nil))
    have hself : ∀ q ∈ (s.peers j).active.erase r, q ∈ s.allRequests.erase r := by
      intro q hq
      obtain ⟨hne, hmem⟩ := hpeer.distinct.mem_erase_iff.mp hq
      exact (List.mem_erase_of_ne hne).mpr ((hs.within hend j hj q hmem).resolve_right List.not_mem_nil)
    have ht : SoundBut info [r] (fun k => if k = j then [] else [r])
        { setPeer s j { s.peers j with active := (s.peers j).active.erase r } with allRequests := s.allRequests.erase r } :=
      hstruck.changeInEndgame hend (fun k hk => if_neg hk) (fun _ q hq => Or.inl (hself q hq)) hd
    refine ⟨ht.reloose fun _ k hk q _ hq => Or.inr ?_, ⟨rfl, rfl, rfl, hkept.choked, hkept.haves, .refl _, rfl⟩, rfl⟩
    split at hq
    · exact absurd hq List.not_mem_nil
    · rename_i hkj
      exact mem_looseIn.mpr ⟨List.mem_singleton.mp hq, hk, hkj⟩

/-- Data that a peer was asked for came and was taken. -/
def Came (info : TorrentInfo n) (s t : Downloader n) (j : Nat) (i : Fin n) (b : Nat) (piece : Bytes) : Prop :=
  ∃ out a, Books info s.storage info.cut ((i, b, piece.length) :: out) ∧
    s.storage.pieceCameIn info i b piece (some j) = .ok a ∧ SameData a.storage t.storage ∧ t.events = s.events ++ a.events

theorem gotPiece_spec (hs : Sound info s) (hj : j ∈ s.downloads) (i : Fin n) (b : Nat) (piece : Bytes) :
    ∃ t, gotPiece info s j i b piece = .ok t ∧ Sound info t ∧ (Unmoved s t ∨ Came info s t j i b piece) := by
  unfold gotPiece
  dsimp only
  by_cases hmem : (i, b, piece.length) ∈ (s.peers j).active
  · have hp : s.paused = false := by
      by_contra hbad
      have hnone := (hs.paused (eq_true_of_ne_false hbad)).2 j hj
      exact List.not_mem_nil (hnone ▸ hmem)
    have hchoked := ((hs.peer j hj).ready (List.ne_nil_of_mem hmem)).2
    have hvalid : ¬(s.endgamemode = true ∧ (i, b, piece.length) ∉ s.allRequests) := fun hbad =>
      (hs.within hbad.1 j hj _ hmem).elim hbad.2 fun hloose => List.not_mem_nil hloose
    obtain ⟨hstruck, hkept, hstorage⟩ := strike_spec hs hj hmem
    rw [if_neg (not_not.mpr hmem), if_neg hvalid]
    generalize strike s j (i, b, piece.length) = t at *
    obtain ⟨a, hcame, hbooks, honly, hflunk⟩ := hstruck.books.pieceCameIn (some j)
    have hdone : ∀ {u : Downloader n}, Unmoved { t with storage := a.storage, events := t.events ++ a.events } u →
        Came info s u j i b piece := by
      intro u hu
      refine ⟨outstanding t, a, hstorage ▸ hstruck.books, hstorage ▸ hcame, hu.data, hu.events.trans ?_⟩
      exact congrArg (· ++ a.events) hkept.events
    rw [hcame, PyExcept.ok_bind]
    unfold pieceHandled
    dsimp only
    have ht : SoundBut info [] (looseIn j (i, b, piece.length) s.downloads)
        { t with storage := a.storage, events := t.events ++ a.events } :=
      ⟨hbooks, hstruck.nodup, hstruck.made, hstruck.idle, hstruck.within, hstruck.peer⟩
    have htp : t.paused = false := hkept.paused.trans hp
    have htj : j ∈ t.downloads := hkept.downloads ▸ hj
    cases hk : a.kept with
    | false =>
      obtain ⟨hreq, -⟩ := hflunk hk
      obtain ⟨hblocked, -, l, -, -, hshared, -⟩ := hstruck.books.asked
      rw [if_neg Bool.false_ne_true]
      obtain ⟨u, hrun, hu, hup, hsame⟩ := pieceFlunked_spec (i := i) ht htp htj hreq ((congrFun honly.blocked i).trans hblocked) fun k q hq => by
        obtain ⟨rfl, -⟩ := mem_looseIn.mp hq
        exact ⟨rfl, hshared.mem_whole List.mem_cons_self⟩
      exact ⟨u, hrun, ⟨hu, fun hbad => absurd (hup.symm.trans hbad) Bool.false_ne_true⟩, Or.inr (hdone hsame)⟩
    | true =>
      rw [if_pos rfl]
      have hcancel : ∃ u, cancelInEndgame { t with storage := a.storage, events := t.events ++ a.events } j (i, b, piece.length) = .ok u ∧
          SoundBut info [] noLoose u ∧ Calm { t with storage := a.storage, events := t.events ++ a.events } u := by
        unfold cancelInEndgame
        split
        · rename_i hend
          rw [← hkept.downloads] at ht
          exact cancelOthers_spec ht hend htp fun _ hm => hm
        · rename_i hend
          exact ⟨_, rfl, ht.reloose fun hbad => absurd hbad hend, .refl _⟩
      obtain ⟨u, hcancelled, hu, hcalm⟩ := hcancel
      rw [hcancelled, PyExcept.ok_bind]
      obtain ⟨v, hmore, hv, hcalm'⟩ := requestMore_spec hu (j := j) (by rw [hcalm.downloads]; exact htj)
        ((hcalm.choked j).trans ((hkept.choked j).trans hchoked))
      rw [hmore, PyExcept.ok_bind]
      obtain ⟨w, hcheck, hw, hwp, hsame⟩ := checkComplete_spec hv
      refine ⟨w, hcheck, ⟨hw, fun hbad => ?_⟩, Or.inr (hdone ((hcalm.unmoved.trans hcalm'.unmoved).trans hsame))⟩
      have hwp' : w.paused = false := hwp.trans (hcalm'.paused.trans (hcalm.paused.trans htp))
      exact absurd (hwp'.symm.trans hbad) Bool.false_ne_true
  · rw [if_pos hmem]
    exact ⟨s, rfl, hs, Or.inl (.refl s)⟩

/-! ### The end of a connection -/

/-- A peer that is not connected any more. -/
theorem SoundBut.setAbsent (hs : SoundBut info extra loose s) (hj : j ∉ s.downloads) (d : DownloadPeer n) :
    SoundBut info extra loose (setPeer s j d) := by
  have hpeer : ∀ k ∈ s.downloads, (setPeer s j d).peers k = s.peers k := fun k hk =>
    peers_setPeer_of_ne s (by rintro rfl; exact hj hk) d
  refine ⟨?_, hs.nodup, hs.made, hs.idle, fun hend k hk => ?_, fun k hk => ?_⟩
  · have hout : outstanding (setPeer s j d) = outstanding s := by
      have hactive : activeOf (setPeer s j d).peers s.downloads = activeOf s.peers s.downloads :=
        activeOf_setPeer_of_not_mem s d hj
      unfold outstanding
      rw [← hactive]
      rfl
    rw [hout]
    exact hs.books
  · rw [hpeer k hk]
    exact hs.within hend k hk
  · rw [hpeer k hk]
    exact hs.peer k hk

/-- The requests of a peer that is not connected any more are given up. -/
theorem letgo_absent (hs : SoundBut info (if s.endgamemode then [] else (s.peers j).active) noLoose s) (hj : j ∉ s.downloads) :
    ∃ t, letgo info s j = .ok t ∧ SoundBut info [] noLoose t ∧ t.paused = s.paused ∧
      ((s.peers j).active = [] → t = s) ∧ Unmoved s t := by
  unfold letgo
  dsimp only
  by_cases hnil : (s.peers j).active = []
  · rw [if_pos (List.isEmpty_iff.mpr hnil)]
    refine ⟨s, rfl, ?_, rfl, fun _ => rfl, .refl s⟩
    rw [hnil, ite_self] at hs
    exact hs
  · rw [if_neg fun hbad => hnil (List.isEmpty_iff.mp hbad)]
    cases hend : s.endgamemode with
    | true =>
      rw [hend, if_pos rfl] at hs
      rw [if_pos rfl]
      exact ⟨_, rfl, hs.setAbsent hj _, rfl, fun hbad => absurd hbad hnil, ⟨.refl _, rfl⟩⟩
    | false =>
      rw [hend, if_neg Bool.false_ne_true] at hs
      rw [if_neg Bool.false_ne_true]
      obtain ⟨storage, hreset, hbooks, hsame⟩ := hs.books.resetEndgame
      have hfreed : SoundBut info [] noLoose { s with storage := storage } :=
        ⟨hbooks, hs.nodup, hs.made, hs.idle, hs.within, hs.peer⟩
      obtain ⟨t, hoffer, ht, hcalm⟩ := offerAgain_spec ((s.peers j).active.map Prod.fst)
        (hfreed.setAbsent hj { s.peers j with active := [] })
      rw [hreset]
      exact ⟨t, hoffer, ht, hcalm.paused, fun hbad => absurd hbad hnil, ⟨hsame.trans hcalm.data, hcalm.events⟩⟩

/-- The last peer leaves while it is asked for something in the end game. -/
def LastOne (s : Downloader n) (j : Nat) : Prop :=
  s.endgamemode = true ∧ s.downloads = [j] ∧ (s.peers j).active ≠ []

instance (s : Downloader n) (j : Nat) : Decidable (LastOne s j) := inferInstanceAs (Decidable (_ ∧ _ ∧ _))

theorem lostPeer_spec (hs : Sound info s) (hj : j ∈ s.downloads) (hlast : ¬LastOne s j) :
    ∃ t, lostPeer s j = .ok t ∧ SoundBut info (if t.endgamemode then [] else (t.peers j).active) noLoose t ∧
      t.peers = s.peers ∧ t.downloads = s.downloads.erase j ∧ t.paused = s.paused ∧
      (s.endgamemode = false → t.endgamemode = false) ∧ Unmoved s t := by
  have hsub : ∀ k ∈ s.downloads.erase j, k ∈ s.downloads := fun k hk => List.mem_of_mem_erase hk
  have hpeer : ∀ k ∈ s.downloads.erase j, PeerOk (s.peers k) := fun k hk => hs.peer k (hsub k hk)
  have hmade : ∀ k ∈ s.downloads.erase j, k < s.made := fun k hk => hs.made k (hsub k hk)
  have hbooks := hs.books
  have hdown : (removePeer s j).downloads = s.downloads.erase j := rfl
  unfold lostPeer
  cases hend : s.endgamemode with
  | true =>
    have hend' : (removePeer s j).endgamemode = true := hend
    have hout : outstanding (removePeer s j) = s.allRequests := outstanding_of_endgame hend'
    rw [outstanding_of_endgame hend, ← hout] at hbooks
    have ht : SoundBut info [] noLoose (removePeer s j) :=
      ⟨hbooks, hs.nodup.erase j, hmade, hs.idle, fun hend k hk => hs.within hend k (hsub k hk), hpeer⟩
    rw [Bool.true_and]
    by_cases hempty : s.downloads.erase j = []
    · -- Nothing is asked of the last peer.
      have hone : s.downloads = [j] := by
        have hperm := List.perm_cons_erase hj
        rw [hempty] at hperm
        exact List.perm_singleton.mp hperm
      have hactive : (s.peers j).active = [] := by
        by_contra hne
        exact hlast ⟨hend, hone, hne⟩
      obtain ⟨storage, hreset, hsound, hsame⟩ := resetEndgame_spec ht hend' fun k hk =>
        absurd (hempty ▸ (hdown ▸ hk)) List.not_mem_nil
      rw [hdown, if_pos (List.isEmpty_iff.mpr hempty)]
      refine ⟨_, hreset, ?_, rfl, rfl, rfl, fun _ => rfl, ⟨hsame, rfl⟩⟩
      have hactive' : ((removePeer s j).peers j).active = [] := hactive
      dsimp only
      rw [if_neg Bool.false_ne_true, hactive']
      exact hsound
    · rw [hdown, if_neg fun hbad => hempty (List.isEmpty_iff.mp hbad)]
      refine ⟨_, rfl, ?_, rfl, rfl, rfl, fun hbad => absurd hbad.symm Bool.false_ne_true, ⟨.refl _, rfl⟩⟩
      rw [hend', if_pos rfl]
      exact ht
  | false =>
    have hend' : (removePeer s j).endgamemode = false := hend
    have hout : outstanding (removePeer s j) = activeOf s.peers (s.downloads.erase j) := outstanding_of_not hend'
    rw [Bool.false_and, if_neg Bool.false_ne_true]
    refine ⟨_, rfl, ?_, rfl, rfl, rfl, fun _ => hend, ⟨.refl _, rfl⟩⟩
    rw [hend', if_neg Bool.false_ne_true]
    refine ⟨?_, hs.nodup.erase j, hmade, hs.idle, fun hbad => absurd (hend.symm.trans hbad) Bool.false_ne_true, hpeer⟩
    rw [outstanding_of_not hend] at hbooks
    rw [hout]
    exact hbooks.perm (activeOf_perm s.peers hj)

theorem disconnected_spec (hs : Sound info s) (hj : j ∈ s.downloads) (hlast : ¬LastOne s j) :
    ∃ t, disconnected info s j = .ok t ∧ Sound info t ∧ Unmoved s t := by
  obtain ⟨t, hlost, ht, hpeers, hdown, hp, hmode, hsame₁⟩ := lostPeer_spec hs hj hlast
  have habsent : j ∉ t.downloads := by
    rw [hdown]
    exact hs.nodup.not_mem_erase
  obtain ⟨u, hletgo, hu, hup, hsame, hsame₂⟩ := letgo_absent ht habsent
  unfold disconnected
  rw [hlost]
  refine ⟨u, hletgo, ⟨hu, fun hbad => ?_⟩, hsame₁.trans hsame₂⟩
  obtain ⟨hend, hall⟩ := hs.paused (hp.symm.trans (hup.symm.trans hbad))
  have hut : u = t := hsame (by rw [hpeers]; exact hall j hj)
  rw [hut, hpeers, hdown]
  exact ⟨hmode hend, fun k hk => hall k (List.mem_of_mem_erase hk)⟩

/-- The requests of the last peer are given back twice. -/
theorem disconnected_raises (hs : Sound info s) (hlast : LastOne s j) : disconnected info s j = .error StorageWrapper.assertion := by
  obtain ⟨hend, hone, hactive⟩ := hlast
  have hj : j ∈ s.downloads := hone ▸ List.mem_singleton_self j
  obtain ⟨r, rest, hcons⟩ := List.exists_cons_of_ne_nil hactive
  have hall : r ∈ s.allRequests :=
    (hs.within hend j hj r (hcons ▸ List.mem_cons_self)).resolve_right List.not_mem_nil
  have hbooks := hs.books
  rw [outstanding_of_endgame hend, List.nil_append, ← List.append_nil s.allRequests] at hbooks
  obtain ⟨storage, hreset, -⟩ := hbooks.resetEndgame
  have hfree := (StorageWrapper.free_of_resetEndgame hreset).1 r hall
  have hdown : (removePeer s j).downloads = [] := by
    change s.downloads.erase j = []
    rw [hone, List.erase_cons_head]
  have hlost : lostPeer s j = .ok { removePeer s j with storage := storage, endgamemode := false, allRequests := [] } := by
    unfold lostPeer
    rw [hend, hdown]
    change resetEndgame (removePeer s j) = _
    unfold resetEndgame
    change (StorageWrapper.resetEndgame s.allRequests s.storage >>= _) = _
    rw [hreset]
    rfl
  unfold disconnected
  rw [hlost, PyExcept.ok_bind]
  unfold letgo
  change (if (s.peers j).active.isEmpty then _ else _) = _
  rw [if_neg fun hbad => hactive (List.isEmpty_iff.mp hbad)]
  change (StorageWrapper.resetEndgame (s.peers j).active storage >>= _) = _
  rw [hcons, StorageWrapper.resetEndgame, StorageWrapper.requestLost_of_free hfree]
  rfl

/-! ### Pausing -/

theorem pauseEach_spec {l : List Nat} (hs : SoundBut info [] noLoose s) (hp : s.paused = true)
    (hl : ∀ k ∈ l, k ∈ s.downloads) :
    ∃ t, pauseEach info l s = .ok t ∧ SoundBut info [] noLoose t ∧ t.downloads = s.downloads ∧ t.paused = true ∧
      (∀ k, (s.peers k).active = [] → (t.peers k).active = []) ∧ (∀ k ∈ l, (t.peers k).active = []) ∧ Unmoved s t := by
  induction l generalizing s with
  | nil => exact ⟨s, rfl, hs, rfl, hp, fun _ h => h, fun k hk => absurd hk List.not_mem_nil, .refl s⟩
  | cons j rest ih =>
    have hj := hl j List.mem_cons_self
    obtain ⟨t, hletgo, ht, hkept, hpaused⟩ := letgo_spec hs hj (d := s.peers j) rfl (hs.peer j hj).fresh
    rw [setPeer_self] at hletgo hkept
    obtain ⟨-, hself, hother⟩ := hpaused hp
    have hquiet : Quiet t (sendNotInterested t j) := .sendNotInterested hself
    have hdown : (sendNotInterested t j).downloads = s.downloads := hquiet.downloads.trans hkept.downloads
    have hkeep : ∀ k, (s.peers k).active = [] → ((sendNotInterested t j).peers k).active = [] := by
      intro k hk
      rw [hquiet.active k]
      by_cases hkj : k = j
      · rw [hkj, hself]
      · rw [hother k hkj, hk]
    obtain ⟨u, hrun, hu, hudown, hup, hukeep, hurest, hsame⟩ := ih (hquiet.sound ht)
      (hquiet.paused.trans (hkept.paused.trans hp)) fun m hm => by
        rw [hdown]
        exact hl m (List.mem_cons_of_mem j hm)
    refine ⟨u, ?_, hu, hudown.trans hdown, hup, fun k hk => hukeep k (hkeep k hk), fun k hk => ?_,
      (hkept.unmoved.trans hquiet.unmoved).trans hsame⟩
    · rw [pauseEach, hletgo]
      exact hrun
    · rcases List.mem_cons.mp hk with rfl | hk
      · exact hukeep k ((hquiet.active k).trans hself)
      · exact hurest k hk

theorem resumeEach_spec {l : List Nat} (hs : SoundBut info [] noLoose s) (hl : ∀ k ∈ l, k ∈ s.downloads) :
    ∃ t, resumeEach info l s = .ok t ∧ SoundBut info [] noLoose t ∧ Calm s t := by
  induction l generalizing s with
  | nil => exact ⟨s, rfl, hs, .refl s⟩
  | cons j rest ih =>
    have hquiet := Quiet.checkInterests s j
    have hj : j ∈ (checkInterests s j).downloads := hquiet.downloads ▸ hl j List.mem_cons_self
    have hgo : ∀ {t : Downloader n}, SoundBut info [] noLoose t → Calm s t →
        ∃ u, resumeEach info rest t = .ok u ∧ SoundBut info [] noLoose u ∧ Calm s u := by
      intro t ht hcalm
      obtain ⟨u, hrun, hu, hcalm'⟩ := ih ht fun m hm => by
        rw [hcalm.downloads]
        exact hl m (List.mem_cons_of_mem j hm)
      exact ⟨u, hrun, hu, hcalm.trans hcalm'⟩
    rw [resumeEach]
    dsimp only
    split
    · rename_i h
      have hchoked : ((checkInterests s j).peers j).choked = false := by
        rw [Bool.and_eq_true, Bool.not_eq_true'] at h
        exact h.2
      obtain ⟨t, hmore, ht, hcalm⟩ := requestMore_spec (hquiet.sound hs) hj hchoked
      rw [hmore]
      exact hgo ht (hquiet.calm.trans hcalm)
    · exact hgo (hquiet.sound hs) hquiet.calm

theorem SoundBut.reorder (hs : SoundBut info extra loose s) {l : List Nat} (hl : l.Perm s.downloads) :
    SoundBut info extra loose { s with downloads := l } := by
  refine ⟨?_, hl.nodup_iff.mpr hs.nodup, fun k hk => hs.made k (hl.mem_iff.mp hk), hs.idle,
    fun hend k hk => hs.within hend k (hl.mem_iff.mp hk), fun k hk => hs.peer k (hl.mem_iff.mp hk)⟩
  refine hs.books.perm (List.Perm.append_left extra ?_)
  unfold outstanding
  dsimp only
  split
  · exact .refl _
  · exact hl.symm.flatMap_right _

theorem pause_spec (hs : Sound info s) (flag : Bool) :
    ∃ t, pause info s flag = .ok t ∧ Sound info t ∧ Unmoved s t := by
  have hflag : SoundBut info [] noLoose { s with paused := flag } :=
    ⟨hs.books, hs.nodup, hs.made, hs.idle, hs.within, hs.peer⟩
  unfold pause
  cases flag with
  | true =>
    obtain ⟨t, hrun, ht, hdown, hp, -, hall, hsame⟩ := pauseEach_spec hflag rfl fun _ hk => hk
    have hidle : ∀ k ∈ t.downloads, (t.peers k).active = [] := fun k hk => hall k (hdown ▸ hk)
    dsimp only
    rw [if_pos rfl, hrun, PyExcept.ok_bind]
    split
    · rename_i hend
      obtain ⟨storage, hreset, hsound, hsame'⟩ := resetEndgame_spec ht hend hidle
      exact ⟨_, hreset, ⟨hsound, fun _ => ⟨rfl, hidle⟩⟩, ⟨hsame.data.trans hsame', hsame.events⟩⟩
    · rename_i hend
      exact ⟨t, rfl, ⟨ht, fun _ => ⟨eq_false_of_ne_true hend, hidle⟩⟩, ⟨hsame.data, hsame.events⟩⟩
  | false =>
    dsimp only
    rw [if_neg Bool.false_ne_true]
    have hperm := hflag.reorder (shuffled_perm s.downloads (s.choices.orders.headD []))
    have hquiet := Quiet.dropOrder { s with paused := false, downloads := shuffled s.downloads (s.choices.orders.headD []) }
    obtain ⟨t, hrun, ht, hcalm⟩ := resumeEach_spec (hquiet.sound hperm) fun _ hk => hk
    refine ⟨t, hrun, ⟨ht, fun hbad => ?_⟩, ⟨hcalm.data, hcalm.events⟩⟩
    exact absurd (hcalm.paused.symm.trans hbad) Bool.false_ne_true

/-! ### The run -/

theorem makeDownload_sound (hs : Sound info s) : Sound info (makeDownload s) := by
  have hnew : s.made ∉ s.downloads := fun hbad => Nat.lt_irrefl _ (hs.made _ hbad)
  have hpeers : ∀ k ∈ s.downloads, (makeDownload s).peers k = s.peers k := fun k hk =>
    peers_setPeer_of_ne _ (by rintro rfl; exact hnew hk) _
  have hself : (makeDownload s).peers s.made = .new n := peers_setPeer_self _ _ _
  have hdown : (makeDownload s).downloads = s.downloads ++ [s.made] := rfl
  have hmem : ∀ k ∈ (makeDownload s).downloads, k ∈ s.downloads ∨ k = s.made := fun k hk =>
    (List.mem_append.mp (hdown ▸ hk)).imp_right List.mem_singleton.mp
  refine ⟨⟨?_, ?_, fun k hk => ?_, hs.idle, fun hend k hk r hr => ?_, fun k hk => ?_⟩, fun hp => ⟨(hs.paused hp).1, fun k hk => ?_⟩⟩
  · have hactive : activeOf (makeDownload s).peers (s.downloads ++ [s.made]) = activeOf s.peers s.downloads := by
      unfold activeOf
      rw [List.flatMap_append, List.flatMap_singleton, hself, List.flatMap_congr fun k hk => by rw [hpeers k hk]]
      exact List.append_nil _
    have hout : outstanding (makeDownload s) = outstanding s := by
      unfold outstanding
      rw [hdown, hactive]
      rfl
    rw [hout]
    exact hs.books
  · rw [hdown]
    exact hs.nodup.append (List.nodup_singleton _) fun k hk hk' => hnew (List.mem_singleton.mp hk' ▸ hk)
  · rcases hmem k hk with hk | rfl
    · exact Nat.lt_succ_of_lt (hs.made k hk)
    · exact Nat.lt_succ_self _
  · rcases hmem k hk with hk | rfl
    · rw [hpeers k hk] at hr
      exact hs.within hend k hk r hr
    · rw [hself] at hr
      exact absurd hr List.not_mem_nil
  · rcases hmem k hk with hk | rfl
    · rw [hpeers k hk]
      exact hs.peer k hk
    · rw [hself]
      exact peerOk_idle rfl fun _ => rfl
  · rcases hmem k hk with hk | rfl
    · rw [hpeers k hk]
      exact (hs.paused hp).2 k hk
    · rw [hself]
      rfl

theorem gotMessage_sound (hs : Sound info s) (j : Nat) :
    Sound info (gotMessage s j) ∧ ((gotMessage s j).peers j).gotAnything = true ∧ (gotMessage s j).downloads = s.downloads :=
  ⟨hs.of_quiet (.setPeer rfl rfl rfl (fun _ h => h) fun hbad => absurd hbad.symm Bool.false_ne_true),
    congrArg DownloadPeer.gotAnything (peers_setPeer_self s j _), rfl⟩

theorem upload_sound (hs : Sound info s) (i : Fin n) (b : Nat) (length : Option Nat) :
    Sound info { s with
      storage := (s.storage.getPiece info i b length).2.1
      events := s.events ++ (s.storage.getPiece info i b length).2.2 } :=
  ⟨⟨(hs.books.getPiece i b length).1, hs.nodup, hs.made, hs.idle, hs.within, hs.peer⟩, hs.paused⟩

/-- The events that a handler does not survive: the last peer leaves the end game unfinished. -/
def Breaks (s : Downloader n) : Event n → Prop
  | .disconnected j => LastOne s j
  | _ => False

/-- What an event does to the data: a part comes, a piece is read, or nothing. -/
def Moved (info : TorrentInfo n) (s t : Downloader n) : Event n → Prop
  | .piece j i b data => Unmoved s t ∨ Came info s t j i b data
  | .upload i b length =>
    t.storage = (s.storage.getPiece info i b length).2.1 ∧ t.events = s.events ++ (s.storage.getPiece info i b length).2.2
  | _ => Unmoved s t

theorem handle_spec {e : Event n} (hs : Sound info s) (he : Present s e) (hok : ¬Breaks s e) :
    ∃ t, handle info s e = .ok t ∧ Sound info t ∧ Moved info s t e := by
  cases e with
  | connected => exact ⟨_, rfl, makeDownload_sound hs, ⟨.refl _, rfl⟩⟩
  | choke j =>
    obtain ⟨t, hrun, ht, hsame⟩ := gotChoke_spec (gotMessage_sound hs j).1 he
    exact ⟨t, hrun, ht, ⟨hsame.data, hsame.events⟩⟩
  | unchoke j =>
    obtain ⟨hm, hany, -⟩ := gotMessage_sound hs j
    obtain ⟨t, hrun, ht, hsame⟩ := gotUnchoke_spec hm he hany
    exact ⟨t, hrun, ht, ⟨hsame.data, hsame.events⟩⟩
  | haveMessage j i =>
    obtain ⟨t, hrun, ht, hsame⟩ := gotHave_spec (gotMessage_sound hs j).1 he i
    exact ⟨t, hrun, ht, ⟨hsame.data, hsame.events⟩⟩
  | bitfield j haves =>
    refine ⟨_, rfl, ?_⟩
    split
    · exact ⟨hs, .refl s⟩
    · rename_i hfresh
      have hchoked : ((gotMessage s j).peers j).choked = true :=
        (congrArg DownloadPeer.choked (peers_setPeer_self s j _)).trans ((hs.peer j he).fresh (eq_false_of_ne_true hfresh))
      obtain ⟨ht, hsame⟩ := gotHaveBitfield_spec (gotMessage_sound hs j).1 he hchoked haves
      exact ⟨ht, ⟨hsame.data, hsame.events⟩⟩
  | piece j i b data =>
    obtain ⟨t, hrun, ht, hmoved⟩ := gotPiece_spec (gotMessage_sound hs j).1 he i b data
    exact ⟨t, hrun, ht, hmoved.imp (fun hsame => ⟨hsame.data, hsame.events⟩) id⟩
  | snubbed j => exact snubbed_spec hs he
  | disconnected j => exact disconnected_spec hs he hok
  | pause flag => exact pause_spec hs flag
  | upload i b length => exact ⟨_, rfl, upload_sound hs i b length, rfl, rfl⟩

/-- An event of a connection that is there raises if and only if it is the last peer leaving. -/
theorem handle_raises_iff {e : Event n} (hs : Sound info s) (he : Present s e) :
    (∃ error, handle info s e = .error error) ↔ Breaks s e := by
  constructor
  · rintro ⟨error, herror⟩
    by_contra hok
    obtain ⟨t, hrun, -⟩ := handle_spec hs he hok
    exact PyExcept.error_ne_ok (herror.symm.trans hrun)
  · intro hbreak
    cases e with
    | disconnected j => exact ⟨_, disconnected_raises hs hbreak⟩
    | _ => exact hbreak.elim

theorem Sound.choices (hs : Sound info s) (c : Choices n) : Sound info { s with choices := c } := hs.of_quiet (.choices s c)

theorem present_choices {e : Event n} (c : Choices n) (he : Present s e) : Present { s with choices := c } e := by
  cases e <;> exact he

theorem breaks_choices {e : Event n} (c : Choices n) : Breaks { s with choices := c } e ↔ Breaks s e := by
  cases e <;> exact Iff.rfl

theorem moved_choices {e : Event n} (c : Choices n) (h : Moved info { s with choices := c } t e) : Moved info s t e := by
  cases e with
  | piece j i b data => exact h.imp (fun hsame => ⟨hsame.data, hsame.events⟩) id
  | upload i b length => exact h
  | _ => exact ⟨h.data, h.events⟩

theorem step_spec {e : Choices n × Event n} (hs : Sound info s) (he : Present s e.2) (h : step info s e = some t) :
    Sound info t ∧ Moved info s t e.2 := by
  have hs' := hs.choices e.1
  have he' := present_choices e.1 he
  unfold step at h
  have hok : ¬Breaks { s with choices := e.1 } e.2 := by
    intro hbreak
    obtain ⟨error, herror⟩ := (handle_raises_iff hs' he').mpr hbreak
    rw [herror] at h
    cases h
  obtain ⟨u, hrun, hu, hmoved⟩ := handle_spec hs' he' hok
  rw [hrun] at h
  obtain rfl : u = t := Option.some.inj h
  exact ⟨hu, moved_choices e.1 hmoved⟩

theorem step_none_iff {e : Choices n × Event n} (hs : Sound info s) (he : Present s e.2) :
    step info s e = none ↔ Breaks s e.2 := by
  rw [← breaks_choices e.1, ← handle_raises_iff (hs.choices e.1) (present_choices e.1 he)]
  unfold step
  cases handle info { s with choices := e.1 } e.2 with
  | error error => exact iff_of_true rfl ⟨error, rfl⟩
  | ok t => exact iff_of_false (fun hbad => by cases hbad) fun ⟨_, hbad⟩ => by cases hbad

end Downloader

end BitBlinder
