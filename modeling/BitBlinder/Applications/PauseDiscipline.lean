import BitBlinder.Runs
import Mathlib.Data.List.Basic

/-!
# Pausing

A `SocksApplication` is paused when the credits run out and when Tor goes down, with
one flag for both and `pausedBecauseTorStopped` beside it. `BitTorrentClient` pauses
its torrents with it. `outOfCredits`, `torDown` and, of a torrent, `chosen` are a
record of what happened, and no function reads them.
-/

namespace BitBlinder.Pausing

set_option autoImplicit false

inductive GlobalEvent where
  | noCredits
  | someCredits
  | torDone
  | torReady
  deriving DecidableEq

/-- `own` is what a subclass adds. -/
structure SocksApplication (σ : Type) where
  paused : Bool
  pausedBecauseTorStopped : Bool
  running : Bool
  own : σ
  outOfCredits : Bool
  torDown : Bool

/-- The methods that a subclass overrides, and what else happens to it, paused or not. -/
structure Subclass (σ β : Type) where
  onPause : σ → σ
  onUnpause : σ → σ
  act : Bool → β → σ → σ

inductive Action (β : Type) where
  | event (e : GlobalEvent)
  | own (b : β)

namespace SocksApplication
variable {σ β : Type}

def new (own : σ) : SocksApplication σ where
  paused := false
  pausedBecauseTorStopped := false
  running := true
  own := own
  outOfCredits := false
  torDown := false

def pause (c : Subclass σ β) (s : SocksApplication σ) : SocksApplication σ :=
  if s.paused then s else { s with paused := true, own := c.onPause s.own }

def unpause (c : Subclass σ β) (s : SocksApplication σ) : SocksApplication σ :=
  if s.paused then { s with paused := false, own := c.onUnpause s.own } else s

def onNoCredits (c : Subclass σ β) (s : SocksApplication σ) : SocksApplication σ := s.pause c

def onSomeCredits (c : Subclass σ β) (s : SocksApplication σ) : SocksApplication σ := s.unpause c

/-- The circuits, which end here too, are not part of the state. -/
def onTorDone (c : Subclass σ β) (s : SocksApplication σ) : SocksApplication σ :=
  if s.running ∧ ¬s.paused then { s.pause c with pausedBecauseTorStopped := true } else s

def onTorReady (c : Subclass σ β) (s : SocksApplication σ) : SocksApplication σ :=
  if s.running ∧ s.pausedBecauseTorStopped ∧ s.paused then
    { s with pausedBecauseTorStopped := false }.unpause c
  else s

def handle (c : Subclass σ β) (s : SocksApplication σ) : GlobalEvent → SocksApplication σ
  | .noCredits => { s.onNoCredits c with outOfCredits := true }
  | .someCredits => { s.onSomeCredits c with outOfCredits := false }
  | .torDone => { s.onTorDone c with torDown := true }
  | .torReady => { s.onTorReady c with torDown := false }

def step (c : Subclass σ β) (s : SocksApplication σ) : Action β → Option (SocksApplication σ)
  | .event e => some (s.handle c e)
  | .own b => some { s with own := c.act s.paused b s.own }

end SocksApplication

/-- What the table of paused torrents is asked for: an infohash, or the built-in function whose
name the parameter of another method has. -/
inductive Key (H : Type) where
  | infohash (hash : H)
  | builtin
  deriving DecidableEq

/-- `chosen` is whether the user lets it run. -/
structure Torrent (H : Type) where
  hash : H
  unpauseflag : Bool
  storagewrapper : Bool
  chosen : Bool

structure BitTorrentClient (H : Type) where
  ready : Bool
  downloads : List (Torrent H)
  previouslyPaused : List (Key H)
  forcedStatus : String

/-- `add` starts a torrent: whether its files could be opened, and whether it was saved as paused. -/
inductive ClientAction (H : Type) where
  | userPause (hash : H)
  | userUnpause (hash : H)
  | add (hash : H) (storage savedPause : Bool)
  | remove (hash : H)
  | ready (flag : Bool)

variable {H : Type}

namespace Torrent

def pause (t : Torrent H) : Torrent H := if t.storagewrapper then { t with unpauseflag := false } else t

def unpause (t : Torrent H) : Torrent H := { t with unpauseflag := true }

def userPause (t : Torrent H) : Torrent H :=
  if t.unpauseflag then { t.pause with chosen := t.pause.unpauseflag } else t

def userUnpause (t : Torrent H) : Torrent H :=
  if t.unpauseflag then t else { t.unpause with chosen := true }

/-- `d.start`, with the pause flag that was saved. -/
def started (hash : H) (storage savedPause : Bool) : Torrent H where
  hash := hash
  unpauseflag := !savedPause
  storagewrapper := storage
  chosen := !savedPause

end Torrent

namespace BitTorrentClient
variable [DecidableEq H]

def new (ready : Bool) (torrents : List (Torrent H)) : BitTorrentClient H where
  ready := ready
  downloads := torrents.map fun t => { t with unpauseflag := t.chosen }
  previouslyPaused := []
  forcedStatus := ""

def onPause (c : BitTorrentClient H) : BitTorrentClient H :=
  if c.ready then
    { c with
      previouslyPaused := (c.downloads.filter fun t => !t.unpauseflag).map fun t => .infohash t.hash
      downloads := c.downloads.map fun t => if t.unpauseflag then t.pause else t
      forcedStatus := "Waiting For More Credits..." }
  else c

/-- `hash` is not a variable of this method. -/
def onUnpause (c : BitTorrentClient H) : BitTorrentClient H :=
  if c.ready then
    { c with
      downloads := c.downloads.map fun t =>
        if ¬t.unpauseflag ∧ Key.builtin ∉ c.previouslyPaused then t.unpause else t
      previouslyPaused := []
      forcedStatus := "" }
  else c

def change (hash : H) (f : Torrent H → Torrent H) (c : BitTorrentClient H) : BitTorrentClient H :=
  { c with downloads := c.downloads.map fun t => if t.hash = hash then f t else t }

/-- A torrent that is added while everything is paused is paused, if it can be. -/
def act (paused : Bool) (a : ClientAction H) (c : BitTorrentClient H) : BitTorrentClient H :=
  match a with
  | .userPause hash => c.change hash .userPause
  | .userUnpause hash => c.change hash .userUnpause
  | .add hash storage savedPause =>
    if c.downloads.any fun t => t.hash = hash then c
    else
      let t := Torrent.started hash storage savedPause
      { c with downloads := c.downloads ++ [if paused then t.pause else t] }
  | .remove hash => { c with downloads := c.downloads.filter fun t => t.hash ≠ hash }
  | .ready flag => { c with ready := flag }

def client : Subclass (BitTorrentClient H) (ClientAction H) where
  onPause := onPause
  onUnpause := onUnpause
  act := act

end BitTorrentClient

open SocksApplication

/-! ## The two causes -/

section Causes
variable {σ β : Type} {c : Subclass σ β} {s t : SocksApplication σ}

/-- Paused exactly when there is a cause. -/
def Disciplined (s : SocksApplication σ) : Prop := s.paused = true ↔ s.outOfCredits = true ∨ s.torDown = true

/-- Credits come while Tor is up, and Tor does not come back for an application that Tor paused and
that has no credits. -/
def Timely (s : SocksApplication σ) : Action β → Prop
  | .event .someCredits => s.torDown = false
  | .event .torReady => ¬(s.pausedBecauseTorStopped = true ∧ s.outOfCredits = true)
  | _ => True

instance (s : SocksApplication σ) : (a : Action β) → Decidable (Timely s a)
  | .event .someCredits => inferInstanceAs (Decidable (s.torDown = false))
  | .event .torReady => inferInstanceAs (Decidable ¬(s.pausedBecauseTorStopped = true ∧ s.outOfCredits = true))
  | .event .noCredits | .event .torDone | .own _ => isTrue trivial

/-- While the events are timely, `pausedBecauseTorStopped` says that Tor is what paused the
application: Tor is down, and this is set unless the credits had run out before. -/
structure Marked (s : SocksApplication σ) : Prop where
  running : s.running = true
  disciplined : Disciplined s
  down : s.pausedBecauseTorStopped = true → s.torDown = true
  marked : s.torDown = true → s.outOfCredits = false → s.pausedBecauseTorStopped = true

theorem marked_new (own : σ) : Marked (SocksApplication.new own) where
  running := rfl
  disciplined := by simp [Disciplined, SocksApplication.new]
  down := nofun
  marked := nofun

theorem pause_fields : (s.pause c).paused = true ∧ (s.pause c).pausedBecauseTorStopped = s.pausedBecauseTorStopped ∧
    (s.pause c).running = s.running ∧ (s.pause c).outOfCredits = s.outOfCredits ∧ (s.pause c).torDown = s.torDown := by
  unfold pause
  split
  · case isTrue hpaused => exact ⟨hpaused, rfl, rfl, rfl, rfl⟩
  · exact ⟨rfl, rfl, rfl, rfl, rfl⟩

theorem unpause_fields : (s.unpause c).paused = false ∧
    (s.unpause c).pausedBecauseTorStopped = s.pausedBecauseTorStopped ∧ (s.unpause c).running = s.running ∧
    (s.unpause c).outOfCredits = s.outOfCredits ∧ (s.unpause c).torDown = s.torDown := by
  unfold unpause
  split
  · exact ⟨rfl, rfl, rfl, rfl, rfl⟩
  · case isFalse hpaused => exact ⟨Bool.eq_false_iff.mpr hpaused, rfl, rfl, rfl, rfl⟩

theorem pause_of_running (hp : s.paused = false) : s.pause c = { s with paused := true, own := c.onPause s.own } :=
  if_neg (by simp [hp])

theorem pause_of_paused (hp : s.paused = true) : s.pause c = s := if_pos hp

theorem unpause_of_paused (hp : s.paused = true) :
    s.unpause c = { s with paused := false, own := c.onUnpause s.own } := if_pos hp

theorem unpause_of_running (hp : s.paused = false) : s.unpause c = s := if_neg (by simp [hp])

theorem Marked.noCredits (h : Marked s) : Marked (s.handle c .noCredits) := by
  obtain ⟨hpaused, hmarker, hrunning, _, hdown⟩ := pause_fields (c := c) (s := s)
  refine ⟨hrunning.trans h.running, iff_of_true hpaused (.inl rfl), fun hm => ?_, nofun⟩
  exact hdown.trans (h.down (hmarker.symm.trans hm))

theorem Marked.someCredits (h : Marked s) (hup : s.torDown = false) : Marked (s.handle c .someCredits) := by
  obtain ⟨hpaused, hmarker, hrunning, _, hdown⟩ := unpause_fields (c := c) (s := s)
  have hup' : (s.unpause c).torDown = false := hdown.trans hup
  refine ⟨hrunning.trans h.running, iff_of_false ?_ ?_, fun hm => ?_, fun hd => ?_⟩
  · exact fun hp => absurd (hpaused.symm.trans hp) nofun
  · rintro (hout | hd)
    · cases hout
    · exact absurd (hup'.symm.trans hd) nofun
  · exact absurd (hup.symm.trans (h.down (hmarker.symm.trans hm))) nofun
  · exact absurd (hup'.symm.trans hd) nofun

theorem Marked.torDone (h : Marked s) : Marked (s.handle c .torDone) := by
  obtain ⟨hpaused, _, hrunning, _, _⟩ := pause_fields (c := c) (s := s)
  by_cases hp : s.paused = true
  · have hhandle : s.handle c .torDone = { s with torDown := true } := by
      simp [handle, onTorDone, hp]
    rw [hhandle]
    refine ⟨h.running, iff_of_true hp (.inr rfl), fun _ => rfl, fun _ hout => ?_⟩
    rcases h.disciplined.mp hp with hcredits | hd
    · exact absurd (hout.symm.trans hcredits) nofun
    · exact h.marked hd hout
  · have hhandle : s.handle c .torDone = { s.pause c with pausedBecauseTorStopped := true, torDown := true } := by
      simp [handle, onTorDone, hp, h.running]
    rw [hhandle]
    exact ⟨hrunning.trans h.running, iff_of_true hpaused (.inr rfl), fun _ => rfl, fun _ _ => rfl⟩

theorem Marked.torReady (h : Marked s) (hcredits : ¬(s.pausedBecauseTorStopped = true ∧ s.outOfCredits = true)) :
    Marked (s.handle c .torReady) := by
  by_cases hm : s.pausedBecauseTorStopped = true
  · have hout : s.outOfCredits = false := Bool.eq_false_iff.mpr fun hout => hcredits ⟨hm, hout⟩
    have hp : s.paused = true := h.disciplined.mpr (.inr (h.down hm))
    have hhandle : s.handle c .torReady =
        { { s with pausedBecauseTorStopped := false }.unpause c with torDown := false } := by
      simp [handle, onTorReady, hp, hm, h.running]
    obtain ⟨hpaused, hmarker, hrunning, hout', _⟩ :=
      unpause_fields (c := c) (s := { s with pausedBecauseTorStopped := false })
    rw [hhandle]
    refine ⟨hrunning.trans h.running, iff_of_false ?_ ?_, fun hm' => ?_, nofun⟩
    · exact fun hp' => absurd (hpaused.symm.trans hp') nofun
    · rintro (hcause | hcause)
      · exact absurd (hout.symm.trans (hout'.symm.trans hcause)) nofun
      · cases hcause
    · exact absurd (hmarker.symm.trans hm') nofun
  · have hhandle : s.handle c .torReady = { s with torDown := false } := by
      simp [handle, onTorReady, hm]
    rw [hhandle]
    refine ⟨h.running, ?_, fun hm' => absurd hm' hm, nofun⟩
    constructor
    · intro hp
      rcases h.disciplined.mp hp with hout | hd
      · exact .inl hout
      · by_contra hnone
        exact hm (h.marked hd (Bool.eq_false_iff.mpr fun hout => hnone (.inl hout)))
    · rintro (hout | hd)
      · exact h.disciplined.mpr (.inl hout)
      · cases hd

theorem step_marked {a : Action β} (hs : Marked s) (hstep : step c s a = some t) (hp : Timely s a) : Marked t := by
  cases a with
  | event e =>
    cases hstep
    cases e with
    | noCredits => exact hs.noCredits
    | someCredits => exact hs.someCredits hp
    | torDone => exact hs.torDone
    | torReady => exact hs.torReady hp
  | own b =>
    cases hstep
    exact ⟨hs.running, hs.disciplined, hs.down, hs.marked⟩

theorem timely_of_disciplined {a : Action β} (hs : Marked s) (hstep : step c s a = some t) (ht : Disciplined t) :
    Timely s a := by
  cases a with
  | event e =>
    cases hstep
    cases e with
    | noCredits => trivial
    | someCredits =>
      obtain ⟨hpaused, _, _, _, hdown⟩ := unpause_fields (c := c) (s := s)
      refine Bool.eq_false_iff.mpr fun hd => ?_
      exact absurd (hpaused.symm.trans (ht.mpr (.inr (hdown.trans hd)))) nofun
    | torDone => trivial
    | torReady =>
      rintro ⟨hm, hout⟩
      have hp : s.paused = true := hs.disciplined.mpr (.inl hout)
      have hhandle : s.handle c .torReady =
          { { s with pausedBecauseTorStopped := false }.unpause c with torDown := false } := by
        simp [handle, onTorReady, hp, hm, hs.running]
      obtain ⟨hpaused, _, _, hout', _⟩ :=
        unpause_fields (c := c) (s := { s with pausedBecauseTorStopped := false })
      rw [hhandle] at ht
      exact absurd (hpaused.symm.trans (ht.mpr (.inl (hout'.trans hout)))) nofun
  | own b => trivial

end Causes

/-! ## The torrents -/

section Torrents
variable [DecidableEq H] {s t : SocksApplication (BitTorrentClient H)}

open BitTorrentClient

/-- The torrents that run are those that the user lets run. -/
def AsChosen (c : BitTorrentClient H) : Prop := ∀ t ∈ c.downloads, t.unpauseflag = t.chosen

/-- When nothing is paused because of credits or Tor, the torrents are as the user wants them. -/
def Restored (s : SocksApplication (BitTorrentClient H)) : Prop := s.paused = false → AsChosen s.own

/-- The event ends the pause. -/
def Unpauses (s : SocksApplication (BitTorrentClient H)) (e : GlobalEvent) : Prop :=
  s.paused = true ∧ (e = .someCredits ∨ e = .torReady ∧ s.running = true ∧ s.pausedBecauseTorStopped = true)

/-- Ending the pause leaves the torrents as the user wants them: it lets all of them run, or none when
the client is not ready. -/
def Spared (c : BitTorrentClient H) : Prop :=
  ∀ t ∈ c.downloads, if c.ready then t.chosen = true else t.unpauseflag = t.chosen

/-- Where the pause ends, no torrent is kept paused by the user. -/
def Considerate (s : SocksApplication (BitTorrentClient H)) : Action (ClientAction H) → Prop
  | .event e => Unpauses s e → Spared s.own
  | .own _ => True

instance (s : SocksApplication (BitTorrentClient H)) (e : GlobalEvent) : Decidable (Unpauses s e) :=
  inferInstanceAs (Decidable (s.paused = true ∧
    (e = .someCredits ∨ e = .torReady ∧ s.running = true ∧ s.pausedBecauseTorStopped = true)))

instance (c : BitTorrentClient H) : Decidable (Spared c) :=
  inferInstanceAs (Decidable (∀ t ∈ c.downloads, if c.ready then t.chosen = true else t.unpauseflag = t.chosen))

instance (s : SocksApplication (BitTorrentClient H)) : (a : Action (ClientAction H)) → Decidable (Considerate s a)
  | .event e => inferInstanceAs (Decidable (Unpauses s e → Spared s.own))
  | .own _ => isTrue trivial

/-- The table holds infohashes, so that asking it for anything else finds nothing. -/
structure Remembered (s : SocksApplication (BitTorrentClient H)) : Prop where
  restored : Restored s
  builtin : Key.builtin ∉ s.own.previouslyPaused

omit [DecidableEq H] in
theorem remembered_new (ready : Bool) (torrents : List (Torrent H)) :
    Remembered (SocksApplication.new (BitTorrentClient.new ready torrents)) where
  restored := by
    intro _ t ht
    obtain ⟨u, _, rfl⟩ := List.mem_map.mp ht
    rfl
  builtin := List.not_mem_nil

omit [DecidableEq H] in
theorem builtin_onPause {c : BitTorrentClient H} (h : Key.builtin ∉ c.previouslyPaused) :
    Key.builtin ∉ c.onPause.previouslyPaused := by
  unfold onPause
  split
  · intro hmem
    obtain ⟨_, _, hkey⟩ := List.mem_map.mp hmem
    cases hkey
  · exact h

theorem builtin_onUnpause {c : BitTorrentClient H} (h : Key.builtin ∉ c.previouslyPaused) :
    Key.builtin ∉ c.onUnpause.previouslyPaused := by
  unfold onUnpause
  split
  · exact List.not_mem_nil
  · exact h

/-- A ready client resumes every torrent. -/
theorem downloads_onUnpause {c : BitTorrentClient H} (h : Key.builtin ∉ c.previouslyPaused) (hready : c.ready = true) :
    c.onUnpause.downloads = c.downloads.map Torrent.unpause := by
  simp only [onUnpause, hready, if_true, h, not_false_eq_true, and_true]
  refine List.map_congr_left fun t _ => ?_
  cases t with
  | mk hash flag storage chosen => cases flag <;> rfl

theorem asChosen_onUnpause {c : BitTorrentClient H} (h : Key.builtin ∉ c.previouslyPaused) :
    AsChosen c.onUnpause ↔ Spared c := by
  cases hready : c.ready with
  | true =>
    simp only [AsChosen, Spared, hready, if_true, downloads_onUnpause h hready, List.forall_mem_map]
    exact forall₂_congr fun t _ => eq_comm
  | false =>
    simp [AsChosen, Spared, onUnpause, hready]

theorem asChosen_change {c : BitTorrentClient H} {hash : H} {f : Torrent H → Torrent H}
    (hf : ∀ t, t.unpauseflag = t.chosen → (f t).unpauseflag = (f t).chosen) (h : AsChosen c) :
    AsChosen (c.change hash f) := by
  intro t ht
  obtain ⟨u, hu, rfl⟩ := List.mem_map.mp ht
  split
  · exact hf u (h u hu)
  · exact h u hu

/-- What the user and the torrents do, while nothing is paused, leaves them as chosen. -/
theorem asChosen_act {c : BitTorrentClient H} (a : ClientAction H) (h : AsChosen c) : AsChosen (c.act false a) := by
  cases a with
  | userPause hash =>
    refine asChosen_change (fun t ht => ?_) h
    unfold Torrent.userPause
    split
    · rfl
    · exact ht
  | userUnpause hash =>
    refine asChosen_change (fun t ht => ?_) h
    unfold Torrent.userUnpause
    split
    · exact ht
    · rfl
  | add hash storage savedPause =>
    simp only [act]
    split
    · exact h
    · intro t ht
      rcases List.mem_append.mp ht with hold | hadded
      · exact h t hold
      · obtain rfl := List.mem_singleton.mp hadded
        rfl
  | remove hash => exact fun t ht => h t (List.mem_filter.mp ht).1
  | ready flag => exact h

theorem builtin_act {c : BitTorrentClient H} (paused : Bool) (a : ClientAction H)
    (h : Key.builtin ∉ c.previouslyPaused) : Key.builtin ∉ (c.act paused a).previouslyPaused := by
  cases a with
  | add hash storage savedPause =>
    simp only [act]
    split
    · exact h
    · exact h
  | userPause hash => exact h
  | userUnpause hash => exact h
  | remove hash => exact h
  | ready flag => exact h

/-- An event ends the pause, or leaves the torrents, or begins one. -/
theorem handle_own (s : SocksApplication (BitTorrentClient H)) (e : GlobalEvent) :
    (Unpauses s e ∧ (s.handle client e).paused = false ∧ (s.handle client e).own = s.own.onUnpause) ∨
    (¬Unpauses s e ∧ (s.handle client e).paused = s.paused ∧ (s.handle client e).own = s.own) ∨
    (¬Unpauses s e ∧ (s.handle client e).paused = true ∧ (s.handle client e).own = s.own.onPause) := by
  have hquiet : e = .noCredits ∨ e = .torDone → ¬Unpauses s e := by
    rintro (rfl | rfl) ⟨-, h | ⟨h, -⟩⟩ <;> cases h
  cases hp : s.paused with
  | false =>
    have hnot : ¬Unpauses s e := fun h => absurd (hp.symm.trans h.1) nofun
    cases e with
    | noCredits =>
      rw [handle, onNoCredits, pause_of_running hp]
      exact .inr (.inr ⟨hnot, rfl, rfl⟩)
    | someCredits =>
      rw [handle, onSomeCredits, unpause_of_running hp]
      exact .inr (.inl ⟨hnot, hp, rfl⟩)
    | torDone =>
      by_cases hr : s.running = true
      · rw [handle, onTorDone, if_pos ⟨hr, by simp [hp]⟩, pause_of_running hp]
        exact .inr (.inr ⟨hnot, rfl, rfl⟩)
      · rw [handle, onTorDone, if_neg fun h => hr h.1]
        exact .inr (.inl ⟨hnot, hp, rfl⟩)
    | torReady =>
      rw [handle, onTorReady, if_neg fun h => Bool.false_ne_true (hp.symm.trans h.2.2)]
      exact .inr (.inl ⟨hnot, hp, rfl⟩)
  | true =>
    cases e with
    | noCredits =>
      rw [handle, onNoCredits, pause_of_paused hp]
      exact .inr (.inl ⟨hquiet (.inl rfl), hp, rfl⟩)
    | someCredits =>
      rw [handle, onSomeCredits, unpause_of_paused hp]
      exact .inl ⟨⟨hp, .inl rfl⟩, rfl, rfl⟩
    | torDone =>
      rw [handle, onTorDone, if_neg fun h => h.2 hp]
      exact .inr (.inl ⟨hquiet (.inr rfl), hp, rfl⟩)
    | torReady =>
      by_cases hm : s.running = true ∧ s.pausedBecauseTorStopped = true
      · have hmarked : ({ s with pausedBecauseTorStopped := false } : SocksApplication _).paused = true := hp
        rw [handle, onTorReady, if_pos ⟨hm.1, hm.2, hp⟩, unpause_of_paused hmarked]
        exact .inl ⟨⟨hp, .inr ⟨rfl, hm⟩⟩, rfl, rfl⟩
      · have hnot : ¬Unpauses s .torReady := by simpa [Unpauses, hp] using hm
        rw [handle, onTorReady, if_neg fun h => hm ⟨h.1, h.2.1⟩]
        exact .inr (.inl ⟨hnot, hp, rfl⟩)

theorem step_remembered {a : Action (ClientAction H)} (hs : Remembered s) (hstep : step client s a = some t)
    (hp : Considerate s a) : Remembered t := by
  cases a with
  | event e =>
    cases hstep
    rcases handle_own s e with ⟨hend, _, hown⟩ | ⟨_, hpaused, hown⟩ | ⟨_, hpaused, hown⟩
    · refine ⟨fun _ => ?_, hown.symm ▸ builtin_onUnpause hs.builtin⟩
      rw [hown]
      exact (asChosen_onUnpause hs.builtin).mpr (hp hend)
    · refine ⟨fun hrunning => ?_, hown.symm ▸ hs.builtin⟩
      rw [hown]
      exact hs.restored (hpaused.symm.trans hrunning)
    · exact ⟨fun hrunning => absurd (hpaused.symm.trans hrunning) nofun, hown.symm ▸ builtin_onPause hs.builtin⟩
  | own b =>
    cases hstep
    refine ⟨fun hrunning => ?_, builtin_act _ b hs.builtin⟩
    have hrunning' : s.paused = false := hrunning
    simp only [client, hrunning']
    exact asChosen_act b (hs.restored hrunning')

theorem considerate_of_restored {a : Action (ClientAction H)} (hs : Remembered s) (hstep : step client s a = some t)
    (ht : Restored t) : Considerate s a := by
  cases a with
  | event e =>
    cases hstep
    intro hend
    rcases handle_own s e with ⟨_, hpaused, hown⟩ | ⟨hnot, _⟩ | ⟨hnot, _⟩
    · have hchosen := ht hpaused
      rw [hown] at hchosen
      exact (asChosen_onUnpause hs.builtin).mp hchosen
    · exact absurd hend hnot
    · exact absurd hend hnot
  | own b => trivial

end Torrents

/-- From credits and a ready Tor, an application is paused for as long as there is a cause exactly when
its events are timely; and a BitTorrent client brings back what the user chose exactly when no pause
ends while the user keeps a torrent paused. -/
theorem disciplined_and_restored {σ β H : Type} [DecidableEq H] (c : Subclass σ β) (own : σ) (ready : Bool)
    (torrents : List (Torrent H)) {s : SocksApplication σ} {as : List (Action β)}
    {u : SocksApplication (BitTorrentClient H)} {bs : List (Action (ClientAction H))}
    (hrun : Run (step c) (fun _ _ => True) (SocksApplication.new own) as s)
    (hclient : Run (step BitTorrentClient.client) (fun _ _ => True)
      (SocksApplication.new (BitTorrentClient.new ready torrents)) bs u) :
    ((∀ start t, start <+: as → Run (step c) (fun _ _ => True) (SocksApplication.new own) start t → Disciplined t) ↔
      EachStep (step c) Timely (SocksApplication.new own) as) ∧
    ((∀ start t, start <+: bs → Run (step BitTorrentClient.client) (fun _ _ => True)
        (SocksApplication.new (BitTorrentClient.new ready torrents)) start t → Restored t) ↔
      EachStep (step BitTorrentClient.client) Considerate
        (SocksApplication.new (BitTorrentClient.new ready torrents)) bs) := by
  constructor
  · exact Run.forall_prefix_iff (I := Marked) Marked.disciplined step_marked timely_of_disciplined hrun (marked_new own)
  · exact Run.forall_prefix_iff (I := Remembered) Remembered.restored step_remembered considerate_of_restored hclient
      (remembered_new ready torrents)

def exampleTorrent (hash : Nat) (chosen : Bool) : Torrent Nat where
  hash := hash
  unpauseflag := chosen
  storagewrapper := true
  chosen := chosen

def exampleClient (chosen : Bool) : SocksApplication (BitTorrentClient Nat) :=
  .new (.new true [exampleTorrent 1 true, exampleTorrent 2 chosen])

/-- Tor goes and comes while there are no credits, and once more later; the user pauses a torrent in between. -/
def exampleActions : List (Action (ClientAction Nat)) :=
  [.event .noCredits, .event .torDone, .event .torReady, .event .someCredits, .own (.userPause 1),
    .own (.userUnpause 1), .event .torDone, .event .torReady]

theorem example_disciplined : ∃ s, Run (step BitTorrentClient.client) (fun _ _ => True) (exampleClient true) exampleActions s ∧
    ∀ start t, start <+: exampleActions →
      Run (step BitTorrentClient.client) (fun _ _ => True) (exampleClient true) start t → Disciplined t ∧ Restored t := by
  have htimely : EachStep (step BitTorrentClient.client) Timely (exampleClient true) exampleActions := by
    decide
  have hconsiderate : EachStep (step BitTorrentClient.client) Considerate (exampleClient true) exampleActions := by
    decide
  have hend : (exec (step BitTorrentClient.client) (exampleClient true) exampleActions).any (fun _ => true) = true := by
    decide
  obtain ⟨s, hrun, _⟩ := exists_run hend (eachStep_true _ _)
  obtain ⟨hdisciplined, hrestored⟩ := disciplined_and_restored _ _ true _ hrun hrun
  exact ⟨s, hrun, fun start t hstart hprefix =>
    ⟨hdisciplined.mpr htimely start t hstart hprefix, hrestored.mpr hconsiderate start t hstart hprefix⟩⟩

/-- Tor stops and then the credits end. When Tor is back the application runs, and so does the torrent
that the user had paused. -/
theorem resumed_without_credits : ∃ s, Run (step BitTorrentClient.client) (fun _ _ => True) (exampleClient false)
      [.event .torDone, .event .noCredits, .event .torReady] s ∧
    ¬Disciplined s ∧ ¬Restored s := by
  have hend : (exec (step BitTorrentClient.client) (exampleClient false)
      [.event .torDone, .event .noCredits, .event .torReady]).any
        (fun s => s.paused = false ∧ s.outOfCredits = true ∧
          ∃ t ∈ s.own.downloads, t.unpauseflag = true ∧ t.chosen = false) = true := by
    decide
  obtain ⟨s, hrun, hs⟩ := exists_run hend (eachStep_true _ _)
  obtain ⟨hpaused, hcredits, u, hu, hflag, hchosen⟩ := of_decide_eq_true hs
  refine ⟨s, hrun, fun h => ?_, fun h => ?_⟩
  · exact absurd (hpaused.symm.trans (h.mpr (.inl hcredits))) nofun
  · exact absurd (hflag.symm.trans ((h hpaused u hu).trans hchosen)) nofun

end BitBlinder.Pausing
