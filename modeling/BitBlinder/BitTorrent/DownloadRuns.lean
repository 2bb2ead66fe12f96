import BitBlinder.BitTorrent.ActiveRequests

/-!
# Runs of a download

A download starts with what was found on the disk. Whatever the peers do and in whatever order,
every part of every missing piece is at one place, the amounts say what they are meant to say,
and only one thing makes a handler raise.
-/

namespace BitBlinder

set_option autoImplicit false

open Struct (Bytes)
open StorageWrapper (Books freeOf requestsOf mem_requestsOf requestsOf_ne_nil)
open Tiling (slice)

namespace StorageWrapper
variable {n : Nat} {Src : Type} {info : TorrentInfo n} {s : StorageWrapper n Src}

/-- A storage as the downloader gets it: pieces are blocked, then some that are wanted are found. -/
inductive Started (info : TorrentInfo n) : StorageWrapper n Src → Prop where
  | reblock {content : Fin n → Bytes} {newBlocked : Fin n → Bool} {s : StorageWrapper n Src}
      (hcontent : ∀ i, (content i).length = info.pieceLen i)
      (h : StorageWrapper.reblock info (new info content) newBlocked = .ok s) : Started info s
  | markgot {s : StorageWrapper n Src} {i : Fin n} {data : Bytes} (h : Started info s)
      (hwanted : s.blocked i = false) (hnew : s.has i = false) (hlength : data.length = info.pieceLen i)
      (hdata : info.checkHashes = true → info.sha data = info.hashes i) : Started info (markgot info s i data)

/-- Nothing came and nothing was asked for. -/
structure Fresh (s : StorageWrapper n Src) : Prop where
  untouched : ∀ i, s.has i = false → s.inactiveRequests i = .untouched
  dirty : ∀ i, s.dirty i = none
  history : ∀ i, s.downloadHistory i = none
  failed : ∀ i, s.failedPieces i = none

theorem Started.fresh (h : Started info s) : Books info s info.cut [] ∧ Fresh s := by
  induction h with
  | reblock hcontent h =>
    obtain ⟨a, b, c, hrun, hbooks⟩ := (Books.new info hcontent info.cut).reblock fun i _ => requestsOf_nil i
    obtain rfl := Except.ok.inj (hrun.symm.trans h)
    exact ⟨hbooks, fun _ _ => rfl, fun _ => rfl, fun _ => rfl, fun _ => rfl⟩
  | @markgot s i data _ hwanted hnew hlength hdata ih =>
    obtain ⟨hbooks, hfresh⟩ := ih
    refine ⟨hbooks.markgot hwanted (hfresh.untouched i hnew) hlength hdata, fun j hj => ?_, hfresh.dirty,
      hfresh.history, hfresh.failed⟩
    have hji : j ≠ i := by
      rintro rfl
      exact Bool.false_ne_true (hj.symm.trans (Function.update_self ..))
    have hhas : (StorageWrapper.markgot info s i data).has j = s.has j := Function.update_of_ne hji _ _
    have hreq : (StorageWrapper.markgot info s i data).inactiveRequests j = s.inactiveRequests j := Function.update_of_ne hji _ _
    rw [hreq]
    exact hfresh.untouched j (hhas.symm.trans hj)

end StorageWrapper

namespace Downloader
variable {n : Nat} {info : TorrentInfo n} {storage : StorageWrapper n Nat} {s : Downloader n}
  {as : List (Choices n × Event n)}

theorem sound_new (h : Books info storage info.cut []) : Sound info (new storage) where
  books := h
  nodup := List.nodup_nil
  made := fun _ hj => absurd hj List.not_mem_nil
  idle := fun _ => rfl
  within := fun _ _ hj => absurd hj List.not_mem_nil
  peer := fun _ hj => absurd hj List.not_mem_nil
  paused := fun _ => ⟨rfl, fun _ hj => absurd hj List.not_mem_nil⟩

instance (s : Downloader n) : (e : Event n) → Decidable (Present s e)
  | .connected => .isTrue trivial
  | .choke j => inferInstanceAs (Decidable (j ∈ s.downloads))
  | .unchoke j => inferInstanceAs (Decidable (j ∈ s.downloads))
  | .haveMessage j _ => inferInstanceAs (Decidable (j ∈ s.downloads))
  | .bitfield j _ => inferInstanceAs (Decidable (j ∈ s.downloads))
  | .piece j _ _ _ => inferInstanceAs (Decidable (j ∈ s.downloads))
  | .snubbed j => inferInstanceAs (Decidable (j ∈ s.downloads))
  | .disconnected j => inferInstanceAs (Decidable (j ∈ s.downloads))
  | .pause _ => .isTrue trivial
  | .upload _ _ _ => .isTrue trivial

/-- The runs of a download whose connections are there when they do something. -/
def Downloads (info : TorrentInfo n) (storage : StorageWrapper n Nat) : List (Choices n × Event n) → Downloader n → Prop :=
  Run (step info) (fun s e => Present s e.2) (new storage)

theorem Downloads.sound (hstart : storage.Started info) (h : Downloads info storage as s) : Sound info s :=
  Run.invariant (fun hs he hstep => (step_spec hs he hstep).1) h (sound_new hstart.fresh.1)

theorem mem_outstanding (hs : Sound info s) {j : Nat} (hj : j ∈ s.downloads) {r : Request n} (hr : r ∈ (s.peers j).active) :
    r ∈ outstanding s := by
  cases hend : s.endgamemode with
  | true =>
    rw [outstanding_of_endgame hend]
    exact (hs.within hend j hj r hr).resolve_right List.not_mem_nil
  | false =>
    rw [outstanding_of_not hend]
    exact mem_activeOf.mpr ⟨j, hj, hr⟩

/-- Every part of a piece that is missing is free, asked for or there, once; peers are asked for
what they have, is wanted and is out, and but for the end game no two of them for one part. -/
theorem parts_accounted (hstart : storage.Started info) (h : Downloads info storage as s) :
    (∀ i, if s.storage.has i then freeOf info s.storage i = [] ∧ requestsOf (outstanding s) i = [] ∧ s.storage.dirty i = none
      else (freeOf info s.storage i ++ requestsOf (outstanding s) i ++ (s.storage.dirty i).getD []).Perm (info.cut i)) ∧
    (∀ j ∈ s.downloads, ∀ r ∈ (s.peers j).active, r ∈ outstanding s ∧ (s.peers j).haves r.1 = true ∧
      (s.peers j).choked = false ∧ s.storage.blocked r.1 = false) ∧
    (s.endgamemode = false → (activeOf s.peers s.downloads).Nodup) := by
  have hs := h.sound hstart
  have hbooks : Books info s.storage info.cut (outstanding s) := hs.books
  refine ⟨hbooks.shared, fun j hj r hr => ?_, fun hend => ?_⟩
  · have hout := mem_outstanding hs hj hr
    have hpeer := hs.peer j hj
    refine ⟨hout, hpeer.asked r hr, (hpeer.ready (List.ne_nil_of_mem hr)).2, ?_⟩
    by_contra hblocked
    exact requestsOf_ne_nil hout ((hbooks.piece r.1).blocked (eq_true_of_ne_false hblocked))
  · have hnodup := nodup_of_books hbooks
    rwa [outstanding_of_not hend] at hnodup

/-- Two pieces of four and three bytes, asked for in parts of two. -/
def exampleInfo : TorrentInfo 2 where
  requestSize := 2
  pieceSize := 4
  totalLength := 7
  hashes := ![[1, 2, 3, 4], [5, 6, 7]]
  sha := id
  checkHashes := true
  requestPos := by decide
  notSmall := by decide
  notBig := by decide

def exampleStorage : StorageWrapper 2 Nat := .new exampleInfo fun i => List.replicate (exampleInfo.pieceLen i) 0

theorem started_example : exampleStorage.Started exampleInfo := by
  have hblock : StorageWrapper.reblock exampleInfo exampleStorage (fun _ => false) = .ok exampleStorage := rfl
  exact .reblock (fun _ => List.length_replicate ..) hblock

/-- A peer is asked for everything, a second one comes and both send. -/
def exampleEvents : List (Choices 2 × Event 2) :=
  let first : Fin 2 := ⟨0, Nat.two_pos⟩
  let second : Fin 2 := ⟨1, Nat.one_lt_two⟩
  [(⟨[], [], []⟩, .connected), (⟨[], [], []⟩, .bitfield 0 fun _ => true), (⟨[first, second], [0], []⟩, .unchoke 0),
    (⟨[], [], []⟩, .connected), (⟨[], [], []⟩, .bitfield 1 fun _ => true), (⟨[], [3], []⟩, .unchoke 1),
    (⟨[], [], []⟩, .piece 0 first 0 [1, 2]), (⟨[], [], []⟩, .piece 1 first 2 [3, 4]),
    (⟨[], [], []⟩, .piece 1 second 0 [5, 0]), (⟨[], [], []⟩, .upload first 1 (some 2)),
    (⟨[], [], []⟩, .disconnected 0)]

theorem present_example :
    EachStep (step exampleInfo) (fun s e => Present s e.2) (new exampleStorage) exampleEvents := by decide

theorem parts_accounted_example : ∃ s, Downloads exampleInfo exampleStorage exampleEvents s ∧
    (s.peers 1).active = [(1, 2, 1)] ∧
    (∀ i, if s.storage.has i then freeOf exampleInfo s.storage i = [] ∧ requestsOf (outstanding s) i = [] ∧ s.storage.dirty i = none
      else (freeOf exampleInfo s.storage i ++ requestsOf (outstanding s) i ++ (s.storage.dirty i).getD []).Perm (exampleInfo.cut i)) ∧
    (∀ j ∈ s.downloads, ∀ r ∈ (s.peers j).active, r ∈ outstanding s ∧ (s.peers j).haves r.1 = true ∧
      (s.peers j).choked = false ∧ s.storage.blocked r.1 = false) ∧
    (s.endgamemode = false → (activeOf s.peers s.downloads).Nodup) := by
  have hend : (exec (step exampleInfo) (new exampleStorage) exampleEvents).any
      (fun s => decide ((s.peers 1).active = [(1, 2, 1)])) = true := by decide
  obtain ⟨s, hrun, hactive⟩ := exists_run hend present_example
  exact ⟨s, hrun, of_decide_eq_true hactive, parts_accounted started_example hrun⟩

end Downloader

end BitBlinder
