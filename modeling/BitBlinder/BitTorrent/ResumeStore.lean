import BitBlinder.Runs
import BitBlinder.Struct

/-!
# The resume data of `BitTorrentClient`

The data of a torrent is kept twice: in `TorrentDataBuffer` and in a file of the
data directory. A lookup goes by the infohash in the buffer and by the path on
disk, and what it reads it stores under the path, where no lookup finds it.
`writeTorrentData` fills the buffer before it tries the disk, and
`deleteTorrentData` removes the file only.
-/

namespace BitBlinder.BitTorrent

set_option autoImplicit false

open Struct

/-- A SHA-1 digest. -/
abbrev Infohash := { bs : Bytes // bs.length = 20 }

def hexDigit (n : Nat) : UInt8 := if n < 10 then UInt8.ofNat (48 + n) else UInt8.ofNat (87 + n)

/-- `b2a_hex` -/
def tohex (bs : Bytes) : Bytes := bs.flatMap fun b => [hexDigit (b.toNat / 16), hexDigit (b.toNat % 16)]

/-- `os.path.join` of a directory and a relative name. -/
def osPathJoin (sep : UInt8) (dir name : Bytes) : Bytes :=
  if dir = [] ∨ dir.getLast? = some sep then dir ++ name else dir ++ sep :: name

/-- Where the data is, and the coding of it, of which `bdecode` raises on what is not a coding. -/
structure DataCache (δ : Type) where
  sep : UInt8
  dir_datacache : Bytes
  bencode : δ → Bytes
  bdecode : Bytes → Option δ
  bdecode_bencode : ∀ data, bdecode (bencode data) = some data

/-- What the disk does with a file that is written: it cannot be opened; the write or the coding
raises with `left` in the file; the last buffer is lost on closing; all is written. -/
inductive DiskWrite where
  | openFails
  | writeFails (left : Bytes)
  | closeFails (left : Bytes)
  | written

/-- The dictionary has the infohashes of what was written and the paths of what was read as keys. -/
structure ResumeStore (δ : Type) where
  TorrentDataBuffer : Bytes → Option (Option δ)
  files : Bytes → Option Bytes

inductive DataCall (δ : Type) where
  | getTorrentData (torrent : Infohash)
  | writeTorrentData (torrent : Infohash) (data : δ) (disk : DiskWrite)
  | deleteTorrentData (torrent : Infohash)

namespace ResumeStore
variable {δ : Type} (c : DataCache δ)

def path (torrent : Infohash) : Bytes := osPathJoin c.sep c.dir_datacache (tohex torrent.val)

/-- `os.remove`, whose error for a missing file is dropped. -/
def deleteTorrentData (s : ResumeStore δ) (torrent : Infohash) : ResumeStore δ :=
  { s with files := Function.update s.files (path c torrent) none }

def getTorrentData (s : ResumeStore δ) (torrent : Infohash) : ResumeStore δ × Option δ :=
  match s.TorrentDataBuffer torrent.val with
  | some data => (s, data)
  | none =>
    match s.files (path c torrent) with
    | none => (s, none)
    | some content =>
      ({ s with TorrentDataBuffer := Function.update s.TorrentDataBuffer (path c torrent) (some (c.bdecode content)) },
        c.bdecode content)

def writeTorrentData (s : ResumeStore δ) (torrent : Infohash) (data : δ) (disk : DiskWrite) : ResumeStore δ × Bool :=
  let s := { s with TorrentDataBuffer := Function.update s.TorrentDataBuffer torrent.val (some (some data)) }
  let put := fun content => { s with files := Function.update s.files (path c torrent) (some content) }
  match disk with
  | .openFails => (deleteTorrentData c s torrent, false)
  | .writeFails left => (deleteTorrentData c (put left) torrent, false)
  | .closeFails left => (put left, true)
  | .written => (put (c.bencode data), true)

def call (s : ResumeStore δ) : DataCall δ → ResumeStore δ
  | .getTorrentData torrent => (getTorrentData c s torrent).1
  | .writeTorrentData torrent data disk => (writeTorrentData c s torrent data disk).1
  | .deleteTorrentData torrent => deleteTorrentData c s torrent

end ResumeStore

/-! ### Keys -/

theorem hexDigit_inj {m n : Nat} (hm : m < 16) (hn : n < 16) (h : hexDigit m = hexDigit n) : m = n := by
  have hval := congrArg UInt8.toNat h
  unfold hexDigit at hval
  split at hval <;> split at hval <;> simp only [UInt8.toNat_ofNat'] at hval <;> omega

theorem length_tohex (bs : Bytes) : (tohex bs).length = 2 * bs.length := by
  induction bs with
  | nil => rfl
  | cons b bs ih =>
    have hcons : (tohex (b :: bs)).length = (tohex bs).length + 2 := rfl
    rw [hcons, ih, List.length_cons]
    omega

theorem tohex_inj {as bs : Bytes} (h : tohex as = tohex bs) : as = bs := by
  induction as generalizing bs with
  | nil =>
    cases bs with
    | nil => rfl
    | cons b bs => cases h
  | cons a as ih =>
    cases bs with
    | nil => cases h
    | cons b bs =>
      obtain ⟨hhigh, hrest⟩ := List.cons.inj h
      obtain ⟨hlow, hrest⟩ := List.cons.inj hrest
      have ha := a.toNat_lt
      have hb := b.toNat_lt
      have hhigh := hexDigit_inj (by omega) (by omega) hhigh
      have hlow := hexDigit_inj (by omega) (by omega) hlow
      have hab : a = b := UInt8.toNat_inj.mp (by omega)
      rw [hab, ih hrest]

theorem osPathJoin_inj {sep : UInt8} {dir a b : Bytes} (h : osPathJoin sep dir a = osPathJoin sep dir b) : a = b := by
  unfold osPathJoin at h
  split at h
  · exact List.append_cancel_left h
  · exact (List.cons.inj (List.append_cancel_left h)).2

theorem length_le_osPathJoin (sep : UInt8) (dir name : Bytes) : name.length ≤ (osPathJoin sep dir name).length := by
  unfold osPathJoin
  split
  · rw [List.length_append]
    omega
  · rw [List.length_append, List.length_cons]
    omega

namespace ResumeStore
variable {δ : Type} (c : DataCache δ)

theorem path_inj {torrent torrent' : Infohash} (h : path c torrent = path c torrent') : torrent = torrent' :=
  Subtype.ext (tohex_inj (osPathJoin_inj h))

/-- A path is longer than an infohash, so what is stored under it is never looked up. -/
theorem path_ne_infohash (torrent torrent' : Infohash) : torrent'.val ≠ path c torrent := by
  intro heq
  have hlen := length_le_osPathJoin c.sep c.dir_datacache (tohex torrent.val)
  rw [length_tohex, torrent.property] at hlen
  have hlength := congrArg List.length heq
  rw [torrent'.property] at hlength
  unfold path at hlength
  omega

/-! ### The map that it should be -/

/-- What a fresh reader would find on disk. -/
def onDisk (s : ResumeStore δ) (torrent : Infohash) : Option δ := (s.files (path c torrent)).bind c.bdecode

end ResumeStore

/-- The cache, and of each infohash the last successful write that no delete followed. -/
structure Tracked (δ : Type) where
  data : ResumeStore δ
  wanted : Infohash → Option δ

namespace Tracked
open ResumeStore
variable {δ : Type} (c : DataCache δ)

def wantedStep (s : Tracked δ) : DataCall δ → Infohash → Option δ
  | .getTorrentData _ => s.wanted
  | .writeTorrentData torrent data disk =>
    if (writeTorrentData c s.data torrent data disk).2 then Function.update s.wanted torrent (some data) else s.wanted
  | .deleteTorrentData torrent => Function.update s.wanted torrent none

def step (s : Tracked δ) (a : DataCall δ) : Option (Tracked δ) :=
  some ⟨s.data.call c a, wantedStep c s a⟩

/-- A start of the program on whatever files there are. -/
def start (files : Bytes → Option Bytes) : Tracked δ :=
  ⟨⟨fun _ => none, files⟩, onDisk c ⟨fun _ => none, files⟩⟩

/-- Both copies say what they should. -/
def IsMap (s : Tracked δ) : Prop :=
  ∀ torrent, (getTorrentData c s.data torrent).2 = s.wanted torrent ∧ onDisk c s.data torrent = s.wanted torrent

/-- A write leaves the whole coding in the file, and a delete is of data that was not written since
the program was started. -/
def Kept (s : Tracked δ) : DataCall δ → Prop
  | .getTorrentData _ => True
  | .writeTorrentData _ data disk =>
    match disk with
    | .openFails => False
    | .writeFails _ => False
    | .closeFails left => c.bdecode left = some data
    | .written => True
  | .deleteTorrentData torrent => s.data.TorrentDataBuffer torrent.val = none

/-- The invariant: both copies, and no infohash in the buffer without data. -/
structure Inv (s : Tracked δ) : Prop where
  disk : ∀ torrent, onDisk c s.data torrent = s.wanted torrent
  buffer : ∀ torrent v, s.data.TorrentDataBuffer torrent.val = some v → v = s.wanted torrent ∧ v ≠ none

variable {c}

theorem getTorrentData_snd (s : ResumeStore δ) (torrent : Infohash) :
    (getTorrentData c s torrent).2 = (s.TorrentDataBuffer torrent.val).getD (onDisk c s torrent) := by
  unfold getTorrentData onDisk
  split
  · rename_i hbuffer
    rw [hbuffer]
    rfl
  · rename_i hbuffer
    rw [hbuffer]
    split
    · rename_i hfile
      rw [hfile]
      rfl
    · rename_i hfile
      rw [hfile]
      rfl

/-- A lookup leaves the files and the entries of infohashes alone. -/
theorem getTorrentData_fst (s : ResumeStore δ) (torrent : Infohash) :
    (getTorrentData c s torrent).1.files = s.files ∧
      ∀ torrent' : Infohash, (getTorrentData c s torrent).1.TorrentDataBuffer torrent'.val =
        s.TorrentDataBuffer torrent'.val := by
  unfold getTorrentData
  split
  · exact ⟨rfl, fun _ => rfl⟩
  · split
    · exact ⟨rfl, fun _ => rfl⟩
    · exact ⟨rfl, fun torrent' => Function.update_of_ne (path_ne_infohash c torrent torrent') _ _⟩

theorem Inv.isMap {s : Tracked δ} (h : Inv c s) : IsMap c s := by
  intro torrent
  refine ⟨?_, h.disk torrent⟩
  rw [getTorrentData_snd]
  cases hbuffer : s.data.TorrentDataBuffer torrent.val with
  | none => exact h.disk torrent
  | some v => exact (h.buffer torrent v hbuffer).1

theorem inv_start (files : Bytes → Option Bytes) : Inv c (start c files) where
  disk _ := rfl
  buffer _ _ h := by cases h

/-- The data of a file that is written, and of the others. -/
theorem onDisk_update (buffer : Bytes → Option (Option δ)) (files : Bytes → Option Bytes) (torrent torrent' : Infohash)
    (content : Option Bytes) :
    onDisk c ⟨buffer, Function.update files (path c torrent) content⟩ torrent' =
      if torrent' = torrent then content.bind c.bdecode else onDisk c ⟨buffer, files⟩ torrent' := by
  unfold onDisk
  dsimp only
  by_cases heq : torrent' = torrent
  · rw [heq, Function.update_self, if_pos rfl]
  · have hne : path c torrent' ≠ path c torrent := fun hpath => heq (path_inj c hpath)
    rw [Function.update_of_ne hne, if_neg heq]

theorem Inv.put {s : Tracked δ} (h : Inv c s) (torrent : Infohash) {data : δ} {content : Bytes}
    (hcontent : c.bdecode content = some data) :
    Inv c ⟨⟨Function.update s.data.TorrentDataBuffer torrent.val (some (some data)),
      Function.update s.data.files (path c torrent) (some content)⟩,
      Function.update s.wanted torrent (some data)⟩ := by
  refine ⟨fun torrent' => ?_, fun torrent' v hv => ?_⟩
  · dsimp only
    rw [onDisk_update, Function.update_apply]
    split
    · exact hcontent
    · exact h.disk torrent'
  · dsimp only at hv ⊢
    by_cases heq : torrent' = torrent
    · rw [heq, Function.update_self] at hv
      rw [heq, Function.update_self]
      exact ⟨(Option.some.inj hv).symm, by rw [← Option.some.inj hv]; exact Option.some_ne_none data⟩
    · have hne : torrent'.val ≠ torrent.val := fun hval => heq (Subtype.ext hval)
      rw [Function.update_of_ne hne] at hv
      rw [Function.update_of_ne heq]
      exact h.buffer torrent' v hv

theorem Inv.delete {s : Tracked δ} (h : Inv c s) (torrent : Infohash)
    (hbuffer : s.data.TorrentDataBuffer torrent.val = none) :
    Inv c ⟨deleteTorrentData c s.data torrent, Function.update s.wanted torrent none⟩ := by
  refine ⟨fun torrent' => ?_, fun torrent' v hv => ?_⟩
  · dsimp only [deleteTorrentData]
    rw [onDisk_update, Function.update_apply]
    split
    · rfl
    · exact h.disk torrent'
  · dsimp only [deleteTorrentData] at hv ⊢
    by_cases heq : torrent' = torrent
    · rw [heq, hbuffer] at hv
      cases hv
    · rw [Function.update_of_ne heq]
      exact h.buffer torrent' v hv

theorem Inv.step {s t : Tracked δ} {a : DataCall δ} (h : Inv c s) (hstep : step c s a = some t)
    (hkept : Kept c s a) : Inv c t := by
  obtain rfl := Option.some.inj hstep
  cases a with
  | getTorrentData torrent =>
    obtain ⟨hfiles, hbuffer⟩ := getTorrentData_fst (c := c) s.data torrent
    refine ⟨fun torrent' => ?_, fun torrent' v hv => ?_⟩
    · have hdisk := h.disk torrent'
      unfold onDisk at hdisk ⊢
      dsimp only [ResumeStore.call]
      rw [hfiles]
      exact hdisk
    · dsimp only [ResumeStore.call] at hv
      rw [hbuffer] at hv
      exact h.buffer torrent' v hv
  | writeTorrentData torrent data disk =>
    cases disk with
    | openFails => exact hkept.elim
    | writeFails left => exact hkept.elim
    | closeFails left => exact h.put torrent hkept
    | written => exact h.put torrent (c.bdecode_bencode data)
  | deleteTorrentData torrent => exact h.delete torrent hkept

/-- After a failed write the buffer has the data and the disk has nothing. -/
theorem not_isMap_of_removed (s : Tracked δ) (torrent : Infohash) (data : δ) (files : Bytes → Option Bytes)
    (wanted : Infohash → Option δ) :
    ¬IsMap c ⟨deleteTorrentData c ⟨Function.update s.data.TorrentDataBuffer torrent.val (some (some data)), files⟩
      torrent, wanted⟩ := by
  intro hmap
  obtain ⟨hget, hdisk⟩ := hmap torrent
  rw [getTorrentData_snd] at hget
  dsimp only [deleteTorrentData] at hget hdisk
  rw [onDisk_update, if_pos rfl] at hdisk
  rw [Function.update_self, ← hdisk] at hget
  cases hget

/-- A step after which both copies say what they should is one of the kept ones. -/
theorem Inv.needed {s t : Tracked δ} {a : DataCall δ} (h : Inv c s) (hstep : Tracked.step c s a = some t)
    (hmap : IsMap c t) : Kept c s a := by
  obtain rfl := Option.some.inj hstep
  cases a with
  | getTorrentData torrent => trivial
  | writeTorrentData torrent data disk =>
    cases disk with
    | openFails => exact not_isMap_of_removed s torrent data _ _ hmap
    | writeFails left => exact not_isMap_of_removed s torrent data _ _ hmap
    | closeFails left =>
      have hwanted : wantedStep c s (.writeTorrentData torrent data (.closeFails left)) =
          Function.update s.wanted torrent (some data) := rfl
      have hdisk := (hmap torrent).2
      dsimp only [ResumeStore.call, writeTorrentData] at hdisk
      rw [onDisk_update, if_pos rfl, hwanted, Function.update_self] at hdisk
      exact hdisk
    | written => trivial
  | deleteTorrentData torrent =>
    cases hbuffer : s.data.TorrentDataBuffer torrent.val with
    | none => exact hbuffer
    | some v =>
      have hget := (hmap torrent).1
      rw [getTorrentData_snd] at hget
      dsimp only [wantedStep, ResumeStore.call, deleteTorrentData] at hget
      rw [hbuffer, Function.update_self] at hget
      exact absurd hget (h.buffer torrent v hbuffer).2

/-- In every state that a run comes by, both copies of every torrent's data are its last write, if and
only if every write left the whole coding in its file and nothing that was written was deleted. -/
theorem isMap_iff_kept (files : Bytes → Option Bytes) {t : Tracked δ} {calls : List (DataCall δ)}
    (h : Run (Tracked.step c) (fun _ _ => True) (start c files) calls t) :
    (∀ begun u, begun <+: calls → Run (Tracked.step c) (fun _ _ => True) (start c files) begun u → IsMap c u) ↔
      EachStep (Tracked.step c) (Kept c) (start c files) calls :=
  h.forall_prefix_iff (I := Inv c) Inv.isMap Inv.step Inv.needed (inv_start files)

end Tracked

/-! ### A delete that leaves the data in memory -/

/-- Data that is its own coding. -/
def plainCache : DataCache Bytes where
  sep := 47
  dir_datacache := [100]
  bencode := id
  bdecode := some
  bdecode_bencode _ := rfl

def zeroHash : Infohash := ⟨List.replicate 20 0, rfl⟩

namespace Tracked
open ResumeStore

theorem isMap_iff_kept_written :
    (∀ begun u, begun <+: [.writeTorrentData zeroHash [1] .written, .getTorrentData zeroHash] →
      Run (Tracked.step plainCache) (fun _ _ => True) (start plainCache fun _ => none) begun u → IsMap plainCache u) ↔
      EachStep (Tracked.step plainCache) (Kept plainCache) (start plainCache fun _ => none)
        [.writeTorrentData zeroHash [1] .written, .getTorrentData zeroHash] :=
  isMap_iff_kept _ (.cons trivial rfl (.cons trivial rfl (.refl _)))

/-- What was deleted is still returned. -/
theorem getTorrentData_after_delete :
    ∃ t, Run (Tracked.step plainCache) (fun _ _ => True) (start plainCache fun _ => none)
        [.writeTorrentData zeroHash [1] .written, .deleteTorrentData zeroHash] t ∧
      t.wanted zeroHash = none ∧ onDisk plainCache t.data zeroHash = none ∧
      (getTorrentData plainCache t.data zeroHash).2 = some [1] ∧ ¬IsMap plainCache t := by
  have hget : (getTorrentData plainCache (deleteTorrentData plainCache (writeTorrentData plainCache
      (start plainCache fun _ => none).data zeroHash [1] .written).1 zeroHash) zeroHash).2 = some [1] := by
    decide
  refine ⟨_, .cons trivial rfl (.cons trivial rfl (.refl _)), by decide, by decide, hget, ?_⟩
  intro hmap
  have hwanted := (hmap zeroHash).1.symm.trans hget
  revert hwanted
  decide

end Tracked

end BitBlinder.BitTorrent
