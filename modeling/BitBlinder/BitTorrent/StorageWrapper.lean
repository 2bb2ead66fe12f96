import BitBlinder.Basic
import BitBlinder.Bisect
import BitBlinder.Tiling
import Mathlib.Algebra.BigOperators.Fin
import Mathlib.Data.List.AList
import Mathlib.Data.List.Dedup

/-!
# `BT1/StorageWrapper.py`

Which parts of which pieces are still to be asked for, are asked for and have come, and what
becomes of a piece once all of it is there. `content` is what is read at the place of a piece;
the places on the disk, the write buffer and failures of the disk are not here. `Src` are the
guards of the connections that data comes from.
-/

namespace BitBlinder

set_option autoImplicit false

open Struct (Bytes)
open Tiling (parts slice patch)

/-- What the constructor is given, as far as it accepts it. -/
structure TorrentInfo (n : Nat) where
  requestSize : Nat
  pieceSize : Nat
  totalLength : Nat
  hashes : Fin n → Bytes
  sha : Bytes → Bytes
  checkHashes : Bool
  requestPos : 0 < requestSize
  notSmall : (pieceSize : Int) * (n - 1) < totalLength
  notBig : totalLength ≤ pieceSize * n

namespace TorrentInfo
variable {n : Nat}

/-- The checks of the constructor. -/
def check (requestSize pieceSize totalLength : Nat) (hashes : Fin n → Bytes) (sha : Bytes → Bytes)
    (checkHashes : Bool) (requestPos : 0 < requestSize) : PyExcept (TorrentInfo n) :=
  if hsmall : (totalLength : Int) ≤ pieceSize * (n - 1) then
    .error (.valueError "bad data in responsefile - total too small")
  else if hbig : pieceSize * n < totalLength then
    .error (.valueError "bad data in responsefile - total too big")
  else
    .ok { requestSize, pieceSize, totalLength, hashes, sha, checkHashes, requestPos
          notSmall := Int.not_le.mp hsmall
          notBig := Nat.le_of_not_lt hbig }

variable (info : TorrentInfo n)

/-- `_piecelen` -/
def pieceLen (i : Fin n) : Nat :=
  if i.val + 1 < n then info.pieceSize else info.totalLength - i.val * info.pieceSize

theorem pieceLen_pos (i : Fin n) : 0 < info.pieceLen i := by
  have hsmall := info.notSmall
  have hbig := info.notBig
  unfold pieceLen
  split
  · rename_i hlt
    by_contra hzero
    have hsize : info.pieceSize = 0 := by omega
    rw [hsize] at hsmall hbig
    rw [Nat.zero_mul] at hbig
    rw [Int.natCast_zero, Int.zero_mul] at hsmall
    omega
  · have hi := i.isLt
    have hn : (n : Int) - 1 = i.val := by omega
    rw [hn, ← Int.natCast_mul] at hsmall
    have hcomm := Nat.mul_comm info.pieceSize i.val
    omega

def cut (i : Fin n) : List (Nat × Nat) := parts info.requestSize (info.pieceLen i)

theorem tiles_cut (i : Fin n) : Tiling.Tiles 0 (info.cut i) (info.pieceLen i) :=
  Tiling.tiles_parts info.requestPos (info.pieceLen_pos i)

end TorrentInfo

/-- An entry of `inactive_requests`: 1, a list, or None for a piece that we have. -/
inductive Requests where
  | untouched
  | chunks (l : List (Nat × Nat))
  | done
  deriving DecidableEq

/-- The callbacks that the storage calls. -/
inductive StorageEvent (n : Nat) (Src : Type) where
  | dataFlunked (length : Nat) (index : Fin n)
  | failed (source : Src) (index : Fin n) (bump : Bool)
  | good (source : Src) (index : Fin n)
  | finished
  | failure (msg : String)
  deriving DecidableEq

structure StorageWrapper (n : Nat) (Src : Type) where
  amountLeft : Int
  numactive : Fin n → Int
  inactiveRequests : Fin n → Requests
  amountInactive : Int
  amountObtained : Int
  amountDesired : Int
  has : Fin n → Bool
  blocked : Fin n → Bool
  waschecked : Fin n → Bool
  statActive : Fin n → Bool
  dirty : Fin n → Option (List (Nat × Nat))
  downloadHistory : Fin n → Option (AList fun _ : Nat => Option Src)
  failedPieces : Fin n → Option (List (Option Src))
  content : Fin n → Bytes

/-- What `piece_came_in` returns and calls. -/
structure Arrival (n : Nat) (Src : Type) where
  kept : Bool
  storage : StorageWrapper n Src
  events : List (StorageEvent n Src)

namespace StorageWrapper
variable {n : Nat} {Src : Type} (info : TorrentInfo n)

def assertion : PyError := .assertionError ""

/-- A new storage, `content` is what is on the disk. -/
def new (content : Fin n → Bytes) : StorageWrapper n Src where
  amountLeft := info.totalLength
  numactive := fun _ => 0
  inactiveRequests := fun _ => .untouched
  amountInactive := info.totalLength
  amountObtained := 0
  amountDesired := info.totalLength
  has := fun _ => false
  blocked := fun _ => false
  waschecked := fun _ => false
  statActive := fun _ => false
  dirty := fun _ => none
  downloadHistory := fun _ => none
  failedPieces := fun _ => none
  content := content

variable (s : StorageWrapper n Src)

/-- `_markgot`, when the check at the start found `data` in the place of the piece. -/
def markgot (i : Fin n) (data : Bytes) : StorageWrapper n Src :=
  let length := info.pieceLen i
  { s with
    content := Function.update s.content i data
    has := Function.update s.has i true
    amountObtained := s.amountObtained + length
    amountLeft := s.amountLeft - length
    amountInactive := s.amountInactive - length
    inactiveRequests := Function.update s.inactiveRequests i .done
    waschecked := Function.update s.waschecked i info.checkHashes }

def makeInactive (i : Fin n) : StorageWrapper n Src :=
  { s with inactiveRequests := Function.update s.inactiveRequests i (.chunks (info.cut i)) }

def isEndgame : Bool := s.amountInactive == 0

def amIComplete : Bool := s.amountObtained == s.amountDesired

def doIHaveRequests (i : Fin n) : Bool :=
  match s.inactiveRequests i with
  | .untouched => true
  | .chunks l => !l.isEmpty
  | .done => false

def handOut (i : Fin n) (r : Nat × Nat) (rs : List (Nat × Nat)) : StorageWrapper n Src :=
  { s with
    numactive := Function.update s.numactive i (s.numactive i + 1)
    statActive := Function.update s.statActive i true
    inactiveRequests := Function.update s.inactiveRequests i (.chunks rs)
    amountInactive := s.amountInactive - r.2 }

/-- `new_request` after the piece was cut. -/
def popRequest (i : Fin n) : PyExcept ((Nat × Nat) × StorageWrapper n Src) :=
  match s.inactiveRequests i with
  | .chunks (r :: rs) => .ok (r, handOut s i r rs)
  | .chunks [] => .error .indexError
  | .untouched => .error .attributeError
  | .done => .error .attributeError

def newRequest (i : Fin n) : PyExcept ((Nat × Nat) × StorageWrapper n Src) :=
  popRequest (if s.inactiveRequests i = .untouched then makeInactive info s i else s) i

def lessActive (i : Fin n) : StorageWrapper n Src :=
  { s with
    numactive := Function.update s.numactive i (s.numactive i - 1)
    statActive := Function.update s.statActive i (s.statActive i && decide (s.numactive i - 1 ≠ 0)) }

/-- `numactive[index] -= 1`, and `del stat_active[index]` with the last one. -/
def dropActive (i : Fin n) : PyExcept (StorageWrapper n Src) :=
  if s.numactive i - 1 = 0 ∧ s.statActive i = false then .error .keyError else .ok (lessActive s i)

def takeBack (i : Fin n) (r : Nat × Nat) (l : List (Nat × Nat)) : StorageWrapper n Src :=
  { s with
    inactiveRequests := Function.update s.inactiveRequests i (.chunks (Bisect.insort Bisect.pairLt l r))
    amountInactive := s.amountInactive + r.2 }

def requestLost (i : Fin n) (begin length : Nat) : PyExcept (StorageWrapper n Src) :=
  match s.inactiveRequests i with
  | .chunks l =>
    if l.contains (begin, length) then .error assertion
    else dropActive (takeBack s i (begin, length) l) i
  | .untouched => .error .typeError
  | .done => .error .typeError

/-- `reset_endgame` -/
def resetEndgame : List (Fin n × Nat × Nat) → StorageWrapper n Src → PyExcept (StorageWrapper n Src)
  | [], s => .ok s
  | r :: rest, s => do
    let t ← requestLost s r.1 r.2.1 r.2.2
    resetEndgame rest t

/-- Who sent the bytes that the new chunk is not equal to, while a piece is fetched again. -/
def suspect [DecidableEq Src] (i : Fin n) (begin : Nat) (piece : Bytes) : StorageWrapper n Src :=
  match s.failedPieces i with
  | none => s
  | some senders =>
    if slice (s.content i) begin piece.length = piece then s
    else
      let sender := ((s.downloadHistory i).bind fun h => h.lookup begin).join
      { s with failedPieces := Function.update s.failedPieces i (some (senders.insert sender)) }

/-- The bookkeeping for a chunk that came. -/
def record (i : Fin n) (begin : Nat) (piece : Bytes) (source : Option Src) : StorageWrapper n Src :=
  { s with
    downloadHistory := Function.update s.downloadHistory i (some (((s.downloadHistory i).getD ∅).insert begin source))
    content := Function.update s.content i (patch (s.content i) begin piece)
    amountObtained := s.amountObtained + piece.length
    dirty := Function.update s.dirty i (some ((s.dirty i).getD [] ++ [(begin, piece.length)])) }

/-- `self.download_history[index].values()` -/
def sources (i : Fin n) : List (Option Src) := ((s.downloadHistory i).map fun h => h.entries.map Sigma.snd).getD []

/-- The piece does not have its hash: it is to be fetched again, and a single sender is to blame. -/
def flunk [DecidableEq Src] (i : Fin n) : Arrival n Src :=
  let length := info.pieceLen i
  let t := { s with
    amountObtained := s.amountObtained - length
    inactiveRequests := Function.update s.inactiveRequests i .untouched
    amountInactive := s.amountInactive + length
    failedPieces := Function.update s.failedPieces i (some []) }
  match (sources s i).dedup with
  | [culprit] =>
    { kept := false
      storage := { t with failedPieces := Function.update s.failedPieces i none }
      events := .dataFlunked length i :: culprit.toList.map fun d => .failed d i true }
  | _ => { kept := false, storage := t, events := [.dataFlunked length i] }

/-- The piece has its hash. -/
def pass (i : Fin n) : Arrival n Src :=
  let amountLeft := s.amountLeft - info.pieceLen i
  { kept := true
    storage := { s with
      has := Function.update s.has i true
      inactiveRequests := Function.update s.inactiveRequests i .done
      waschecked := Function.update s.waschecked i true
      amountLeft := amountLeft
      downloadHistory := Function.update s.downloadHistory i none
      failedPieces := Function.update s.failedPieces i none }
    events := (sources s i).reduceOption.map (fun d => .good d i) ++
      (((s.failedPieces i).getD []).reduceOption.map fun d => .failed d i false) ++
      if amountLeft = 0 then [.finished] else [] }

/-- What is left of `piece_came_in` once the chunk is recorded. -/
def arrived [DecidableEq Src] (i : Fin n) : Arrival n Src :=
  if doIHaveRequests s i || s.numactive i != 0 then ⟨true, s, []⟩
  else
    let t := { s with dirty := Function.update s.dirty i none }
    if info.sha (t.content i) = info.hashes i then pass info t i else flunk info t i

def pieceCameIn [DecidableEq Src] (i : Fin n) (begin : Nat) (piece : Bytes) (source : Option Src) :
    PyExcept (Arrival n Src) :=
  if s.has i then .error assertion
  else
    let t := record (suspect s i begin piece) i begin piece source
    if t.numactive i - 1 < 0 then .error assertion
    else do
      let t ← dropActive t i
      return arrived info t i

/-- What (un)blocking a piece does to the amounts, `sign` is -1 for blocking. -/
def shiftAmounts (sign : Int) (i : Fin n) : PyExcept (StorageWrapper n Src) :=
  let length := info.pieceLen i
  let t := { s with amountDesired := s.amountDesired + sign * length }
  if s.has i then .ok { t with amountObtained := s.amountObtained + sign * length }
  else
    match s.inactiveRequests i with
    | .untouched => .ok { t with amountInactive := s.amountInactive + sign * length }
    | .chunks l =>
      let inactive := (l.map Prod.snd).sum
      .ok { t with
        amountInactive := s.amountInactive + sign * inactive
        amountObtained := s.amountObtained + sign * (length - inactive) }
    | .done => .error .typeError

def reblockEach (newBlocked : Fin n → Bool) : List (Fin n) → StorageWrapper n Src → PyExcept (StorageWrapper n Src)
  | [], s => .ok s
  | i :: rest, s => do
    let t ←
      if newBlocked i && !s.blocked i then shiftAmounts info s (-1) i
      else if s.blocked i && !newBlocked i then shiftAmounts info s 1 i
      else pure s
    reblockEach newBlocked rest t

def reblock (newBlocked : Fin n → Bool) : PyExcept (StorageWrapper n Src) := do
  let t ← reblockEach info newBlocked (List.finRange n) s
  return { t with blocked := newBlocked }

/-- What `get_piece` hands to an uploader; no length is -1. -/
def getPiece (i : Fin n) (begin : Nat) (length : Option Nat) :
    Option Bytes × StorageWrapper n Src × List (StorageEvent n Src) :=
  if !s.has i then (none, s, [])
  else if !s.waschecked i && info.sha (s.content i) != info.hashes i then
    (none, s, [.failure "told file complete on start-up, but piece failed hash check"])
  else
    let t := { s with waschecked := Function.update s.waschecked i true }
    match length with
    | none =>
      if info.pieceLen i < begin then (none, t, [])
      else (some (slice (s.content i) begin (info.pieceLen i - begin)), t, [])
    | some length =>
      if info.pieceLen i < begin + length then (none, t, [])
      else (some (slice (s.content i) begin length), t, [])

end StorageWrapper

end BitBlinder
