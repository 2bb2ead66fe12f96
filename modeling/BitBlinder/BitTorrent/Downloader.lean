import BitBlinder.BitTorrent.StorageWrapper
import BitBlinder.Runs

/-!
# The requests of `BT1/Downloader.py`

What every connection has asked for, the end game, and what the messages of a peer, the end of
a connection and a pause do to the requests. A peer is known by the number of its connection,
which also stands for its `guard`; `peers` are the objects, `downloads` the list of those that
are connected. What the picker answers, the rates and the shuffles come from `choices`; an answer
of the picker counts if it names a piece that `next` may name. Changes of the file priorities and
what is sent are not here.
-/

namespace BitBlinder

set_option autoImplicit false

open Struct (Bytes)

structure DownloadPeer (n : Nat) where
  gotAnything : Bool
  choked : Bool
  interested : Bool
  active : List (Fin n × Nat × Nat)
  haves : Fin n → Bool
  exampleInterest : Option (Fin n)
  backlog : Nat

structure Choices (n : Nat) where
  picks : List (Fin n)
  rates : List Nat
  orders : List (List Nat)

structure Downloader (n : Nat) where
  storage : StorageWrapper n Nat
  peers : Nat → DownloadPeer n
  downloads : List Nat
  made : Nat
  endgamemode : Bool
  allRequests : List (Fin n × Nat × Nat)
  paused : Bool
  events : List (StorageEvent n Nat)
  choices : Choices n

/-- `random.shuffle`, `order` are the places that the items come from. -/
def shuffled {α : Type} [DecidableEq α] (l : List α) (order : List Nat) : List α :=
  let m := order.filterMap fun k => l[k]?
  if m.Perm l then m else l

namespace DownloadPeer
variable {n : Nat}

def new (n : Nat) : DownloadPeer n where
  gotAnything := false
  choked := true
  interested := false
  active := []
  haves := fun _ => false
  exampleInterest := none
  backlog := 8

def complete (d : DownloadPeer n) : Bool := (List.finRange n).all d.haves

end DownloadPeer

namespace Downloader
variable {n : Nat} (info : TorrentInfo n) (s : Downloader n)

def assertion : PyError := .assertionError ""

def new (storage : StorageWrapper n Nat) : Downloader n where
  storage := storage
  peers := fun _ => .new n
  downloads := []
  made := 0
  endgamemode := false
  allRequests := []
  paused := false
  events := []
  choices := ⟨[], [], []⟩

def setPeer (j : Nat) (d : DownloadPeer n) : Downloader n := { s with peers := Function.update s.peers j d }

def sendInterested (j : Nat) : Downloader n := setPeer s j { s.peers j with interested := true }

def sendNotInterested (j : Nat) : Downloader n := setPeer s j { s.peers j with interested := false }

/-- `_backlog`, the next of the rates counts the chunks that come in eight seconds. -/
def refreshBacklog (j : Nat) : Downloader n :=
  setPeer { s with choices := { s.choices with rates := s.choices.rates.tail } } j
    { s.peers j with backlog := 4 + s.choices.rates.headD 0 }

def shuffleOf {α : Type} [DecidableEq α] (l : List α) : List α := shuffled l (s.choices.orders.headD [])

def dropOrder : Downloader n := { s with choices := { s.choices with orders := s.choices.orders.tail } }

/-- `picker.next` for the pieces of a peer that have requests left. -/
def pickerNext (j : Nat) : Option (Fin n) :=
  s.choices.picks.head?.filter fun i =>
    (s.peers j).haves i && s.storage.doIHaveRequests i && !s.storage.blocked i

def dropPick : Downloader n := { s with choices := { s.choices with picks := s.choices.picks.tail } }

/-! ### The end game -/

/-- What a peer has of the requests of the end game and is not asked for. -/
def wantOf (j : Nat) : List (Fin n × Nat × Nat) :=
  s.allRequests.filter fun a => (s.peers j).haves a.1 && !((s.peers j).active.contains a)

def askFor (j : Nat) (want : List (Fin n × Nat × Nat)) : Downloader n :=
  let d := s.peers j
  if d.choked then s
  else
    setPeer (dropOrder s) j
      { d with active := d.active ++ (shuffleOf s want).take (d.backlog - d.active.length) }

/-- `fix_download_endgame` once the backlog is known. -/
def askAgain (j : Nat) : Downloader n :=
  if (s.peers j).backlog ≤ (s.peers j).active.length then s
  else if (s.peers j).active.isEmpty && (wantOf s j).isEmpty then sendNotInterested s j
  else askFor (if (wantOf s j).isEmpty then s else sendInterested s j) j (wantOf s j)

def fixDownloadEndgame (j : Nat) : Downloader n :=
  if s.paused then s else askAgain (refreshBacklog s j) j

def fixEach (l : List Nat) (s : Downloader n) : Downloader n := l.foldl fixDownloadEndgame s

/-- The requests of one peer join those of the end game. -/
def addRequests : List (Fin n × Nat × Nat) → List (Fin n × Nat × Nat) → PyExcept (List (Fin n × Nat × Nat))
  | [], all => .ok all
  | r :: rest, all => if r ∈ all then .error assertion else addRequests rest (all ++ [r])

def collect (peers : Nat → DownloadPeer n) :
    List Nat → List (Fin n × Nat × Nat) → PyExcept (List (Fin n × Nat × Nat))
  | [], all => .ok all
  | j :: rest, all =>
    if (peers j).active ≠ [] ∧ ¬((peers j).interested = true ∧ (peers j).choked = false) then .error assertion
    else do
      let all ← addRequests (peers j).active all
      collect peers rest all

def startEndgame : PyExcept (Downloader n) :=
  if s.endgamemode then .error assertion
  else if s.allRequests ≠ [] then .error assertion
  else do
    let all ← collect s.peers s.downloads []
    let t := { s with endgamemode := true, allRequests := all }
    return fixEach t.downloads t

/-- `_reset_endgame` -/
def resetEndgame : PyExcept (Downloader n) := do
  let storage ← StorageWrapper.resetEndgame s.allRequests s.storage
  return { s with storage := storage, endgamemode := false, allRequests := [] }

/-! ### Asking for more -/

/-- The inner loop of `_request_more`: parts of one piece, until the backlog is reached or no
part is left; the answer is whether none is left. -/
def takeParts (j : Nat) (i : Fin n) : Nat → Downloader n → PyExcept (Bool × Downloader n)
  | 0, s => .ok (false, s)
  | fuel + 1, s =>
    if (s.peers j).backlog ≤ (s.peers j).active.length then .ok (false, s)
    else do
      let p ← s.storage.newRequest info i
      let t := setPeer { s with storage := p.2 } j { s.peers j with active := (s.peers j).active ++ [(i, p.1)] }
      if t.storage.doIHaveRequests i then takeParts j i fuel t else return (true, t)

/-- The outer loop, over the pieces that the picker names; `lost` are those with no part left. -/
def takePieces (j : Nat) : Nat → List (Fin n) → Downloader n → PyExcept (List (Fin n) × Downloader n)
  | 0, lost, s => .ok (lost, s)
  | fuel + 1, lost, s =>
    if (s.peers j).backlog ≤ (s.peers j).active.length then .ok (lost, s)
    else
      match pickerNext s j with
      | none => .ok (lost, dropPick s)
      | some i => do
        let t := dropPick s
        let t := setPeer t j { t.peers j with exampleInterest := some i, interested := true }
        let p ← takeParts info j i (t.peers j).backlog t
        takePieces j fuel (if p.1 then lost ++ [i] else lost) p.2

/-- Peers that had nothing but pieces that are now asked for lose our interest. -/
def loseInterest (lost : List (Fin n)) (s : Downloader n) (k : Nat) : Downloader n :=
  let d := s.peers k
  if d.active ≠ [] ∨ d.interested = false then s
  else if d.exampleInterest.any s.storage.doIHaveRequests then s
  else if !lost.any d.haves then s
  else
    match pickerNext s k with
    | none => sendNotInterested (dropPick s) k
    | some i => setPeer (dropPick s) k { d with exampleInterest := some i }

def requestMore (j : Nat) : PyExcept (Downloader n) :=
  if (s.peers j).choked then .error assertion
  else if s.endgamemode then .ok (fixDownloadEndgame s j)
  else if s.paused then .ok s
  else
    let s := refreshBacklog s j
    if (s.peers j).backlog ≤ (s.peers j).active.length then .ok s
    else do
      let p ← takePieces info j (s.peers j).backlog [] s
      let t := if (p.2.peers j).active.isEmpty then sendNotInterested p.2 j else p.2
      let t := if p.1.isEmpty then t else t.downloads.foldl (loseInterest p.1) t
      if t.storage.isEndgame then startEndgame t else return t

def requestEach : List Nat → Downloader n → PyExcept (Downloader n)
  | [], s => .ok s
  | j :: rest, s => do
    let t ← requestMore info s j
    requestEach rest t

/-! ### Giving up -/

/-- A choked peer that has one of the lost pieces is interesting again. -/
def interestIn (lost : List (Fin n)) (s : Downloader n) (k : Nat) : Downloader n :=
  let d := s.peers k
  if d.choked && !d.interested && lost.any fun l => d.haves l && s.storage.doIHaveRequests l then sendInterested s k
  else s

/-- `_letgo` after the requests are lost. -/
def offerAgain (lost : List (Fin n)) : PyExcept (Downloader n) :=
  if s.paused then .ok s
  else do
    let ds := shuffleOf s (s.downloads.filter fun k => !(s.peers k).choked)
    let t ← requestEach info ds (dropOrder s)
    return t.downloads.foldl (interestIn lost) t

def letgo (j : Nat) : PyExcept (Downloader n) :=
  let d := s.peers j
  if d.active.isEmpty then .ok s
  else
    let t := setPeer s j { d with active := [] }
    if s.endgamemode then .ok t
    else do
      let storage ← StorageWrapper.resetEndgame d.active s.storage
      offerAgain info { t with storage := storage } (d.active.map Prod.fst)

def removePeer (j : Nat) : Downloader n := { s with downloads := s.downloads.erase j }

def lostPeer (j : Nat) : PyExcept (Downloader n) :=
  if s.endgamemode && (removePeer s j).downloads.isEmpty then resetEndgame (removePeer s j) else .ok (removePeer s j)

/-- `DownloadPeer.disconnected` -/
def disconnected (j : Nat) : PyExcept (Downloader n) := do
  let t ← lostPeer s j
  letgo info t j

def gotChoke (j : Nat) : PyExcept (Downloader n) :=
  if (s.peers j).choked then .ok s else letgo info (setPeer s j { s.peers j with choked := true }) j

def gotUnchoke (j : Nat) : PyExcept (Downloader n) :=
  if (s.peers j).choked then
    let t := setPeer s j { s.peers j with choked := false }
    if (t.peers j).interested then requestMore info t j else .ok t
  else .ok s

/-- `is_snubbed` of a peer that sent nothing for too long. -/
def snubbed (j : Nat) : PyExcept (Downloader n) :=
  if (s.peers j).interested && !(s.peers j).choked then gotChoke info s j else .ok s

/-! ### What a peer has -/

def checkInterests (j : Nat) : Downloader n :=
  let d := s.peers j
  if d.interested || s.paused then s
  else if (List.finRange n).any fun i =>
      d.haves i && !s.storage.blocked i && (s.endgamemode || s.storage.doIHaveRequests i) then sendInterested s j
  else s

def gotHave (j : Nat) (i : Fin n) : PyExcept (Downloader n) :=
  if (s.peers j).haves i then .ok s
  else
    let t := setPeer s j { s.peers j with haves := Function.update (s.peers j).haves i true }
    if (t.peers j).complete then .ok t
    else if t.endgamemode then .ok (fixDownloadEndgame t j)
    else if !t.paused && !t.storage.blocked i && t.storage.doIHaveRequests i then
      if (t.peers j).choked then .ok (sendInterested t j) else requestMore info t j
    else .ok t

/-- `got_have_bitfield`, which the connecter calls for the first message of a peer only. -/
def gotHaveBitfield (j : Nat) (haves : Fin n → Bool) : Downloader n :=
  let t := setPeer s j { s.peers j with haves := haves }
  if s.storage.amIComplete && (t.peers j).complete then s
  else if t.endgamemode && !t.paused then
    if t.allRequests.any fun r => haves r.1 then sendInterested t j else t
  else checkInterests t j

/-! ### A part that comes -/

/-- The end game asks for all of a piece again. -/
def askAll (i : Fin n) : Nat → Downloader n → PyExcept (Downloader n)
  | 0, s => .ok s
  | fuel + 1, s =>
    if s.storage.doIHaveRequests i then do
      let p ← s.storage.newRequest info i
      askAll i fuel { s with storage := p.2, allRequests := s.allRequests ++ [(i, p.1)] }
    else .ok s

def interestAgain (i : Fin n) (s : Downloader n) (k : Nat) : Downloader n :=
  if !(s.peers k).interested && (s.peers k).haves i then
    setPeer s k { s.peers k with exampleInterest := some i, interested := true }
  else s

/-- `piece_flunked`; a piece has no more parts than bytes. -/
def pieceFlunked (i : Fin n) : PyExcept (Downloader n) :=
  if s.paused then .ok s
  else if s.endgamemode then
    if s.downloads.isEmpty then resetEndgame s
    else do
      let t ← askAll info i (info.pieceLen i + 1) s
      return fixEach t.downloads t
  else do
    let ds := shuffleOf s (s.downloads.filter fun k => !(s.peers k).choked)
    let t ← requestEach info ds (dropOrder s)
    return t.downloads.foldl (interestAgain i) t

/-- The other peers need not send the part any more. -/
def cancelOthers (j : Nat) (r : Fin n × Nat × Nat) : List Nat → Downloader n → PyExcept (Downloader n)
  | [], s => .ok s
  | k :: rest, s =>
    let d := s.peers k
    if k = j then cancelOthers j r rest s
    else if d.interested then
      if d.choked then
        if d.active ≠ [] then .error assertion else cancelOthers j r rest (fixDownloadEndgame s k)
      else if r ∈ d.active then
        cancelOthers j r rest (fixDownloadEndgame (setPeer s k { d with active := d.active.erase r }) k)
      else cancelOthers j r rest s
    else if d.active ≠ [] then .error assertion
    else cancelOthers j r rest s

def checkComplete : PyExcept (Downloader n) :=
  let t := if s.endgamemode && s.allRequests.isEmpty then { s with endgamemode := false } else s
  if t.storage.amIComplete then
    if t.allRequests ≠ [] then .error assertion
    else if t.endgamemode then .error assertion
    else .ok t
  else .ok t

/-- The request is not out any more. -/
def strike (j : Nat) (r : Fin n × Nat × Nat) : Downloader n :=
  let t := setPeer s j { s.peers j with active := (s.peers j).active.erase r }
  if s.endgamemode then { t with allRequests := s.allRequests.erase r } else t

def cancelInEndgame (j : Nat) (r : Fin n × Nat × Nat) : PyExcept (Downloader n) :=
  if s.endgamemode then cancelOthers j r s.downloads s else .ok s

/-- `got_piece` after `piece_came_in`. -/
def pieceHandled (j : Nat) (r : Fin n × Nat × Nat) (a : Arrival n Nat) : PyExcept (Downloader n) :=
  let t := { s with storage := a.storage, events := s.events ++ a.events }
  if a.kept then do
    let t ← cancelInEndgame t j r
    let t ← requestMore info t j
    checkComplete t
  else pieceFlunked info t r.1

def gotPiece (j : Nat) (i : Fin n) (begin : Nat) (piece : Bytes) : PyExcept (Downloader n) :=
  let r := (i, begin, piece.length)
  if r ∉ (s.peers j).active then .ok s
  else if s.endgamemode = true ∧ r ∉ s.allRequests then .error (.valueError "list.remove(x): x not in list")
  else do
    let a ← (strike s j r).storage.pieceCameIn info i begin piece (some j)
    pieceHandled info (strike s j r) j r a

/-! ### The torrent -/

def pauseEach : List Nat → Downloader n → PyExcept (Downloader n)
  | [], s => .ok s
  | j :: rest, s => do
    let t ← letgo info s j
    pauseEach rest (sendNotInterested t j)

def resumeEach : List Nat → Downloader n → PyExcept (Downloader n)
  | [], s => .ok s
  | j :: rest, s => do
    let t := checkInterests s j
    let t ← if (t.peers j).interested && !(t.peers j).choked then requestMore info t j else pure t
    resumeEach rest t

def pause (flag : Bool) : PyExcept (Downloader n) :=
  let t := { s with paused := flag }
  if flag then do
    let t ← pauseEach info t.downloads t
    if t.endgamemode then resetEndgame t else return t
  else
    let t := dropOrder { t with downloads := shuffleOf t t.downloads }
    resumeEach info t.downloads t

/-- `make_download` -/
def makeDownload : Downloader n :=
  setPeer { s with downloads := s.downloads ++ [s.made], made := s.made + 1 } s.made (.new n)

inductive Event (n : Nat) where
  | connected
  | choke (j : Nat)
  | unchoke (j : Nat)
  | haveMessage (j : Nat) (i : Fin n)
  | bitfield (j : Nat) (haves : Fin n → Bool)
  | piece (j : Nat) (i : Fin n) (begin : Nat) (data : Bytes)
  | snubbed (j : Nat)
  | disconnected (j : Nat)
  | pause (flag : Bool)
  | upload (i : Fin n) (begin : Nat) (length : Option Nat)

def gotMessage (j : Nat) : Downloader n := setPeer s j { s.peers j with gotAnything := true }

def handle : Event n → PyExcept (Downloader n)
  | .connected => .ok (makeDownload s)
  | .choke j => gotChoke info (gotMessage s j) j
  | .unchoke j => gotUnchoke info (gotMessage s j) j
  | .haveMessage j i => gotHave info (gotMessage s j) j i
  | .bitfield j haves => .ok (if (s.peers j).gotAnything then s else gotHaveBitfield (gotMessage s j) j haves)
  | .piece j i begin data => gotPiece info (gotMessage s j) j i begin data
  | .snubbed j => snubbed info s j
  | .disconnected j => disconnected info s j
  | .pause flag => pause info s flag
  | .upload i begin length =>
    .ok { s with
      storage := (s.storage.getPiece info i begin length).2.1
      events := s.events ++ (s.storage.getPiece info i begin length).2.2 }

/-- The events of a connection come while it is there. -/
def Present : Event n → Prop
  | .connected => True
  | .choke j => j ∈ s.downloads
  | .unchoke j => j ∈ s.downloads
  | .haveMessage j _ => j ∈ s.downloads
  | .bitfield j _ => j ∈ s.downloads
  | .piece j _ _ _ => j ∈ s.downloads
  | .snubbed j => j ∈ s.downloads
  | .disconnected j => j ∈ s.downloads
  | .pause _ => True
  | .upload _ _ _ => True

/-- An event, with the choices that are made while it is handled. -/
def step (s : Downloader n) (e : Choices n × Event n) : Option (Downloader n) :=
  (handle info { s with choices := e.1 } e.2).toOption

end Downloader

end BitBlinder
