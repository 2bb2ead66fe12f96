import BitBlinder.PyList
import BitBlinder.Rows
import Mathlib.Data.Fintype.Card

/-!
# `BT1/PiecePicker.py`

Which piece to ask a peer for next. `interests` lists the pieces by the number of peers that
have them and by their priority, and `levelInInterests` and `posInInterests` record where each
one stands. Pieces are numbers below the number of pieces, random choices are arguments. Super
seeding is not here, nothing switches it on, nor is the cached number of copies.
-/

namespace BitBlinder

set_option autoImplicit false

structure PiecePicker (n : Nat) where
  rarestFirstCutoff : Nat
  rarestFirstPriorityCutoff : Int
  priorityStep : Nat
  cutoff : Int
  started : List (Fin n)
  totalcount : Int
  numhaves : Fin n → Int
  priority : Fin n → Int
  removedPartials : Fin n → Bool
  has : Fin n → Bool
  numgot : Nat
  done : Bool
  seedsConnected : Int
  interests : List (List (Fin n))
  levelInInterests : Fin n → Int
  posInInterests : Fin n → Nat

namespace PiecePicker
variable {n : Nat}

open Rows (swapOut swapIn toEnd renumber)

def assertion : PyError := .assertionError ""

/-- A new picker, `shuffled` are the pieces in random order. -/
def new (rarestFirstCutoff rarestFirstPriorityCutoff priorityStep : Nat)
    (shuffled : List (Fin n)) : PiecePicker n where
  rarestFirstCutoff := rarestFirstCutoff
  rarestFirstPriorityCutoff := rarestFirstPriorityCutoff + priorityStep
  priorityStep := priorityStep
  cutoff := rarestFirstPriorityCutoff
  started := []
  totalcount := 0
  numhaves := fun _ => 0
  priority := fun _ => 1
  removedPartials := fun _ => false
  has := fun _ => false
  numgot := 0
  done := false
  seedsConnected := 0
  interests := List.replicate priorityStep [] ++ [shuffled]
  levelInInterests := fun _ => priorityStep
  posInInterests := renumber shuffled 0 fun _ => 0

variable (s : PiecePicker n)

/-- The row that `self.interests[level]` is. -/
def rowAt (level : Int) : PyExcept Nat :=
  match PyList.place s.interests.length level with
  | some t => .ok t
  | none => .error .indexError

/-- `assert l[p] == piece`, and the last entry of the row takes the place of the piece. -/
def takeOut (piece : Fin n) (t : Nat) : PyExcept (PiecePicker n) :=
  let l := s.interests.getD t []
  let p := s.posInInterests piece
  match l[p]?, l.getLast? with
  | some found, some q =>
    if found ≠ piece then .error assertion
    else .ok { s with
      interests := s.interests.set t (swapOut l p q)
      posInInterests := Function.update s.posInInterests q p }
  | _, _ => .error .indexError

/-- The piece goes to `newp` of the row, what stands there goes to the end. -/
def putIn (piece : Fin n) (t newp : Nat) : PyExcept (PiecePicker n) :=
  let l := s.interests.getD t []
  if newp = l.length then
    .ok { s with
      interests := s.interests.set t (l ++ [piece])
      posInInterests := Function.update s.posInInterests piece l.length }
  else
    match l[newp]? with
    | some old =>
      .ok { s with
        interests := s.interests.set t (swapIn l newp old piece)
        posInInterests := Function.update (Function.update s.posInInterests old l.length) piece newp }
    | none => .error .indexError

/-- `_shift_over(piece, self.interests[level], self.interests[newlevel])`. -/
def shiftOver (piece : Fin n) (level newlevel : Int) : PyExcept (PiecePicker n) := do
  let l1 ← rowAt s level
  let l2 ← rowAt s newlevel
  if s.has piece = true ∨ s.priority piece < 0 then throw assertion
  let t ← takeOut s piece l1
  let newp := (piece.val * 13 * (t.interests.getD l1 []).length) % ((t.interests.getD l2 []).length + 1)
  putIn t piece l2 newp

/-- The counts of a piece after `d` more peers have it. -/
def count (piece : Fin n) (d : Int) : PiecePicker n :=
  { s with
    totalcount := s.totalcount + d
    numhaves := Function.update s.numhaves piece (s.numhaves piece + d)
    levelInInterests :=
      if s.done then s.levelInInterests
      else Function.update s.levelInInterests piece (s.levelInInterests piece + d) }

def gotHave (piece : Fin n) : PyExcept (PiecePicker n) :=
  let numint := if s.done then s.numhaves piece else s.levelInInterests piece
  let t := count s piece 1
  if s.has piece = true ∨ s.priority piece = -1 then .ok t
  else
    let t := if numint = t.interests.length - 1 then { t with interests := t.interests ++ [[]] } else t
    shiftOver t piece numint (numint + 1)

def lostHave (piece : Fin n) : PyExcept (PiecePicker n) :=
  let numint := if s.done then s.numhaves piece else s.levelInInterests piece
  let t := count s piece (-1)
  if s.has piece = true ∨ s.priority piece = -1 then .ok t
  else shiftOver t piece numint (numint - 1)

def gotSeed : PiecePicker n :=
  { s with
    seedsConnected := s.seedsConnected + 1
    cutoff := max (s.rarestFirstPriorityCutoff - (s.seedsConnected + 1)) 0 }

def becameSeed : PiecePicker n :=
  let t := gotSeed s
  { t with
    totalcount := t.totalcount - n
    numhaves := fun i => t.numhaves i - 1
    levelInInterests := if t.done then t.levelInInterests else fun i => t.levelInInterests i - 1
    interests := if t.done then t.interests else t.interests.tail }

def lostSeed : PiecePicker n :=
  { s with
    seedsConnected := s.seedsConnected - 1
    cutoff := max (s.rarestFirstPriorityCutoff - (s.seedsConnected - 1)) 0 }

def requested (piece : Fin n) : PiecePicker n :=
  if piece ∈ s.started then s else { s with started := s.started ++ [piece] }

def removeFromInterests (piece : Fin n) (keepPartial : Bool) : PyExcept (PiecePicker n) := do
  let l ← rowAt s (s.levelInInterests piece)
  let t ← takeOut s piece l
  if piece ∈ t.started then
    return { t with
      started := t.started.erase piece
      removedPartials := if keepPartial then Function.update t.removedPartials piece true else t.removedPartials }
  return t

def complete (piece : Fin n) : PyExcept (PiecePicker n) :=
  if s.has piece = true then .error assertion
  else
    removeFromInterests
      { s with
        has := Function.update s.has piece true
        numgot := s.numgot + 1
        done := s.done || s.numgot + 1 == n }
      piece false

/-- The started piece of the lowest level, below `bestnum`, that the peer has and we want. -/
def bestStarted (haves : Fin n → Bool) (wantfunc : Fin n → Bool) :
    List (Fin n) → Option (Fin n) → Int → Option (Fin n) × Int
  | [], best, bestnum => (best, bestnum)
  | i :: started, best, bestnum =>
    if haves i && wantfunc i && decide (s.levelInInterests i < bestnum) then
      bestStarted haves wantfunc started (some i) (s.levelInInterests i)
    else bestStarted haves wantfunc started best bestnum

/-- The first piece of the rows from `lo` on and before `hi` that the peer has and we want. -/
def firstWanted (haves : Fin n → Bool) (wantfunc : Fin n → Bool) (lo hi : Int) : Option (Fin n) :=
  ((s.interests.take hi.toNat).drop lo.toNat).flatten.find? fun j => haves j && wantfunc j

def next (haves : Fin n → Bool) (complete : Bool) (wantfunc : Fin n → Bool) (completeFirst : Bool) :
    Option (Fin n) :=
  let early := decide (s.numgot < s.rarestFirstCutoff)
  let completeFirst := (completeFirst || early) && !complete
  let best := bestStarted s haves wantfunc s.started none (2 ^ 30)
  let len : Int := s.interests.length
  if best.1.isSome && (completeFirst || (early && decide (len > s.cutoff))) then best.1
  else
    let found :=
      if complete then firstWanted s haves wantfunc 0 (min best.2 len)
      else if early && decide (len > s.cutoff) then
        (firstWanted s haves wantfunc s.cutoff (min best.2 len)).or (firstWanted s haves wantfunc 0 s.cutoff)
      else firstWanted s haves wantfunc 0 (min best.2 len)
    found.or best.1

def bump (piece : Fin n) : PyExcept (PiecePicker n) := do
  let t ← rowAt s (s.levelInInterests piece)
  let l := s.interests.getD t []
  let pos := s.posInInterests piece
  if l.length ≤ pos then throw .indexError
  let l := toEnd l pos piece
  return { s with
    interests := s.interests.set t l
    posInInterests := renumber (l.drop pos) pos s.posInInterests
    started := s.started.erase piece }

/-- Rows are added until there is a row `level`. -/
def withRow (level : Int) : PiecePicker n :=
  { s with interests := s.interests ++ List.replicate (level + 1 - s.interests.length).toNat [] }

/-- `self.priority[piece] = p; self.level_in_interests[piece] = level`. -/
def leveled (piece : Fin n) (p level : Int) : PiecePicker n :=
  { s with
    priority := Function.update s.priority piece p
    levelInInterests := Function.update s.levelInInterests piece level }

/-- `set_priority`, with the random number that `randrange` is asked for. -/
def setPriority (random : Nat) (piece : Fin n) (p : Int) : PyExcept (Bool × PiecePicker n) := do
  let oldp := s.priority piece
  if oldp = p then return (false, s)
  let t := { s with priority := Function.update s.priority piece p }
  if p = -1 then
    if s.has piece = true then return (true, t)
    let t ← removeFromInterests t piece true
    return (true, t)
  if oldp = -1 then
    let level := s.numhaves piece + s.priorityStep * p
    let t := leveled s piece p level
    if s.has piece = true then return (true, t)
    let t := withRow t level
    let l2 ← rowAt t level
    let t ← putIn t piece l2 (random % ((t.interests.getD l2 []).length + 1))
    if t.removedPartials piece = true then
      return (true, { t with
        removedPartials := Function.update t.removedPartials piece false
        started := t.started ++ [piece] })
    return (true, t)
  let numint := s.levelInInterests piece
  let newint := numint + (p - oldp) * s.priorityStep
  let t := leveled s piece p newint
  if s.has piece = true then return (false, t)
  let t ← shiftOver (withRow t newint) piece numint newint
  return (false, t)

def isBlocked (piece : Fin n) : Bool := decide (s.priority piece < 0)

end PiecePicker

end BitBlinder
