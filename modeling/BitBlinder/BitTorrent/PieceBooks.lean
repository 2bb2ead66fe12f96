import BitBlinder.BitTorrent.StorageWrapper
import BitBlinder.PyList
import BitBlinder.Shares
import BitBlinder.Totals
import Mathlib.Algebra.Order.BigOperators.Group.Finset
import Mathlib.Algebra.Order.BigOperators.Group.List

/-!
# The books of the storage

`Books` says of each piece that its free requests, those that are out and the ranges that have
come tile it, and that the amounts are the sums over the pieces that are wanted. `out` are the
requests that the connections hold. Every call for a request that is out keeps the books.
-/

namespace BitBlinder

set_option autoImplicit false

open Struct (Bytes)
open Tiling (parts slice patch Tiles)
open Shares (Shared)
open Bisect (insort pairLt Sorted)

/-- A piece, a position in it and a length. -/
abbrev Request (n : Nat) := Fin n × Nat × Nat

namespace StorageWrapper
variable {n : Nat} {Src : Type}

/-- The ranges of a piece that are asked for. -/
def requestsOf (out : List (Request n)) (i : Fin n) : List (Nat × Nat) := (Totals.rowsOf i out).map Prod.snd

section Requests
variable {out out' : List (Request n)} {i j : Fin n} {r : Nat × Nat}

theorem requestsOf_nil (i : Fin n) : requestsOf [] i = [] := rfl

theorem requestsOf_append (out out' : List (Request n)) (i : Fin n) :
    requestsOf (out ++ out') i = requestsOf out i ++ requestsOf out' i := by
  unfold requestsOf
  rw [Totals.rowsOf_append, List.map_append]

theorem requestsOf_cons_self (i : Fin n) (r : Nat × Nat) (out : List (Request n)) :
    requestsOf ((i, r) :: out) i = r :: requestsOf out i := by
  have hsingle : requestsOf [(i, r)] i = [r] := congrArg (List.map Prod.snd) (Totals.rowsOf_singleton_self i r)
  have happend := requestsOf_append [(i, r)] out i
  rwa [hsingle] at happend

theorem requestsOf_cons_of_ne (h : j ≠ i) (r : Nat × Nat) (out : List (Request n)) :
    requestsOf ((i, r) :: out) j = requestsOf out j := by
  have hsingle : requestsOf [(i, r)] j = [] := congrArg (List.map Prod.snd) (Totals.rowsOf_singleton_of_ne h.symm r)
  have happend := requestsOf_append [(i, r)] out j
  rwa [hsingle] at happend

theorem requestsOf_perm (h : out.Perm out') (i : Fin n) : (requestsOf out i).Perm (requestsOf out' i) :=
  (h.filter _).map _

theorem mem_requestsOf : r ∈ requestsOf out i ↔ (i, r) ∈ out := by
  unfold requestsOf Totals.rowsOf
  rw [List.mem_map]
  constructor
  · rintro ⟨q, hq, rfl⟩
    obtain ⟨hmem, hi⟩ := List.mem_filter.mp hq
    have hi' : q.1 = i := of_decide_eq_true hi
    rw [← hi']
    exact hmem
  · intro h
    exact ⟨(i, r), List.mem_filter.mpr ⟨h, decide_eq_true rfl⟩, rfl⟩

theorem requestsOf_ne_nil (h : (i, r) ∈ out) : requestsOf out i ≠ [] := List.ne_nil_of_mem (mem_requestsOf.mpr h)

end Requests

/-- A sum after one of its terms changed. -/
theorem sum_change {f g : Fin n → Int} (i : Fin n) (h : ∀ j, j ≠ i → g j = f j) :
    ∑ j, g j = ∑ j, f j - f i + g i := by
  have hrest : ∑ j ∈ Finset.univ.erase i, g j = ∑ j ∈ Finset.univ.erase i, f j :=
    Finset.sum_congr rfl fun j hj => h j (Finset.ne_of_mem_erase hj)
  rw [← Finset.add_sum_erase Finset.univ f (Finset.mem_univ i), ← Finset.add_sum_erase Finset.univ g (Finset.mem_univ i),
    hrest, add_sub_cancel_left, add_comm]

/-! ### The books -/

section Books
variable (info : TorrentInfo n) (s : StorageWrapper n Src)

/-- The ranges of a piece: `cut` are all of them, `out` those that are asked for. -/
inductive Ranges (cut out : List (Nat × Nat)) (i : Fin n) : Prop where
  | untouched (hreq : s.inactiveRequests i = .untouched) (hhas : s.has i = false) (hout : out = [])
      (hdirty : s.dirty i = none)
  | chunks (l : List (Nat × Nat)) (hreq : s.inactiveRequests i = .chunks l) (hhas : s.has i = false)
      (htiles : Tiles 0 cut (info.pieceLen i)) (hshared : Shared cut l out ((s.dirty i).getD []))
      (hsorted : Sorted pairLt l) (hopen : l ≠ [] ∨ out ≠ [])
  | done (hreq : s.inactiveRequests i = .done) (hhas : s.has i = true) (hout : out = []) (hdirty : s.dirty i = none)

structure PieceBooks (cut out : List (Nat × Nat)) (i : Fin n) : Prop where
  ranges : Ranges info s cut out i
  numactive : s.numactive i = out.length
  statActive : out ≠ [] → s.statActive i = true
  blocked : s.blocked i = true → out = []
  content : (s.content i).length = info.pieceLen i
  checked : s.has i = true → s.waschecked i = true → info.sha (s.content i) = info.hashes i

/-- How much of a piece is free to be asked for. -/
def inactiveOf (i : Fin n) : Int :=
  match s.inactiveRequests i with
  | .untouched => info.pieceLen i
  | .chunks l => ((l.map Prod.snd).sum : Nat)
  | .done => 0

/-- How much of a piece has come. -/
def obtainedOf (i : Fin n) : Int :=
  if s.has i then info.pieceLen i else ((((s.dirty i).getD []).map Prod.snd).sum : Nat)

def missingOf (i : Fin n) : Int := if s.has i then 0 else info.pieceLen i

/-- A sum over the pieces that are wanted. -/
def wanted (f : Fin n → Int) : Int := ∑ i, if s.blocked i then 0 else f i

structure Books (cut : Fin n → List (Nat × Nat)) (out : List (Request n)) : Prop where
  piece : ∀ i, PieceBooks info s (cut i) (requestsOf out i) i
  inactive : s.amountInactive = s.wanted (s.inactiveOf info)
  obtained : s.amountObtained = s.wanted (s.obtainedOf info)
  desired : s.amountDesired = s.wanted fun i => info.pieceLen i
  left : s.amountLeft = ∑ i, s.missingOf info i

end Books

variable {info : TorrentInfo n} {s t u : StorageWrapper n Src} {cut cut' : Fin n → List (Nat × Nat)}
  {out out' : List (Request n)} {i j : Fin n} {r : Nat × Nat}

/-- The storages differ in one piece. -/
structure OnlyPiece (s t : StorageWrapper n Src) (i : Fin n) : Prop where
  blocked : t.blocked = s.blocked
  desired : t.amountDesired = s.amountDesired
  req : ∀ j, j ≠ i → t.inactiveRequests j = s.inactiveRequests j
  has : ∀ j, j ≠ i → t.has j = s.has j
  dirty : ∀ j, j ≠ i → t.dirty j = s.dirty j
  numactive : ∀ j, j ≠ i → t.numactive j = s.numactive j
  statActive : ∀ j, j ≠ i → t.statActive j = s.statActive j
  waschecked : ∀ j, j ≠ i → t.waschecked j = s.waschecked j
  content : ∀ j, j ≠ i → t.content j = s.content j
  history : ∀ j, j ≠ i → t.downloadHistory j = s.downloadHistory j
  failed : ∀ j, j ≠ i → t.failedPieces j = s.failedPieces j

namespace OnlyPiece

theorem trans (h : OnlyPiece s t i) (h' : OnlyPiece t u i) : OnlyPiece s u i where
  blocked := h'.blocked.trans h.blocked
  desired := h'.desired.trans h.desired
  req := fun j hj => (h'.req j hj).trans (h.req j hj)
  has := fun j hj => (h'.has j hj).trans (h.has j hj)
  dirty := fun j hj => (h'.dirty j hj).trans (h.dirty j hj)
  numactive := fun j hj => (h'.numactive j hj).trans (h.numactive j hj)
  statActive := fun j hj => (h'.statActive j hj).trans (h.statActive j hj)
  waschecked := fun j hj => (h'.waschecked j hj).trans (h.waschecked j hj)
  content := fun j hj => (h'.content j hj).trans (h.content j hj)
  history := fun j hj => (h'.history j hj).trans (h.history j hj)
  failed := fun j hj => (h'.failed j hj).trans (h.failed j hj)

theorem pieceBooks {c o : List (Nat × Nat)} (h : OnlyPiece s t i) (hj : j ≠ i) (hs : PieceBooks info s c o j) :
    PieceBooks info t c o j where
  ranges := by
    cases hs.ranges with
    | untouched hreq hhas hout hdirty =>
      exact .untouched ((h.req j hj).trans hreq) ((h.has j hj).trans hhas) hout ((h.dirty j hj).trans hdirty)
    | chunks l hreq hhas htiles hshared hsorted hopen =>
      refine .chunks l ((h.req j hj).trans hreq) ((h.has j hj).trans hhas) htiles ?_ hsorted hopen
      rw [h.dirty j hj]
      exact hshared
    | done hreq hhas hout hdirty =>
      exact .done ((h.req j hj).trans hreq) ((h.has j hj).trans hhas) hout ((h.dirty j hj).trans hdirty)
  numactive := (h.numactive j hj).trans hs.numactive
  statActive := fun hne => (h.statActive j hj).trans (hs.statActive hne)
  blocked := fun hb => hs.blocked (h.blocked ▸ hb)
  content := by
    rw [h.content j hj]
    exact hs.content
  checked := by
    rw [h.has j hj, h.waschecked j hj, h.content j hj]
    exact hs.checked

theorem inactiveOf_eq (h : OnlyPiece s t i) (hj : j ≠ i) : t.inactiveOf info j = s.inactiveOf info j := by
  unfold inactiveOf
  rw [h.req j hj]

theorem obtainedOf_eq (h : OnlyPiece s t i) (hj : j ≠ i) : t.obtainedOf info j = s.obtainedOf info j := by
  unfold obtainedOf
  rw [h.has j hj, h.dirty j hj]

theorem missingOf_eq (h : OnlyPiece s t i) (hj : j ≠ i) : t.missingOf info j = s.missingOf info j := by
  unfold missingOf
  rw [h.has j hj]

end OnlyPiece

theorem wanted_change {f g : Fin n → Int} (hblocked : t.blocked = s.blocked) (hi : s.blocked i = false)
    (h : ∀ j, j ≠ i → g j = f j) : t.wanted g = s.wanted f - f i + g i := by
  unfold wanted
  rw [hblocked, sum_change i fun j hj => by rw [h j hj], hi]
  rfl

theorem wanted_congr {f g : Fin n → Int} (hblocked : t.blocked = s.blocked) (h : ∀ j, g j = f j) : t.wanted g = s.wanted f := by
  unfold wanted
  rw [hblocked, funext h]

/-- The books after a change of one piece that is wanted. -/
theorem Books.change (hs : Books info s cut out) (hi : s.blocked i = false) (honly : OnlyPiece s t i)
    (hcut : ∀ j, j ≠ i → cut' j = cut j) (hout : ∀ j, j ≠ i → requestsOf out' j = requestsOf out j)
    (hpiece : PieceBooks info t (cut' i) (requestsOf out' i) i)
    (hinactive : t.amountInactive = s.amountInactive - s.inactiveOf info i + t.inactiveOf info i)
    (hobtained : t.amountObtained = s.amountObtained - s.obtainedOf info i + t.obtainedOf info i)
    (hleft : t.amountLeft = s.amountLeft - s.missingOf info i + t.missingOf info i) : Books info t cut' out' where
  piece := by
    intro j
    by_cases hj : j = i
    · exact hj ▸ hpiece
    · rw [hcut j hj, hout j hj]
      exact honly.pieceBooks hj (hs.piece j)
  inactive := by
    rw [hinactive, hs.inactive]
    exact (wanted_change honly.blocked hi fun j hj => honly.inactiveOf_eq hj).symm
  obtained := by
    rw [hobtained, hs.obtained]
    exact (wanted_change honly.blocked hi fun j hj => honly.obtainedOf_eq hj).symm
  desired := by
    rw [honly.desired, hs.desired]
    exact (wanted_congr honly.blocked fun j => rfl).symm
  left := by
    rw [hleft, hs.left]
    exact (sum_change i fun j hj => honly.missingOf_eq hj).symm

/-! ### Asking for a part -/

/-- What the books of the requests leave alone. -/
structure SameData (s t : StorageWrapper n Src) : Prop where
  has : t.has = s.has
  blocked : t.blocked = s.blocked
  waschecked : t.waschecked = s.waschecked
  dirty : t.dirty = s.dirty
  history : t.downloadHistory = s.downloadHistory
  failed : t.failedPieces = s.failedPieces
  content : t.content = s.content
  obtained : t.amountObtained = s.amountObtained
  desired : t.amountDesired = s.amountDesired
  left : t.amountLeft = s.amountLeft

namespace SameData

theorem refl (s : StorageWrapper n Src) : SameData s s := ⟨rfl, rfl, rfl, rfl, rfl, rfl, rfl, rfl, rfl, rfl⟩

theorem trans (h : SameData s t) (h' : SameData t u) : SameData s u where
  has := h'.has.trans h.has
  blocked := h'.blocked.trans h.blocked
  waschecked := h'.waschecked.trans h.waschecked
  dirty := h'.dirty.trans h.dirty
  history := h'.history.trans h.history
  failed := h'.failed.trans h.failed
  content := h'.content.trans h.content
  obtained := h'.obtained.trans h.obtained
  desired := h'.desired.trans h.desired
  left := h'.left.trans h.left

/-- Only the requests of one piece differ. -/
theorem onlyPiece (h : SameData s t) (hreq : ∀ j, j ≠ i → t.inactiveRequests j = s.inactiveRequests j)
    (hnum : ∀ j, j ≠ i → t.numactive j = s.numactive j) (hstat : ∀ j, j ≠ i → t.statActive j = s.statActive j) :
    OnlyPiece s t i where
  blocked := h.blocked
  desired := h.desired
  req := hreq
  has := fun j _ => congrFun h.has j
  dirty := fun j _ => congrFun h.dirty j
  numactive := hnum
  statActive := hstat
  waschecked := fun j _ => congrFun h.waschecked j
  content := fun j _ => congrFun h.content j
  history := fun j _ => congrFun h.history j
  failed := fun j _ => congrFun h.failed j

theorem obtainedOf_eq (h : SameData s t) (j : Fin n) : t.obtainedOf info j = s.obtainedOf info j := by
  unfold obtainedOf
  rw [h.has, h.dirty]

theorem missingOf_eq (h : SameData s t) (j : Fin n) : t.missingOf info j = s.missingOf info j := by
  unfold missingOf
  rw [h.has]

end SameData

/-- The books after the requests of a piece that is wanted changed. -/
theorem Books.changeRequests (hs : Books info s cut out) (hi : s.blocked i = false) (hsame : SameData s t)
    (honly : OnlyPiece s t i) (hcut : ∀ j, j ≠ i → cut' j = cut j)
    (hout : ∀ j, j ≠ i → requestsOf out' j = requestsOf out j) (hranges : Ranges info t (cut' i) (requestsOf out' i) i)
    (hnum : t.numactive i = (requestsOf out' i).length) (hstat : requestsOf out' i ≠ [] → t.statActive i = true)
    (hinactive : t.amountInactive = s.amountInactive - s.inactiveOf info i + t.inactiveOf info i) :
    Books info t cut' out' := by
  refine hs.change hi honly hcut hout ⟨hranges, hnum, hstat, fun hb => ?_, ?_, ?_⟩ hinactive ?_ ?_
  · rw [hsame.blocked, hi] at hb
    exact absurd hb Bool.false_ne_true
  · rw [hsame.content]
    exact (hs.piece i).content
  · rw [hsame.has, hsame.waschecked, hsame.content]
    exact (hs.piece i).checked
  · rw [hsame.obtained, hsame.obtainedOf_eq i]
    omega
  · rw [hsame.left, hsame.missingOf_eq i]
    omega

theorem inactiveOf_chunks {l : List (Nat × Nat)} (h : s.inactiveRequests i = .chunks l) :
    s.inactiveOf info i = ((l.map Prod.snd).sum : Nat) := by
  unfold inactiveOf
  rw [h]

theorem inactiveOf_untouched (h : s.inactiveRequests i = .untouched) : s.inactiveOf info i = info.pieceLen i := by
  unfold inactiveOf
  rw [h]

theorem inactiveOf_done (h : s.inactiveRequests i = .done) : s.inactiveOf info i = 0 := by
  unfold inactiveOf
  rw [h]

theorem sum_cut (info : TorrentInfo n) (i : Fin n) : ((info.cut i).map Prod.snd).sum = info.pieceLen i :=
  (info.tiles_cut i).sum.trans (Nat.sub_zero _)

theorem sameData_makeInactive (info : TorrentInfo n) (s : StorageWrapper n Src) (i : Fin n) :
    SameData s (makeInactive info s i) := ⟨rfl, rfl, rfl, rfl, rfl, rfl, rfl, rfl, rfl, rfl⟩

theorem onlyPiece_makeInactive (info : TorrentInfo n) (s : StorageWrapper n Src) (i : Fin n) :
    OnlyPiece s (makeInactive info s i) i :=
  (sameData_makeInactive info s i).onlyPiece (fun _ hj => Function.update_of_ne hj _ _) (fun _ _ => rfl) fun _ _ => rfl

theorem inactiveRequests_makeInactive (info : TorrentInfo n) (s : StorageWrapper n Src) (i : Fin n) :
    (makeInactive info s i).inactiveRequests i = .chunks (info.cut i) := Function.update_self ..

theorem sorted_of_tiles {c : List (Nat × Nat)} {x y : Nat} (h : Tiles x c y) : Sorted pairLt c := by
  refine h.pairwise.imp_of_mem fun {a b} ha hb hab => ?_
  have hpos := h.pos ha
  rw [Bisect.pairLt_false_iff]
  omega

theorem Books.makeInactive (hs : Books info s cut out) (hi : s.blocked i = false) (hreq : s.inactiveRequests i = .untouched) :
    Books info (makeInactive info s i) (Function.update cut i (info.cut i)) out := by
  have hpiece := hs.piece i
  have hreq' := inactiveRequests_makeInactive info s i
  refine hs.changeRequests hi (sameData_makeInactive info s i) (onlyPiece_makeInactive info s i)
    (fun j hj => Function.update_of_ne hj _ _) (fun _ _ => rfl) ?_ hpiece.numactive hpiece.statActive ?_
  · rw [Function.update_self]
    cases hpiece.ranges with
    | untouched _ hhas hout hdirty =>
      have hdirty' : (StorageWrapper.makeInactive info s i).dirty i = none := hdirty
      refine .chunks (info.cut i) hreq' hhas (info.tiles_cut i) ?_ (sorted_of_tiles (info.tiles_cut i))
        (Or.inl (Tiling.parts_ne_nil _ _))
      rw [hout, hdirty']
      exact Shared.all _
    | chunks _ hbad => rw [hreq] at hbad; cases hbad
    | done hbad => rw [hreq] at hbad; cases hbad
  · rw [inactiveOf_untouched hreq, inactiveOf_chunks hreq', sum_cut]
    exact (Int.sub_add_cancel _ _).symm

theorem sameData_handOut (s : StorageWrapper n Src) (i : Fin n) (r : Nat × Nat) (rs : List (Nat × Nat)) :
    SameData s (handOut s i r rs) := ⟨rfl, rfl, rfl, rfl, rfl, rfl, rfl, rfl, rfl, rfl⟩

theorem onlyPiece_handOut (s : StorageWrapper n Src) (i : Fin n) (r : Nat × Nat) (rs : List (Nat × Nat)) :
    OnlyPiece s (handOut s i r rs) i :=
  (sameData_handOut s i r rs).onlyPiece (fun _ hj => Function.update_of_ne hj _ _) (fun _ hj => Function.update_of_ne hj _ _)
    fun _ hj => Function.update_of_ne hj _ _

theorem inactiveRequests_handOut (s : StorageWrapper n Src) (i : Fin n) (r : Nat × Nat) (rs : List (Nat × Nat)) :
    (handOut s i r rs).inactiveRequests i = .chunks rs := Function.update_self ..

theorem Ranges.of_chunks {c o l : List (Nat × Nat)} (h : Ranges info s c o i) (hreq : s.inactiveRequests i = .chunks l) :
    s.has i = false ∧ Tiles 0 c (info.pieceLen i) ∧ Shared c l o ((s.dirty i).getD []) ∧ Sorted pairLt l ∧
      (l ≠ [] ∨ o ≠ []) := by
  cases h with
  | untouched hbad => rw [hreq] at hbad; cases hbad
  | chunks l' hreq' hhas htiles hshared hsorted hopen =>
    obtain rfl := Requests.chunks.inj (hreq.symm.trans hreq')
    exact ⟨hhas, htiles, hshared, hsorted, hopen⟩
  | done hbad => rw [hreq] at hbad; cases hbad

/-- The first of the free requests of a piece is handed out. -/
theorem Books.handOut (hs : Books info s cut out) (hi : s.blocked i = false) {rs : List (Nat × Nat)}
    (hreq : s.inactiveRequests i = .chunks (r :: rs)) : Books info (handOut s i r rs) cut ((i, r) :: out) := by
  have hpiece := hs.piece i
  obtain ⟨hhas, htiles, hshared, hsorted, -⟩ := hpiece.ranges.of_chunks hreq
  have hreq' := inactiveRequests_handOut s i r rs
  have hout := requestsOf_cons_self i r out
  refine hs.changeRequests hi (sameData_handOut s i r rs) (onlyPiece_handOut s i r rs) (fun _ _ => rfl)
    (fun j hj => requestsOf_cons_of_ne hj r out) ?_ ?_ (fun _ => Function.update_self ..) ?_
  · refine .chunks rs hreq' hhas htiles ?_ (List.pairwise_cons.mp hsorted).2 (Or.inr ?_)
    · rw [hout]
      exact hshared.take
    · rw [hout]
      exact List.cons_ne_nil _ _
  · have hnum : (StorageWrapper.handOut s i r rs).numactive i = s.numactive i + 1 := Function.update_self ..
    rw [hnum, hpiece.numactive, hout, List.length_cons, Int.natCast_succ]
  · rw [inactiveOf_chunks hreq, inactiveOf_chunks hreq', List.map_cons, List.sum_cons]
    change s.amountInactive - r.2 = _
    omega

/-- The ranges of the pieces after one of them is asked for. -/
def recut (info : TorrentInfo n) (s : StorageWrapper n Src) (cut : Fin n → List (Nat × Nat)) (i : Fin n) :
    Fin n → List (Nat × Nat) :=
  if s.inactiveRequests i = .untouched then Function.update cut i (info.cut i) else cut

theorem recut_cut (info : TorrentInfo n) (s : StorageWrapper n Src) (i : Fin n) : recut info s info.cut i = info.cut := by
  unfold recut
  split
  · exact Function.update_eq_self i info.cut
  · rfl

/-- The ranges of a piece that can be asked for. -/
def freeOf (info : TorrentInfo n) (s : StorageWrapper n Src) (i : Fin n) : List (Nat × Nat) :=
  match s.inactiveRequests i with
  | .untouched => info.cut i
  | .chunks l => l
  | .done => []

theorem popRequest_chunks {rs : List (Nat × Nat)} (h : s.inactiveRequests i = .chunks (r :: rs)) :
    popRequest s i = .ok (r, handOut s i r rs) := by
  unfold popRequest
  rw [h]

theorem freeOf_chunks {l : List (Nat × Nat)} (h : s.inactiveRequests i = .chunks l) : freeOf info s i = l := by
  unfold freeOf
  rw [h]

theorem freeOf_untouched (h : s.inactiveRequests i = .untouched) : freeOf info s i = info.cut i := by
  unfold freeOf
  rw [h]

/-- A range that is handed out was not out before. -/
theorem Books.not_out (hs : Books info s cut ((i, r) :: out)) : (i, r) ∉ out := by
  intro hmem
  have hranges := (hs.piece i).ranges
  rw [requestsOf_cons_self] at hranges
  cases hranges with
  | untouched _ _ hout _ => cases hout
  | done _ _ hout _ => cases hout
  | chunks l _ _ htiles hshared _ _ =>
    exact (List.nodup_cons.mp (hshared.out_nodup htiles.nodup)).1 (mem_requestsOf.mpr hmem)

/-- A request for a part of a piece that has some left. -/
theorem Books.newRequest (hs : Books info s cut out) (hi : s.blocked i = false) (hreq : s.doIHaveRequests i = true) :
    ∃ r t, newRequest info s i = .ok (r, t) ∧ Books info t (recut info s cut i) ((i, r) :: out) ∧
      SameData s t ∧ OnlyPiece s t i ∧ (i, r) ∉ out ∧ freeOf info s i = r :: freeOf info t i := by
  unfold StorageWrapper.newRequest recut
  cases hold : s.inactiveRequests i with
  | untouched =>
    obtain ⟨r, rs, hcut⟩ := List.exists_cons_of_ne_nil (Tiling.parts_ne_nil info.requestSize (info.pieceLen i))
    have hreq' : (StorageWrapper.makeInactive info s i).inactiveRequests i = .chunks (r :: rs) :=
      (inactiveRequests_makeInactive info s i).trans (congrArg Requests.chunks hcut)
    have hmade := hs.makeInactive hi hold
    have hbooks := hmade.handOut hi hreq'
    rw [if_pos rfl, if_pos rfl, popRequest_chunks hreq']
    refine ⟨r, _, rfl, hbooks, (sameData_makeInactive info s i).trans (sameData_handOut _ i r rs),
      (onlyPiece_makeInactive info s i).trans (onlyPiece_handOut _ i r rs), hbooks.not_out, ?_⟩
    rw [freeOf_untouched hold, freeOf_chunks (inactiveRequests_handOut _ i r rs)]
    exact hcut
  | chunks l =>
    unfold doIHaveRequests at hreq
    rw [hold] at hreq
    cases l with
    | nil => cases hreq
    | cons r rs =>
      have hbooks := hs.handOut hi hold
      rw [if_neg (by rintro ⟨⟩), if_neg (by rintro ⟨⟩), popRequest_chunks hold]
      refine ⟨r, _, rfl, hbooks, sameData_handOut s i r rs, onlyPiece_handOut s i r rs, hbooks.not_out, ?_⟩
      rw [freeOf_chunks hold, freeOf_chunks (inactiveRequests_handOut s i r rs)]
  | done =>
    unfold doIHaveRequests at hreq
    rw [hold] at hreq
    cases hreq

/-! ### A request that is given up -/

theorem Books.perm (hs : Books info s cut out) (hperm : out.Perm out') : Books info s cut out' where
  piece := by
    intro i
    have hp := requestsOf_perm hperm i
    have hpiece := hs.piece i
    refine ⟨?_, ?_, fun hne => hpiece.statActive fun hnil => hne ?_, fun hb => ?_, hpiece.content, hpiece.checked⟩
    · cases hpiece.ranges with
      | untouched hreq hhas hout hdirty =>
        refine .untouched hreq hhas ?_ hdirty
        rw [hout] at hp
        exact hp.symm.eq_nil
      | chunks l hreq hhas htiles hshared hsorted hopen =>
        refine .chunks l hreq hhas htiles (hshared.perm_out hp.symm) hsorted (hopen.imp_right fun hne hnil => hne ?_)
        rw [hnil] at hp
        exact hp.eq_nil
      | done hreq hhas hout hdirty =>
        refine .done hreq hhas ?_ hdirty
        rw [hout] at hp
        exact hp.symm.eq_nil
    · rw [hpiece.numactive, hp.length_eq]
    · rw [hnil] at hp
      exact hp.symm.eq_nil
    · rw [hpiece.blocked hb] at hp
      exact hp.symm.eq_nil
  inactive := hs.inactive
  obtained := hs.obtained
  desired := hs.desired
  left := hs.left

/-- A piece with a request that is out. -/
theorem Books.asked (hs : Books info s cut ((i, r) :: out)) :
    s.blocked i = false ∧ s.has i = false ∧ ∃ l, s.inactiveRequests i = .chunks l ∧ Tiles 0 (cut i) (info.pieceLen i) ∧
      Shared (cut i) l (r :: requestsOf out i) ((s.dirty i).getD []) ∧ Sorted pairLt l := by
  have hpiece := hs.piece i
  rw [requestsOf_cons_self] at hpiece
  refine ⟨?_, ?_⟩
  · by_contra hb
    exact absurd (hpiece.blocked (eq_true_of_ne_false hb)) (List.cons_ne_nil _ _)
  · cases hpiece.ranges with
    | untouched _ _ hout _ => cases hout
    | done _ _ hout _ => cases hout
    | chunks l hreq hhas htiles hshared hsorted _ => exact ⟨hhas, l, hreq, htiles, hshared, hsorted⟩

theorem onlyPiece_takeBack (s : StorageWrapper n Src) (i : Fin n) (r : Nat × Nat) (l : List (Nat × Nat)) :
    OnlyPiece s (takeBack s i r l) i :=
  ⟨rfl, rfl, fun _ hj => Function.update_of_ne hj _ _, fun _ _ => rfl, fun _ _ => rfl, fun _ _ => rfl, fun _ _ => rfl,
    fun _ _ => rfl, fun _ _ => rfl, fun _ _ => rfl, fun _ _ => rfl⟩

theorem sameData_takeBack (s : StorageWrapper n Src) (i : Fin n) (r : Nat × Nat) (l : List (Nat × Nat)) :
    SameData s (takeBack s i r l) := ⟨rfl, rfl, rfl, rfl, rfl, rfl, rfl, rfl, rfl, rfl⟩

theorem sameData_lessActive (s : StorageWrapper n Src) (i : Fin n) : SameData s (lessActive s i) :=
  ⟨rfl, rfl, rfl, rfl, rfl, rfl, rfl, rfl, rfl, rfl⟩

theorem onlyPiece_lessActive (s : StorageWrapper n Src) (i : Fin n) : OnlyPiece s (lessActive s i) i :=
  (sameData_lessActive s i).onlyPiece (fun _ _ => rfl) (fun _ hj => Function.update_of_ne hj _ _)
    fun _ hj => Function.update_of_ne hj _ _

theorem numactive_lessActive (s : StorageWrapper n Src) (i : Fin n) :
    (lessActive s i).numactive i = s.numactive i - 1 := Function.update_self ..

theorem statActive_lessActive (hstat : s.statActive i = true) (hnum : s.numactive i - 1 ≠ 0) :
    (lessActive s i).statActive i = true := by
  have hself : (lessActive s i).statActive i = (s.statActive i && decide (s.numactive i - 1 ≠ 0)) := Function.update_self ..
  rw [hself, hstat, decide_eq_true hnum]
  rfl

theorem dropActive_ok (hstat : s.statActive i = true) : dropActive s i = .ok (lessActive s i) := by
  unfold dropActive
  rw [hstat]
  exact if_neg fun h => Bool.false_ne_true h.2.symm

/-- A request that is out is given up. -/
theorem Books.requestLost (hs : Books info s cut ((i, r) :: out)) :
    ∃ t, requestLost s i r.1 r.2 = .ok t ∧ Books info t cut out ∧ SameData s t := by
  obtain ⟨hi, hhas, l, hreq, htiles, hshared, hsorted⟩ := hs.asked
  have hpiece := hs.piece i
  have hout := requestsOf_cons_self i r out
  rw [hout] at hpiece
  have hnot : r ∉ l := hshared.not_free htiles.nodup List.mem_cons_self
  have hstat : (takeBack s i r l).statActive i = true := hpiece.statActive (List.cons_ne_nil _ _)
  have hnum : (takeBack s i r l).numactive i = (requestsOf out i).length + 1 := hpiece.numactive
  have hsame := (sameData_takeBack s i r l).trans (sameData_lessActive (takeBack s i r l) i)
  have honly := (onlyPiece_takeBack s i r l).trans (onlyPiece_lessActive (takeBack s i r l) i)
  have hreq' : (lessActive (takeBack s i r l) i).inactiveRequests i = .chunks (insort pairLt l r) := Function.update_self ..
  have hne : insort pairLt l r ≠ [] := List.ne_nil_of_mem (Bisect.mem_insort.mpr (Or.inl rfl))
  refine ⟨lessActive (takeBack s i r l) i, ?_, ?_, hsame⟩
  · unfold StorageWrapper.requestLost
    rw [hreq]
    exact (if_neg (List.contains_iff_mem.not.mpr hnot)).trans (dropActive_ok hstat)
  · refine hs.changeRequests hi hsame honly (fun _ _ => rfl) (fun j hj => (requestsOf_cons_of_ne hj r out).symm) ?_ ?_ ?_ ?_
    · refine .chunks _ hreq' hhas htiles ?_ (Bisect.insort_pair_sorted hsorted r) (Or.inl hne)
      exact hshared.giveBack.perm_free (Bisect.insort_perm pairLt l r)
    · rw [numactive_lessActive, hnum]
      omega
    · intro hrest
      refine statActive_lessActive hstat ?_
      have hpos := List.length_pos_iff.mpr hrest
      rw [hnum]
      omega
    · have hsum := ((Bisect.insort_perm pairLt l r).map Prod.snd).sum_eq
      rw [List.map_cons, List.sum_cons] at hsum
      rw [inactiveOf_chunks hreq, inactiveOf_chunks hreq', hsum]
      change s.amountInactive + r.2 = _
      omega

theorem Books.resetEndgame {rs : List (Request n)} (hs : Books info s cut (rs ++ out)) :
    ∃ t, resetEndgame rs s = .ok t ∧ Books info t cut out ∧ SameData s t := by
  induction rs generalizing s with
  | nil => exact ⟨s, rfl, hs, .refl s⟩
  | cons r rest ih =>
    obtain ⟨t, hlost, ht, hsame⟩ := Books.requestLost (r := r.2) hs
    obtain ⟨u, hrest, hu, hsame'⟩ := ih ht
    refine ⟨u, ?_, hu, hsame.trans hsame'⟩
    rw [StorageWrapper.resetEndgame, hlost]
    exact hrest

/-- A range that is there to be asked for. -/
def Free (s : StorageWrapper n Src) (i : Fin n) (r : Nat × Nat) : Prop := ∃ l, s.inactiveRequests i = .chunks l ∧ r ∈ l

theorem requestLost_of_free (h : Free s i r) : requestLost s i r.1 r.2 = .error assertion := by
  obtain ⟨l, hreq, hr⟩ := h
  unfold requestLost
  rw [hreq]
  exact if_pos (List.contains_iff_mem.mpr hr)

theorem free_of_requestLost (h : requestLost s i r.1 r.2 = .ok t) : Free t i r ∧ ∀ j q, Free s j q → Free t j q := by
  unfold requestLost at h
  cases hreq : s.inactiveRequests i with
  | untouched => rw [hreq] at h; cases h
  | done => rw [hreq] at h; cases h
  | chunks l =>
    rw [hreq] at h
    dsimp only at h
    split at h
    · cases h
    · unfold dropActive at h
      split at h
      · cases h
      · cases h
        have hnew : (lessActive (takeBack s i r l) i).inactiveRequests i = .chunks (insort pairLt l r) := Function.update_self ..
        refine ⟨⟨_, hnew, Bisect.mem_insort.mpr (Or.inl rfl)⟩, fun j q hq => ?_⟩
        obtain ⟨l', hreq', hmem⟩ := hq
        by_cases hj : j = i
        · subst hj
          obtain rfl := Requests.chunks.inj (hreq.symm.trans hreq')
          exact ⟨_, hnew, Bisect.mem_insort.mpr (Or.inr hmem)⟩
        · exact ⟨l', (Function.update_of_ne hj _ _).trans hreq', hmem⟩

theorem free_of_resetEndgame {rs : List (Request n)} (h : resetEndgame rs s = .ok t) :
    (∀ q ∈ rs, Free t q.1 q.2) ∧ ∀ j q, Free s j q → Free t j q := by
  induction rs generalizing s with
  | nil =>
    cases h
    exact ⟨fun q hq => absurd hq List.not_mem_nil, fun _ _ hq => hq⟩
  | cons r rest ih =>
    obtain ⟨u, hlost, hrest⟩ := PyExcept.bind_eq_ok h
    obtain ⟨hr, hkeep⟩ := free_of_requestLost hlost
    obtain ⟨hall, hkeep'⟩ := ih hrest
    refine ⟨fun q hq => ?_, fun j q hq => hkeep' j q (hkeep j q hq)⟩
    rcases List.mem_cons.mp hq with rfl | hq
    · exact hkeep' _ _ hr
    · exact hall q hq

/-! ### A part that comes -/

section Arriving
variable {b : Nat} {piece : Bytes} {source : Option Src}

def closed (s : StorageWrapper n Src) (i : Fin n) : StorageWrapper n Src :=
  { s with dirty := Function.update s.dirty i none }

theorem onlyPiece_closed (s : StorageWrapper n Src) (i : Fin n) : OnlyPiece s (closed s i) i :=
  ⟨rfl, rfl, fun _ _ => rfl, fun _ _ => rfl, fun _ hj => Function.update_of_ne hj _ _, fun _ _ => rfl, fun _ _ => rfl,
    fun _ _ => rfl, fun _ _ => rfl, fun _ _ => rfl, fun _ _ => rfl⟩

theorem onlyPiece_pass (info : TorrentInfo n) (s : StorageWrapper n Src) (i : Fin n) :
    OnlyPiece s (pass info s i).storage i :=
  ⟨rfl, rfl, fun _ hj => Function.update_of_ne hj _ _, fun _ hj => Function.update_of_ne hj _ _, fun _ _ => rfl,
    fun _ _ => rfl, fun _ _ => rfl, fun _ hj => Function.update_of_ne hj _ _, fun _ _ => rfl,
    fun _ hj => Function.update_of_ne hj _ _, fun _ hj => Function.update_of_ne hj _ _⟩

/-- The last chunk of a piece. -/
structure Last (info : TorrentInfo n) (s : StorageWrapper n Src) (out : List (Request n)) (i : Fin n) (b : Nat)
    (piece : Bytes) : Prop where
  wanted : s.blocked i = false
  missing : s.has i = false
  req : s.inactiveRequests i = .chunks []
  out : requestsOf out i = []
  numactive : s.numactive i = 1
  size : (((s.dirty i).getD []).map Prod.snd).sum + piece.length = info.pieceLen i
  content : (patch (s.content i) b piece).length = info.pieceLen i

theorem Books.last (hs : Books info s cut ((i, b, piece.length) :: out)) (hfree : s.doIHaveRequests i = false)
    (hout : requestsOf out i = []) : Last info s out i b piece := by
  obtain ⟨hi, hhas, l, hreq, htiles, hshared, -⟩ := hs.asked
  have hpiece := hs.piece i
  rw [requestsOf_cons_self] at hpiece
  have hmem : (b, piece.length) ∈ cut i := hshared.mem_whole List.mem_cons_self
  have hnil : l = [] := by
    unfold doIHaveRequests at hfree
    rw [hreq] at hfree
    cases l with
    | nil => rfl
    | cons a rest => cases hfree
  subst hnil
  refine ⟨hi, hhas, hreq, hout, ?_, ?_, ?_⟩
  · rw [hpiece.numactive, hout]
    rfl
  · have hsum := hshared.sum Prod.snd
    rw [hout, htiles.sum] at hsum
    change 0 + piece.length + _ = _ at hsum
    omega
  · rw [Tiling.length_patch, hpiece.content]
    rw [hpiece.content]
    exact (htiles.bounds hmem).2.2

theorem Last.obtainedOf (h : Last info s out i b piece) :
    s.obtainedOf info i + piece.length = info.pieceLen i := by
  have hsize := h.size
  unfold StorageWrapper.obtainedOf
  rw [h.missing]
  change ((((s.dirty i).getD []).map Prod.snd).sum : Int) + piece.length = info.pieceLen i
  omega

theorem Last.inactiveOf (h : Last info s out i b piece) : s.inactiveOf info i = 0 := inactiveOf_chunks h.req

theorem Last.missingOf (h : Last info s out i b piece) : s.missingOf info i = info.pieceLen i := by
  unfold StorageWrapper.missingOf
  rw [h.missing]
  rfl

variable [DecidableEq Src]

theorem suspect_cases (s : StorageWrapper n Src) (i : Fin n) (b : Nat) (piece : Bytes) :
    ∃ f, suspect s i b piece = { s with failedPieces := f } ∧ ∀ j, j ≠ i → f j = s.failedPieces j := by
  unfold suspect
  split
  · exact ⟨s.failedPieces, rfl, fun _ _ => rfl⟩
  · split
    · exact ⟨s.failedPieces, rfl, fun _ _ => rfl⟩
    · exact ⟨_, rfl, fun j hj => Function.update_of_ne hj _ _⟩

/-- The storage once the chunk is written down. -/
def received (s : StorageWrapper n Src) (i : Fin n) (b : Nat) (piece : Bytes) (source : Option Src) :
    StorageWrapper n Src := lessActive (record (suspect s i b piece) i b piece source) i

structure Received (s t : StorageWrapper n Src) (i : Fin n) (b : Nat) (piece : Bytes) : Prop where
  only : OnlyPiece s t i
  req : t.inactiveRequests i = s.inactiveRequests i
  has : t.has i = s.has i
  dirty : t.dirty i = some ((s.dirty i).getD [] ++ [(b, piece.length)])
  content : t.content i = patch (s.content i) b piece
  numactive : t.numactive i = s.numactive i - 1
  statActive : s.statActive i = true → s.numactive i - 1 ≠ 0 → t.statActive i = true
  inactive : t.amountInactive = s.amountInactive
  obtained : t.amountObtained = s.amountObtained + piece.length
  left : t.amountLeft = s.amountLeft

theorem received_spec (s : StorageWrapper n Src) (i : Fin n) (b : Nat) (piece : Bytes) (source : Option Src) :
    Received s (received s i b piece source) i b piece := by
  obtain ⟨f, hf, hother⟩ := suspect_cases s i b piece
  unfold received
  rw [hf]
  refine ⟨⟨rfl, rfl, fun _ _ => rfl, fun _ _ => rfl, ?_, ?_, ?_, fun _ _ => rfl, ?_, ?_, hother⟩, rfl, rfl, ?_, ?_,
    numactive_lessActive _ i, fun hstat hnum => statActive_lessActive hstat hnum, rfl, rfl, rfl⟩
  · exact fun j hj => Function.update_of_ne hj _ _
  · exact fun j hj => Function.update_of_ne hj _ _
  · exact fun j hj => Function.update_of_ne hj _ _
  · exact fun j hj => Function.update_of_ne hj _ _
  · exact fun j hj => Function.update_of_ne hj _ _
  · exact Function.update_self ..
  · exact Function.update_self ..

theorem pieceCameIn_eq (hs : Books info s cut ((i, b, piece.length) :: out)) (source : Option Src) :
    pieceCameIn info s i b piece source = .ok (arrived info (received s i b piece source) i) := by
  obtain ⟨hi, hhas, -⟩ := hs.asked
  have hpiece := hs.piece i
  rw [requestsOf_cons_self] at hpiece
  have hnum : s.numactive i = (requestsOf out i).length + 1 := hpiece.numactive
  obtain ⟨f, hf, -⟩ := suspect_cases s i b piece
  have hnum' : ¬(record (suspect s i b piece) i b piece source).numactive i - 1 < 0 := by
    rw [hf]
    change ¬s.numactive i - 1 < 0
    omega
  have hstat : (record (suspect s i b piece) i b piece source).statActive i = true := by
    rw [hf]
    exact hpiece.statActive (List.cons_ne_nil _ _)
  unfold pieceCameIn
  rw [hhas, if_neg Bool.false_ne_true]
  dsimp only
  rw [if_neg hnum', dropActive_ok hstat]
  rfl

/-- The chunk is not the last one of the piece. -/
theorem Books.received (hs : Books info s cut ((i, b, piece.length) :: out)) (source : Option Src)
    (hopen : s.doIHaveRequests i = true ∨ requestsOf out i ≠ []) : Books info (received s i b piece source) cut out := by
  obtain ⟨hi, hhas, l, hreq, htiles, hshared, hsorted⟩ := hs.asked
  have hpiece := hs.piece i
  rw [requestsOf_cons_self] at hpiece
  have hspec := received_spec s i b piece source
  have hnum : s.numactive i = (requestsOf out i).length + 1 := hpiece.numactive
  have hmem : (b, piece.length) ∈ cut i := hshared.mem_whole List.mem_cons_self
  refine hs.change hi hspec.only (fun _ _ => rfl) (fun j hj => (requestsOf_cons_of_ne hj _ out).symm)
    ⟨?_, ?_, ?_, ?_, ?_, ?_⟩ ?_ ?_ ?_
  · refine .chunks l (hspec.req.trans hreq) (hspec.has.trans hhas) htiles ?_ hsorted ?_
    · rw [hspec.dirty]
      exact hshared.settle
    · refine hopen.imp_left fun hfree hnil => ?_
      unfold doIHaveRequests at hfree
      rw [hreq, hnil] at hfree
      cases hfree
  · rw [hspec.numactive, hnum]
    omega
  · intro hne
    refine hspec.statActive (hpiece.statActive (List.cons_ne_nil _ _)) ?_
    have := List.length_pos_iff.mpr hne
    omega
  · intro hb
    rw [hspec.only.blocked, hi] at hb
    exact absurd hb Bool.false_ne_true
  · rw [hspec.content, Tiling.length_patch, hpiece.content]
    rw [hpiece.content]
    exact (htiles.bounds hmem).2.2
  · intro hbad
    rw [hspec.has, hhas] at hbad
    exact absurd hbad Bool.false_ne_true
  · rw [hspec.inactive, inactiveOf_chunks hreq, inactiveOf_chunks (hspec.req.trans hreq)]
    omega
  · have hold : s.obtainedOf info i = ((((s.dirty i).getD []).map Prod.snd).sum : Nat) := by
      unfold obtainedOf
      rw [hhas]
      rfl
    have hnew : (StorageWrapper.received s i b piece source).obtainedOf info i =
        ((((s.dirty i).getD []).map Prod.snd).sum + piece.length : Nat) := by
      unfold obtainedOf
      rw [hspec.has, hhas, hspec.dirty, Option.getD_some, List.map_append, List.sum_append]
      rfl
    rw [hspec.obtained, hold, hnew]
    omega
  · have hsame : (StorageWrapper.received s i b piece source).missingOf info i = s.missingOf info i := by
      unfold missingOf
      rw [hspec.has]
    rw [hspec.left, hsame]
    omega

theorem arrived_eq (info : TorrentInfo n) (s : StorageWrapper n Src) (i : Fin n) :
    arrived info s i = if s.doIHaveRequests i || s.numactive i != 0 then ⟨true, s, []⟩
      else if info.sha (s.content i) = info.hashes i then pass info (closed s i) i else flunk info (closed s i) i := rfl

/-- Whoever is to blame, the books of the requests are the same. -/
theorem flunk_storage (info : TorrentInfo n) (s : StorageWrapper n Src) (i : Fin n) :
    ∃ f, (flunk info s i).storage = { s with
        amountObtained := s.amountObtained - info.pieceLen i
        inactiveRequests := Function.update s.inactiveRequests i .untouched
        amountInactive := s.amountInactive + info.pieceLen i
        failedPieces := f } ∧ (∀ j, j ≠ i → f j = s.failedPieces j) ∧ (flunk info s i).kept = false := by
  unfold flunk
  dsimp only
  split
  · exact ⟨_, rfl, fun j hj => Function.update_of_ne hj _ _, rfl⟩
  · exact ⟨_, rfl, fun j hj => Function.update_of_ne hj _ _, rfl⟩

theorem onlyPiece_flunk (info : TorrentInfo n) (s : StorageWrapper n Src) (i : Fin n) :
    OnlyPiece s (flunk info s i).storage i := by
  obtain ⟨f, hf, hother, -⟩ := flunk_storage info s i
  rw [hf]
  exact ⟨rfl, rfl, fun _ hj => Function.update_of_ne hj _ _, fun _ _ => rfl, fun _ _ => rfl, fun _ _ => rfl, fun _ _ => rfl,
    fun _ _ => rfl, fun _ _ => rfl, fun _ _ => rfl, hother⟩

theorem Books.passed (hs : Books info s cut ((i, b, piece.length) :: out)) (source : Option Src)
    (hlast : Last info s out i b piece) (hsha : info.sha (patch (s.content i) b piece) = info.hashes i) :
    Books info (pass info (closed (StorageWrapper.received s i b piece source) i) i).storage cut out := by
  have hspec := received_spec s i b piece source
  have honly := (hspec.only.trans (onlyPiece_closed _ i)).trans (onlyPiece_pass info _ i)
  generalize StorageWrapper.received s i b piece source = t at *
  have hhas : (pass info (closed t i) i).storage.has i = true := Function.update_self ..
  have hreq : (pass info (closed t i) i).storage.inactiveRequests i = .done := Function.update_self ..
  have hdirty : (pass info (closed t i) i).storage.dirty i = none := Function.update_self ..
  refine hs.change hlast.wanted honly (fun _ _ => rfl) (fun j hj => (requestsOf_cons_of_ne hj _ out).symm)
    ⟨.done hreq hhas hlast.out hdirty, ?_, fun hne => absurd hlast.out hne, fun _ => hlast.out, ?_, fun _ _ => ?_⟩ ?_ ?_ ?_
  · have hnum : (pass info (closed t i) i).storage.numactive i = t.numactive i := rfl
    rw [hnum, hspec.numactive, hlast.numactive, hlast.out]
    rfl
  · exact hspec.content ▸ hlast.content
  · exact hspec.content ▸ hsha
  · rw [hlast.inactiveOf, inactiveOf_done hreq]
    exact hspec.inactive.trans (by omega)
  · have hnew : (pass info (closed t i) i).storage.obtainedOf info i = info.pieceLen i := if_pos hhas
    have hold := hlast.obtainedOf
    have hsum : (pass info (closed t i) i).storage.amountObtained = s.amountObtained + piece.length := hspec.obtained
    rw [hnew, hsum]
    omega
  · have hnew : (pass info (closed t i) i).storage.missingOf info i = 0 := if_pos hhas
    have hsum : (pass info (closed t i) i).storage.amountLeft = t.amountLeft - info.pieceLen i := rfl
    rw [hnew, hsum, hspec.left, hlast.missingOf]
    omega

theorem Books.flunked (hs : Books info s cut ((i, b, piece.length) :: out)) (source : Option Src)
    (hlast : Last info s out i b piece) :
    Books info (flunk info (closed (StorageWrapper.received s i b piece source) i) i).storage cut out := by
  have hspec := received_spec s i b piece source
  have honly := (hspec.only.trans (onlyPiece_closed _ i)).trans (onlyPiece_flunk info _ i)
  obtain ⟨f, hf, -, -⟩ := flunk_storage info (closed (StorageWrapper.received s i b piece source) i) i
  rw [hf] at honly ⊢
  generalize StorageWrapper.received s i b piece source = t at *
  have hhas : t.has i = false := hspec.has.trans hlast.missing
  refine hs.change hlast.wanted honly (fun _ _ => rfl) (fun j hj => (requestsOf_cons_of_ne hj _ out).symm)
    ⟨.untouched (Function.update_self ..) hhas hlast.out (Function.update_self ..), ?_, fun hne => absurd hlast.out hne,
      fun _ => hlast.out, ?_, fun hbad => ?_⟩ ?_ ?_ ?_
  · change t.numactive i = _
    rw [hspec.numactive, hlast.numactive, hlast.out]
    rfl
  · exact hspec.content ▸ hlast.content
  · exact absurd (hhas.symm.trans hbad) Bool.false_ne_true
  · rw [hlast.inactiveOf, inactiveOf_untouched (Function.update_self ..)]
    change t.amountInactive + info.pieceLen i = _
    rw [hspec.inactive]
    omega
  · have hold := hlast.obtainedOf
    have hnew : StorageWrapper.obtainedOf info { closed t i with
        amountObtained := (closed t i).amountObtained - info.pieceLen i
        inactiveRequests := Function.update (closed t i).inactiveRequests i .untouched
        amountInactive := (closed t i).amountInactive + info.pieceLen i
        failedPieces := f } i = 0 := by
      unfold StorageWrapper.obtainedOf
      rw [if_neg (by exact hhas ▸ Bool.false_ne_true)]
      change ((((Function.update t.dirty i none i).getD []).map Prod.snd).sum : Int) = 0
      rw [Function.update_self]
      rfl
    rw [hnew]
    change t.amountObtained - info.pieceLen i = _
    rw [hspec.obtained]
    omega
  · have hnew : StorageWrapper.missingOf info { closed t i with
        amountObtained := (closed t i).amountObtained - info.pieceLen i
        inactiveRequests := Function.update (closed t i).inactiveRequests i .untouched
        amountInactive := (closed t i).amountInactive + info.pieceLen i
        failedPieces := f } i = info.pieceLen i := if_neg (by exact hhas ▸ Bool.false_ne_true)
    rw [hnew, hlast.missingOf]
    change t.amountLeft = _
    rw [hspec.left]
    omega

/-- What becomes of a chunk that was asked for. -/
theorem Books.pieceCameIn (hs : Books info s cut ((i, b, piece.length) :: out)) (source : Option Src) :
    ∃ a, pieceCameIn info s i b piece source = .ok a ∧ Books info a.storage cut out ∧ OnlyPiece s a.storage i ∧
      (a.kept = false → a.storage.inactiveRequests i = .untouched ∧ requestsOf out i = []) := by
  have hspec := received_spec s i b piece source
  refine ⟨_, pieceCameIn_eq hs source, ?_⟩
  rw [arrived_eq]
  have hnum := (hs.piece i).numactive
  rw [requestsOf_cons_self, List.length_cons] at hnum
  have hrequests : (StorageWrapper.received s i b piece source).doIHaveRequests i = s.doIHaveRequests i := by
    unfold doIHaveRequests
    rw [hspec.req]
  by_cases hopen : s.doIHaveRequests i = true ∨ requestsOf out i ≠ []
  · rw [if_pos]
    · exact ⟨hs.received source hopen, hspec.only, fun hbad => absurd hbad.symm Bool.false_ne_true⟩
    · rw [hrequests, Bool.or_eq_true]
      refine hopen.imp_right fun hne => ?_
      have := List.length_pos_iff.mpr hne
      rw [bne_iff_ne, hspec.numactive]
      omega
  · obtain ⟨hfree, hout⟩ := not_or.mp hopen
    have hfree := eq_false_of_ne_true hfree
    have hout := not_not.mp hout
    have hlast := hs.last hfree hout
    rw [if_neg]
    · have hcontent : (StorageWrapper.received s i b piece source).content i = patch (s.content i) b piece := hspec.content
      rw [hcontent]
      split
      · rename_i hsha
        refine ⟨hs.passed source hlast hsha, (hspec.only.trans (onlyPiece_closed _ i)).trans (onlyPiece_pass info _ i), ?_⟩
        exact fun hbad => absurd hbad.symm Bool.false_ne_true
      · refine ⟨hs.flunked source hlast, (hspec.only.trans (onlyPiece_closed _ i)).trans (onlyPiece_flunk info _ i), fun _ => ⟨?_, hout⟩⟩
        obtain ⟨f, hf, -, -⟩ := flunk_storage info (closed (StorageWrapper.received s i b piece source) i) i
        rw [hf]
        exact Function.update_self ..
    · rw [hrequests, hfree, Bool.false_or, hspec.numactive, hlast.numactive]
      exact Bool.false_ne_true

end Arriving

/-! ### At the start -/

theorem sum_pieceLen (info : TorrentInfo n) : ∑ i, (info.pieceLen i : Int) = info.totalLength := by
  cases n with
  | zero =>
    have hbig := info.notBig
    rw [Nat.mul_zero] at hbig
    rw [Nat.le_zero.mp hbig]
    rfl
  | succ m =>
    have hfirst : ∀ i : Fin m, info.pieceLen i.castSucc = info.pieceSize := fun i =>
      if_pos (Nat.succ_lt_succ i.isLt)
    have hlast : info.pieceLen (Fin.last m) = info.totalLength - m * info.pieceSize := if_neg (Nat.lt_irrefl _)
    have hsmall := info.notSmall
    have hm : ((m + 1 : Nat) : Int) - 1 = m := by omega
    rw [hm, ← Int.natCast_mul] at hsmall
    have hcomm := Nat.mul_comm info.pieceSize m
    rw [Fin.sum_univ_castSucc, Finset.sum_congr rfl fun i _ => congrArg Nat.cast (hfirst i), Finset.sum_const,
      Finset.card_univ, Fintype.card_fin, nsmul_eq_mul, hlast, ← Int.natCast_mul]
    omega

theorem Books.new (info : TorrentInfo n) {content : Fin n → Bytes} (hcontent : ∀ i, (content i).length = info.pieceLen i)
    (cut : Fin n → List (Nat × Nat)) : Books info (new info content : StorageWrapper n Src) cut [] where
  piece := fun i => ⟨.untouched rfl rfl rfl rfl, rfl, fun hne => absurd rfl hne, fun _ => rfl, hcontent i,
    fun hbad => absurd hbad.symm Bool.false_ne_true.symm⟩
  inactive := (sum_pieceLen info).symm
  obtained := (Finset.sum_eq_zero fun _ _ => rfl).symm
  desired := (sum_pieceLen info).symm
  left := (sum_pieceLen info).symm

theorem onlyPiece_markgot (info : TorrentInfo n) (s : StorageWrapper n Src) (i : Fin n) (data : Bytes) :
    OnlyPiece s (markgot info s i data) i :=
  ⟨rfl, rfl, fun _ hj => Function.update_of_ne hj _ _, fun _ hj => Function.update_of_ne hj _ _, fun _ _ => rfl,
    fun _ _ => rfl, fun _ _ => rfl, fun _ hj => Function.update_of_ne hj _ _, fun _ hj => Function.update_of_ne hj _ _,
    fun _ _ => rfl, fun _ _ => rfl⟩

/-- A piece that the check at the start found. -/
theorem Books.markgot (hs : Books info s cut out) (hi : s.blocked i = false) (hreq : s.inactiveRequests i = .untouched)
    {data : Bytes} (hlen : data.length = info.pieceLen i)
    (hdata : info.checkHashes = true → info.sha data = info.hashes i) : Books info (markgot info s i data) cut out := by
  have hpiece := hs.piece i
  have hreq' : (StorageWrapper.markgot info s i data).inactiveRequests i = .done := Function.update_self ..
  have hhas' : (StorageWrapper.markgot info s i data).has i = true := Function.update_self ..
  have hcontent : (StorageWrapper.markgot info s i data).content i = data := Function.update_self ..
  have hchecked : (StorageWrapper.markgot info s i data).waschecked i = info.checkHashes := Function.update_self ..
  cases hpiece.ranges with
  | chunks _ hbad => rw [hreq] at hbad; cases hbad
  | done hbad => rw [hreq] at hbad; cases hbad
  | untouched _ hhas hout hdirty =>
    refine hs.change hi (onlyPiece_markgot info s i data) (fun _ _ => rfl) (fun _ _ => rfl)
      ⟨.done hreq' hhas' hout hdirty, hpiece.numactive, hpiece.statActive, fun _ => hout, ?_, fun _ hc => ?_⟩ ?_ ?_ ?_
    · rw [hcontent, hlen]
    · rw [hcontent]
      exact hdata (hchecked.symm.trans hc)
    · rw [inactiveOf_untouched hreq, inactiveOf_done hreq']
      change s.amountInactive - info.pieceLen i = _
      omega
    · have hnew : (StorageWrapper.markgot info s i data).obtainedOf info i = info.pieceLen i := if_pos hhas'
      have hold : s.obtainedOf info i = 0 := by
        unfold obtainedOf
        rw [hhas, hdirty]
        rfl
      rw [hnew, hold]
      change s.amountObtained + info.pieceLen i = _
      omega
    · have hnew : (StorageWrapper.markgot info s i data).missingOf info i = 0 := if_pos hhas'
      have hold : s.missingOf info i = info.pieceLen i := if_neg (hhas ▸ Bool.false_ne_true)
      rw [hnew, hold]
      change s.amountLeft - info.pieceLen i = _
      omega

/-! ### What the amounts say -/

theorem inactiveOf_nonneg (info : TorrentInfo n) (s : StorageWrapper n Src) (i : Fin n) : 0 ≤ s.inactiveOf info i := by
  unfold inactiveOf
  split <;> omega

theorem Books.doIHaveRequests_iff (hs : Books info s cut out) (i : Fin n) :
    s.doIHaveRequests i = false ↔ s.inactiveOf info i = 0 := by
  have hpos := info.pieceLen_pos i
  unfold doIHaveRequests
  cases (hs.piece i).ranges with
  | untouched hreq =>
    rw [inactiveOf_untouched hreq, hreq]
    exact iff_of_false Bool.false_ne_true.symm (by omega)
  | chunks l hreq _ htiles hshared =>
    rw [inactiveOf_chunks hreq, hreq]
    cases l with
    | nil => exact iff_of_true rfl rfl
    | cons r rest =>
      have hr := htiles.pos (hshared.mem_iff.mp (List.mem_append_left _ (List.mem_append_left _ List.mem_cons_self)))
      rw [List.map_cons, List.sum_cons]
      exact iff_of_false Bool.false_ne_true.symm (by omega)
  | done hreq =>
    rw [inactiveOf_done hreq, hreq]
    exact iff_of_true rfl rfl

/-- The end game begins when nothing that is wanted is left to be asked for. -/
theorem Books.isEndgame_iff (hs : Books info s cut out) :
    s.isEndgame = true ↔ ∀ i, s.blocked i = false → s.doIHaveRequests i = false := by
  unfold isEndgame
  rw [beq_iff_eq, hs.inactive]
  unfold wanted
  rw [Finset.sum_eq_zero_iff_of_nonneg fun i _ => ?_]
  · refine forall_congr' fun i => ?_
    rw [hs.doIHaveRequests_iff i]
    cases s.blocked i <;> simp
  · split
    · exact Int.le_refl 0
    · exact inactiveOf_nonneg info s i

/-- A piece is all there when we have it and not before. -/
theorem Books.obtainedOf_le (hs : Books info s cut out) (i : Fin n) :
    s.obtainedOf info i ≤ info.pieceLen i ∧ (s.obtainedOf info i = info.pieceLen i ↔ s.has i = true) := by
  have hpos := info.pieceLen_pos i
  unfold obtainedOf
  cases (hs.piece i).ranges with
  | untouched _ hhas _ hdirty =>
    rw [hhas, hdirty]
    change (0 : Int) ≤ _ ∧ ((0 : Int) = _ ↔ _)
    exact ⟨by omega, iff_of_false (by omega) Bool.false_ne_true⟩
  | chunks l _ hhas htiles hshared _ hopen =>
    have hsum := hshared.sum Prod.snd
    rw [htiles.sum] at hsum
    rw [hhas, if_neg Bool.false_ne_true]
    have hlt : (((s.dirty i).getD []).map Prod.snd).sum < info.pieceLen i := by
      -- Some range is free or out, and none is empty.
      have hmem : ∃ r, r ∈ l ++ requestsOf out i := by
        rcases hopen with hne | hne
        · obtain ⟨r, hr⟩ := List.exists_mem_of_ne_nil _ hne
          exact ⟨r, List.mem_append_left _ hr⟩
        · obtain ⟨r, hr⟩ := List.exists_mem_of_ne_nil _ hne
          exact ⟨r, List.mem_append_right _ hr⟩
      obtain ⟨r, hr⟩ := hmem
      have hpos := htiles.pos (hshared.mem_iff.mp (List.mem_append_left _ hr))
      have hle : r.2 ≤ ((l ++ requestsOf out i).map Prod.snd).sum := List.single_le_sum (fun x _ => Nat.zero_le x) _ (List.mem_map_of_mem hr)
      rw [List.map_append, List.sum_append] at hle
      omega
    exact ⟨by omega, iff_of_false (by omega) Bool.false_ne_true⟩
  | done _ hhas =>
    rw [hhas]
    exact ⟨Int.le_refl _, iff_of_true rfl rfl⟩

theorem Books.amIComplete_iff (hs : Books info s cut out) :
    s.amIComplete = true ↔ ∀ i, s.blocked i = false → s.has i = true := by
  unfold amIComplete
  rw [beq_iff_eq, hs.obtained, hs.desired]
  unfold wanted
  rw [Finset.sum_eq_sum_iff_of_le fun i _ => ?_]
  · refine forall_congr' fun i => ?_
    rw [← (hs.obtainedOf_le i).2]
    cases s.blocked i <;> simp
  · split
    · exact Int.le_refl 0
    · exact (hs.obtainedOf_le i).1

/-- With nothing left to be asked for and nothing there, every range of a piece is asked for. -/
theorem Books.all_out (hs : Books info s cut out) (hhas : s.has i = false) (hfree : s.doIHaveRequests i = false)
    (hdirty : s.dirty i = none) (hr : r ∈ cut i) : (i, r) ∈ out := by
  unfold doIHaveRequests at hfree
  cases (hs.piece i).ranges with
  | untouched hreq => rw [hreq] at hfree; cases hfree
  | done _ hbad => exact absurd (hhas.symm.trans hbad) Bool.false_ne_true
  | chunks l hreq _ _ hshared =>
    rw [hreq] at hfree
    have hnil : l = [] := by
      cases l with
      | nil => rfl
      | cons a rest => cases hfree
    rw [hnil, hdirty, Option.getD_none] at hshared
    have hperm : (requestsOf out i).Perm (cut i) := by
      have h : ([] ++ requestsOf out i ++ []).Perm (cut i) := hshared
      rwa [List.nil_append, List.append_nil] at h
    exact mem_requestsOf.mp (hperm.mem_iff.mpr hr)

/-- Each range of a piece that we do not have is free, asked for or there, and none is twice. -/
theorem Books.shared (hs : Books info s info.cut out) (i : Fin n) :
    if s.has i then freeOf info s i = [] ∧ requestsOf out i = [] ∧ s.dirty i = none
    else Shared (info.cut i) (freeOf info s i) (requestsOf out i) ((s.dirty i).getD []) := by
  cases (hs.piece i).ranges with
  | untouched hreq hhas hout hdirty =>
    rw [hhas, if_neg Bool.false_ne_true, freeOf_untouched hreq, hout, hdirty]
    exact .all _
  | chunks l hreq hhas _ hshared =>
    rw [hhas, if_neg Bool.false_ne_true, freeOf_chunks hreq]
    exact hshared
  | done hreq hhas hout hdirty =>
    rw [if_pos hhas]
    refine ⟨?_, hout, hdirty⟩
    unfold freeOf
    rw [hreq]

/-- How often a piece can be asked for. -/
theorem Books.freeOf_le (hs : Books info s info.cut out) (i : Fin n) : (freeOf info s i).length ≤ info.pieceLen i := by
  have hle := (info.tiles_cut i).length_le
  have hshared := hs.shared i
  split at hshared
  · rw [hshared.1]
    exact Nat.zero_le _
  · have hlen := List.Perm.length_eq hshared
    simp only [List.length_append] at hlen
    omega

/-! ### Blocking -/

def withAmounts (s : StorageWrapper n Src) (inactive obtained desired : Int) : StorageWrapper n Src :=
  { s with amountInactive := inactive, amountObtained := obtained, amountDesired := desired }

/-- With no request of a piece out, what is not free has come. -/
theorem Books.shiftAmounts (hs : Books info s cut out) (hout : requestsOf out i = []) (sign a b c : Int) :
    shiftAmounts info (withAmounts s a b c) sign i = .ok (withAmounts s (a + sign * s.inactiveOf info i)
      (b + sign * s.obtainedOf info i) (c + sign * info.pieceLen i)) := by
  have hranges := (hs.piece i).ranges
  rw [hout] at hranges
  unfold StorageWrapper.shiftAmounts
  change (if s.has i = true then _ else match s.inactiveRequests i with
    | .untouched => _
    | .chunks l => _
    | .done => _) = _
  unfold obtainedOf
  cases hranges with
  | untouched hreq hhas _ hdirty =>
    rw [hreq, hhas, hdirty, inactiveOf_untouched hreq, if_neg Bool.false_ne_true, if_neg Bool.false_ne_true]
    change _ = Except.ok (withAmounts s _ (b + sign * 0) _)
    rw [Int.mul_zero, Int.add_zero]
    rfl
  | chunks l hreq hhas htiles hshared =>
    have hsum := hshared.sum Prod.snd
    rw [htiles.sum, List.map_nil, List.sum_nil] at hsum
    have hrest : (info.pieceLen i : Int) - ((l.map Prod.snd).sum : Nat) = ((((s.dirty i).getD []).map Prod.snd).sum : Nat) := by
      omega
    rw [hreq, hhas, inactiveOf_chunks hreq, if_neg Bool.false_ne_true, if_neg Bool.false_ne_true, ← hrest]
    rfl
  | done hreq hhas =>
    rw [hhas, inactiveOf_done hreq, if_pos rfl, if_pos rfl, Int.mul_zero, Int.add_zero]
    rfl

/-- What the change of the blocks of a piece adds to an amount. -/
def blockDelta (s : StorageWrapper n Src) (newBlocked : Fin n → Bool) (f : Fin n → Int) (i : Fin n) : Int :=
  if newBlocked i && !s.blocked i then -1 * f i else if s.blocked i && !newBlocked i then 1 * f i else 0

theorem Books.reblockEach (hs : Books info s cut out) {newBlocked : Fin n → Bool}
    (hout : ∀ i, newBlocked i ≠ s.blocked i → requestsOf out i = []) (l : List (Fin n)) (a b c : Int) :
    reblockEach info newBlocked l (withAmounts s a b c) = .ok (withAmounts s
      (a + (l.map (s.blockDelta newBlocked (s.inactiveOf info))).sum) (b + (l.map (s.blockDelta newBlocked (s.obtainedOf info))).sum)
      (c + (l.map (s.blockDelta newBlocked fun i => info.pieceLen i)).sum)) := by
  induction l generalizing a b c with
  | nil =>
    simp only [List.map_nil, List.sum_nil, Int.add_zero]
    rfl
  | cons i rest ih =>
    have hblocked : (withAmounts s a b c).blocked i = s.blocked i := rfl
    rw [StorageWrapper.reblockEach, hblocked]
    simp only [List.map_cons, List.sum_cons, ← Int.add_assoc]
    unfold blockDelta
    split
    · rename_i hnew
      have hne : newBlocked i ≠ s.blocked i := by
        rintro heq
        rw [heq, Bool.and_not_self] at hnew
        exact Bool.false_ne_true hnew
      rw [hs.shiftAmounts (hout i hne)]
      exact ih _ _ _
    · split
      · rename_i hold
        have hne : newBlocked i ≠ s.blocked i := by
          rintro heq
          rw [heq, Bool.and_not_self] at hold
          exact Bool.false_ne_true hold
        rw [hs.shiftAmounts (hout i hne)]
        exact ih _ _ _
      · simp only [Int.add_zero]
        exact ih _ _ _

theorem wanted_reblocked (s : StorageWrapper n Src) (newBlocked : Fin n → Bool) (f : Fin n → Int) :
    s.wanted f + ((List.finRange n).map (s.blockDelta newBlocked f)).sum = ∑ i, if newBlocked i then 0 else f i := by
  rw [← Fin.sum_univ_def]
  unfold wanted
  rw [← Finset.sum_add_distrib]
  refine Finset.sum_congr rfl fun i _ => ?_
  unfold blockDelta
  cases newBlocked i <;> cases s.blocked i <;> simp

/-- Pieces of which nothing is asked for may be blocked and unblocked. -/
theorem Books.reblock (hs : Books info s cut out) {newBlocked : Fin n → Bool}
    (hout : ∀ i, newBlocked i ≠ s.blocked i → requestsOf out i = []) :
    ∃ a b c, reblock info s newBlocked = .ok { withAmounts s a b c with blocked := newBlocked } ∧
      Books info { withAmounts s a b c with blocked := newBlocked } cut out := by
  have hrun := hs.reblockEach hout (List.finRange n) s.amountInactive s.amountObtained s.amountDesired
  have hself : withAmounts s s.amountInactive s.amountObtained s.amountDesired = s := rfl
  rw [hself] at hrun
  unfold StorageWrapper.reblock
  rw [hrun]
  refine ⟨_, _, _, rfl, fun i => ?_, ?_, ?_, ?_, hs.left⟩
  · have hpiece := hs.piece i
    refine ⟨?_, hpiece.numactive, hpiece.statActive, fun hb => ?_, hpiece.content, hpiece.checked⟩
    · cases hpiece.ranges with
      | untouched hreq hhas ho hdirty => exact .untouched hreq hhas ho hdirty
      | chunks l hreq hhas htiles hshared hsorted hopen => exact .chunks l hreq hhas htiles hshared hsorted hopen
      | done hreq hhas ho hdirty => exact .done hreq hhas ho hdirty
    · have hb' : newBlocked i = true := hb
      by_cases heq : newBlocked i = s.blocked i
      · exact hpiece.blocked (heq ▸ hb')
      · exact hout i heq
  · change s.amountInactive + _ = _
    rw [hs.inactive]
    exact wanted_reblocked s newBlocked (s.inactiveOf info)
  · change s.amountObtained + _ = _
    rw [hs.obtained]
    exact wanted_reblocked s newBlocked (s.obtainedOf info)
  · change s.amountDesired + _ = _
    rw [hs.desired]
    exact wanted_reblocked s newBlocked fun i => info.pieceLen i

/-! ### Reading for an uploader -/

/-- A piece is remembered as checked once its data had its hash. -/
theorem Books.remember (hs : Books info s cut out) (hsha : info.sha (s.content i) = info.hashes i) :
    Books info { s with waschecked := Function.update s.waschecked i true } cut out := by
  refine ⟨fun j => ?_, hs.inactive, hs.obtained, hs.desired, hs.left⟩
  have hpiece := hs.piece j
  refine ⟨?_, hpiece.numactive, hpiece.statActive, hpiece.blocked, hpiece.content, fun hhas hc => ?_⟩
  · cases hpiece.ranges with
    | untouched hreq hhas ho hdirty => exact .untouched hreq hhas ho hdirty
    | chunks l hreq hhas htiles hshared hsorted hopen => exact .chunks l hreq hhas htiles hshared hsorted hopen
    | done hreq hhas ho hdirty => exact .done hreq hhas ho hdirty
  · by_cases hj : j = i
    · exact hj ▸ hsha
    · exact hpiece.checked hhas ((Function.update_of_ne hj _ _).symm.trans hc)

/-- What an uploader gets are bytes of a piece that has its hash. -/
theorem Books.getPiece (hs : Books info s cut out) (i : Fin n) (b : Nat) (length : Option Nat) :
    Books info (getPiece info s i b length).2.1 cut out ∧
      ∀ data, (getPiece info s i b length).1 = some data →
        s.has i = true ∧ info.sha (s.content i) = info.hashes i ∧
          ∃ k, data = slice (s.content i) b k ∧ b + k ≤ info.pieceLen i := by
  unfold StorageWrapper.getPiece
  cases hhas : s.has i with
  | false => exact ⟨hs, fun _ hnone => by cases hnone⟩
  | true =>
    rw [Bool.not_true, if_neg Bool.false_ne_true]
    by_cases hbad : (!s.waschecked i && info.sha (s.content i) != info.hashes i) = true
    · rw [if_pos hbad]
      exact ⟨hs, fun _ hnone => by cases hnone⟩
    · have hsha : info.sha (s.content i) = info.hashes i := by
        cases hc : s.waschecked i with
        | true => exact (hs.piece i).checked hhas hc
        | false =>
          rw [hc] at hbad
          simpa using hbad
      rw [if_neg hbad]
      have ht := hs.remember hsha
      cases length with
      | none =>
        dsimp only
        split
        · exact ⟨ht, fun _ hnone => by cases hnone⟩
        · refine ⟨ht, fun data hdata => ⟨rfl, hsha, info.pieceLen i - b, (Option.some.inj hdata).symm, ?_⟩⟩
          omega
      | some k =>
        dsimp only
        split
        · exact ⟨ht, fun _ hnone => by cases hnone⟩
        · refine ⟨ht, fun data hdata => ⟨rfl, hsha, k, (Option.some.inj hdata).symm, ?_⟩⟩
          omega

end StorageWrapper

end BitBlinder
