import BitBlinder.BitTorrent.DownloadRuns
import Mathlib.Data.List.ReduceOption

/-!
# Who is told to have sent bad data

A piece without its hash is fetched again. If one peer sent all of it that peer is reported, and
otherwise those whose parts turn out to differ once the piece has its hash. `good` are the pieces
that the hashes are of. `PieceStep` is what a step does to the data of one piece.
-/

namespace BitBlinder

set_option autoImplicit false

open Struct (Bytes)
open Tiling (slice patch)

/-- The piece that an event of the storage is about. -/
def StorageEvent.About {n : Nat} {Src : Type} (i : Fin n) : StorageEvent n Src → Prop
  | .dataFlunked _ k => k = i
  | .failed _ k _ => k = i
  | .good _ k => k = i
  | .finished => False
  | .failure _ => False

/-- The data that the hashes are of: nothing else has them. -/
structure TorrentInfo.Goal {n : Nat} (info : TorrentInfo n) (good : Fin n → Bytes) : Prop where
  length : ∀ i, (good i).length = info.pieceLen i
  hash : ∀ i, info.sha (good i) = info.hashes i
  only : ∀ i data, data.length = info.pieceLen i → info.sha data = info.hashes i → data = good i

namespace StorageWrapper
variable {n : Nat} {Src : Type} {info : TorrentInfo n} {good : Fin n → Bytes} {s t s₀ : StorageWrapper n Src}
  {i k : Fin n} {r : Nat × Nat} {j : Src} {out : List (Request n)}

/-- The sender that is written down for a part. -/
def senderOf (s : StorageWrapper n Src) (i : Fin n) (b : Nat) : Option (Option Src) :=
  (s.downloadHistory i).bind fun h => h.lookup b

def partOf (s : StorageWrapper n Src) (i : Fin n) (r : Nat × Nat) : Bytes := slice (s.content i) r.1 r.2

/-- The parts that came since the piece was last begun. -/
def cameOf (s : StorageWrapper n Src) (i : Fin n) : List (Nat × Nat) := (s.dirty i).getD []

structure SamePiece (s t : StorageWrapper n Src) (i : Fin n) : Prop where
  has : t.has i = s.has i
  dirty : t.dirty i = s.dirty i
  history : t.downloadHistory i = s.downloadHistory i
  failed : t.failedPieces i = s.failedPieces i
  content : t.content i = s.content i

theorem SameData.samePiece (h : SameData s t) (i : Fin n) : SamePiece s t i :=
  ⟨congrFun h.has i, congrFun h.dirty i, congrFun h.history i, congrFun h.failed i, congrFun h.content i⟩

theorem OnlyPiece.samePiece (h : OnlyPiece s t k) (hi : i ≠ k) : SamePiece s t i :=
  ⟨h.has i hi, h.dirty i hi, h.history i hi, h.failed i hi, h.content i hi⟩

theorem getPiece_same (info : TorrentInfo n) (s : StorageWrapper n Src) (i k : Fin n) (b : Nat) (length : Option Nat) :
    SamePiece s (getPiece info s k b length).2.1 i ∧ ∀ ev ∈ (getPiece info s k b length).2.2, ¬ev.About i := by
  have hnone : ∀ ev ∈ ([] : List (StorageEvent n Src)), ¬ev.About i := fun _ hbad => absurd hbad List.not_mem_nil
  unfold getPiece
  split
  · exact ⟨⟨rfl, rfl, rfl, rfl, rfl⟩, hnone⟩
  · split
    · refine ⟨⟨rfl, rfl, rfl, rfl, rfl⟩, fun ev hev habout => ?_⟩
      rw [List.mem_singleton.mp hev] at habout
      exact habout
    · cases length <;> dsimp only <;> split <;> exact ⟨⟨rfl, rfl, rfl, rfl, rfl⟩, hnone⟩

theorem SamePiece.trans {u : StorageWrapper n Src} (h : SamePiece s t i) (h' : SamePiece t u i) : SamePiece s u i :=
  ⟨h'.has.trans h.has, h'.dirty.trans h.dirty, h'.history.trans h.history, h'.failed.trans h.failed,
    h'.content.trans h.content⟩

theorem SamePiece.senderOf (h : SamePiece s t i) (b : Nat) : t.senderOf i b = s.senderOf i b := by
  unfold StorageWrapper.senderOf
  rw [h.history]

theorem SamePiece.partOf (h : SamePiece s t i) (r : Nat × Nat) : t.partOf i r = s.partOf i r := by
  unfold StorageWrapper.partOf
  rw [h.content]

theorem SamePiece.cameOf (h : SamePiece s t i) : t.cameOf i = s.cameOf i := by
  unfold StorageWrapper.cameOf
  rw [h.dirty]

/-- Parts that begin at the same place are the same. -/
theorem begin_ne {q : Nat × Nat} (hr : r ∈ info.cut i) (hq : q ∈ info.cut i) (hne : r ≠ q) : r.1 ≠ q.1 := by
  have hdis := (info.tiles_cut i).disjoint hr hq hne
  have hpos := (info.tiles_cut i).pos hr
  have hpos' := (info.tiles_cut i).pos hq
  omega

theorem mem_sources {b : Nat} {x : Option Src} (h : s.senderOf i b = some x) : x ∈ sources s i := by
  unfold senderOf at h
  obtain ⟨history, hhistory, hlookup⟩ := Option.bind_eq_some_iff.mp h
  unfold sources
  rw [hhistory, Option.map_some, Option.getD_some]
  exact List.mem_map.mpr ⟨⟨b, x⟩, AList.mem_lookup_iff.mp hlookup, rfl⟩

/-! ### Honest senders -/

/-- What is written down about a sender that only sends `good`. -/
structure Fair (info : TorrentInfo n) (good : Fin n → Bytes) (j : Src) (s : StorageWrapper n Src) (i : Fin n) : Prop where
  sent : ∀ r ∈ info.cut i, s.senderOf i r.1 = some (some j) → s.partOf i r = slice (good i) r.1 r.2
  known : ∀ r ∈ s.cameOf i, s.senderOf i r.1 ≠ none
  accused : ∀ l, s.failedPieces i = some l → some j ∈ l → ∃ r ∈ s.cameOf i, s.partOf i r ≠ slice (good i) r.1 r.2

theorem Fair.same (hf : Fair info good j s i) (h : SamePiece s t i) : Fair info good j t i := by
  refine ⟨fun r hr hsender => ?_, fun r hr => ?_, fun l hl hmem => ?_⟩
  · rw [h.partOf]
    exact hf.sent r hr (h.senderOf r.1 ▸ hsender)
  · rw [h.senderOf]
    exact hf.known r (h.cameOf ▸ hr)
  · rw [h.cameOf]
    simp only [h.partOf]
    exact hf.accused l (h.failed ▸ hl) hmem

theorem mem_cut_of_came (hs : Books info s info.cut out) (hr : r ∈ s.cameOf i) : r ∈ info.cut i := by
  have hshared := hs.shared i
  split at hshared
  · unfold cameOf at hr
    rw [hshared.2.2] at hr
    cases hr
  · exact hshared.mem_iff.mp (List.mem_append_right _ hr)

/-- A part that came is not there yet. -/
theorem Books.not_came (hs : Books info s info.cut ((i, r) :: out)) : r ∈ info.cut i ∧ r ∉ s.cameOf i := by
  obtain ⟨-, -, l, -, htiles, hshared, -⟩ := hs.asked
  refine ⟨hshared.mem_whole List.mem_cons_self, fun hmem => ?_⟩
  have hnodup := hshared.nodup htiles.nodup
  exact List.disjoint_of_nodup_append hnodup (List.mem_append_right _ List.mem_cons_self) hmem

theorem content_of_goal (hgoal : info.Goal good) (hlength : (s.content i).length = info.pieceLen i) :
    info.sha (s.content i) = info.hashes i ↔ ∀ r ∈ info.cut i, s.partOf i r = slice (good i) r.1 r.2 := by
  constructor
  · intro hsha r _
    unfold partOf
    rw [hgoal.only i _ hlength hsha]
  · intro hall
    have htiles := info.tiles_cut i
    rw [← hlength] at htiles
    rw [htiles.ext ((hgoal.length i).trans hlength.symm) hall]
    exact hgoal.hash i

theorem cameOf_closed (s : StorageWrapper n Src) (i : Fin n) : (closed s i).cameOf i = [] := by
  unfold cameOf closed
  dsimp only
  rw [Function.update_self]
  rfl

theorem cameOf_pass (info : TorrentInfo n) (s : StorageWrapper n Src) (i : Fin n) :
    (pass info s i).storage.cameOf i = s.cameOf i := rfl

theorem failed_pass (info : TorrentInfo n) (s : StorageWrapper n Src) (i : Fin n) :
    (pass info s i).storage.failedPieces i = none := Function.update_self ..

theorem senderOf_pass (info : TorrentInfo n) (s : StorageWrapper n Src) (i : Fin n) (b : Nat) :
    (pass info s i).storage.senderOf i b = none := by
  have hnone : (pass info s i).storage.downloadHistory i = none := Function.update_self ..
  unfold senderOf
  rw [hnone]
  rfl

/-- Those that sent something else before are reported. -/
theorem mem_pass {bump : Bool} : StorageEvent.failed j k bump ∈ (pass info s i).events ↔
    k = i ∧ bump = false ∧ ∃ l, s.failedPieces i = some l ∧ some j ∈ l := by
  unfold pass
  dsimp only
  rw [List.mem_append, List.mem_append, List.mem_map, List.mem_map]
  constructor
  · rintro ((⟨d, -, h⟩ | ⟨d, hd, h⟩) | h)
    · cases h
    · cases h
      cases hf : s.failedPieces i with
      | none =>
        rw [hf] at hd
        cases hd
      | some l =>
        rw [hf] at hd
        exact ⟨rfl, rfl, l, rfl, List.reduceOption_mem_iff.mp hd⟩
    · split at h
      · cases List.mem_singleton.mp h
      · cases h
  · rintro ⟨rfl, rfl, l, hl, hmem⟩
    refine Or.inl (Or.inr ⟨j, ?_, rfl⟩)
    rw [hl]
    exact List.reduceOption_mem_iff.mpr hmem

/-! ### A part that came -/

section Arriving
variable [DecidableEq Src] {b : Nat} {piece : Bytes} {source : Option Src}

theorem history_received (s : StorageWrapper n Src) (i : Fin n) (b : Nat) (piece : Bytes) (source : Option Src) :
    (received s i b piece source).downloadHistory i = some (((s.downloadHistory i).getD ∅).insert b source) := by
  obtain ⟨f, hf, -⟩ := suspect_cases s i b piece
  unfold received
  rw [hf]
  exact Function.update_self ..

theorem senderOf_received_self (s : StorageWrapper n Src) (i : Fin n) (b : Nat) (piece : Bytes) (source : Option Src) :
    (received s i b piece source).senderOf i b = some source := by
  unfold senderOf
  rw [history_received]
  exact AList.lookup_insert _

theorem senderOf_received_of_ne {b' : Nat} (h : b' ≠ b) (s : StorageWrapper n Src) (i : Fin n) (piece : Bytes)
    (source : Option Src) : (received s i b piece source).senderOf i b' = s.senderOf i b' := by
  unfold senderOf
  rw [history_received]
  change AList.lookup b' _ = _
  rw [AList.lookup_insert_ne h]
  cases s.downloadHistory i with
  | none => exact AList.lookup_empty b'
  | some h => rfl

theorem failed_received (s : StorageWrapper n Src) (i : Fin n) (b : Nat) (piece : Bytes) (source : Option Src) :
    (received s i b piece source).failedPieces i = (s.failedPieces i).map fun l =>
      if s.partOf i (b, piece.length) = piece then l else l.insert (s.senderOf i b).join := by
  change (suspect s i b piece).failedPieces i = _
  unfold suspect partOf senderOf
  cases hf : s.failedPieces i with
  | none => exact hf
  | some l =>
    dsimp only
    split
    · exact hf
    · exact Function.update_self ..

theorem cameOf_received (s : StorageWrapper n Src) (i : Fin n) (b : Nat) (piece : Bytes) (source : Option Src) :
    (received s i b piece source).cameOf i = s.cameOf i ++ [(b, piece.length)] := by
  unfold cameOf
  rw [(received_spec s i b piece source).dirty]
  rfl

theorem partOf_received_self (hs : Books info s info.cut ((i, b, piece.length) :: out)) (source : Option Src) :
    (received s i b piece source).partOf i (b, piece.length) = piece := by
  obtain ⟨-, -, l, -, htiles, hshared, -⟩ := hs.asked
  have hbounds := htiles.bounds (hshared.mem_whole List.mem_cons_self)
  unfold partOf
  rw [(received_spec s i b piece source).content]
  refine Tiling.slice_patch_self ?_
  rw [(hs.piece i).content]
  exact (Nat.le_add_right _ _).trans hbounds.2.2

theorem partOf_received_of_ne (hs : Books info s info.cut ((i, b, piece.length) :: out)) (source : Option Src)
    (hr : r ∈ info.cut i) (hne : r ≠ (b, piece.length)) : (received s i b piece source).partOf i r = s.partOf i r := by
  obtain ⟨-, -, l, -, htiles, hshared, -⟩ := hs.asked
  have hmem : (b, piece.length) ∈ info.cut i := hshared.mem_whole List.mem_cons_self
  unfold partOf
  rw [(received_spec s i b piece source).content]
  refine Tiling.slice_patch_disjoint ?_ (htiles.disjoint hr hmem hne)
  rw [(hs.piece i).content]
  exact (htiles.bounds hmem).2.2

/-- What becomes of a part that was asked for. -/
inductive Took (info : TorrentInfo n) (s : StorageWrapper n Src) (i : Fin n) (b : Nat) (piece : Bytes) (source : Option Src)
    (a : Arrival n Src) : Prop where
  | part (h : a = ⟨true, received s i b piece source, []⟩)
  | passed (hall : (s.cameOf i ++ [(b, piece.length)]).Perm (info.cut i))
      (hsha : info.sha ((received s i b piece source).content i) = info.hashes i)
      (h : a = pass info (closed (received s i b piece source) i) i)
  | flunked (hall : (s.cameOf i ++ [(b, piece.length)]).Perm (info.cut i))
      (hsha : info.sha ((received s i b piece source).content i) ≠ info.hashes i)
      (h : a = flunk info (closed (received s i b piece source) i) i)

theorem Books.took (hs : Books info s info.cut ((i, b, piece.length) :: out)) {a : Arrival n Src}
    (h : StorageWrapper.pieceCameIn info s i b piece source = .ok a) : Took info s i b piece source a := by
  rw [pieceCameIn_eq hs, arrived_eq] at h
  have ha := (Except.ok.inj h).symm
  have hspec := received_spec s i b piece source
  obtain ⟨-, -, l, hreq, -, hshared, -⟩ := hs.asked
  have hnum := (hs.piece i).numactive
  rw [requestsOf_cons_self, List.length_cons] at hnum
  split at ha
  · exact .part ha
  · rename_i hclosed
    rw [Bool.or_eq_true, not_or, bne_iff_ne, not_not, hspec.numactive] at hclosed
    obtain ⟨hfree, hnone⟩ := hclosed
    have hfree : l = [] := by
      unfold doIHaveRequests at hfree
      rw [hspec.req, hreq] at hfree
      cases l with
      | nil => rfl
      | cons q rest => exact absurd rfl hfree
    have hout : requestsOf out i = [] := List.length_eq_zero_iff.mp (by omega)
    rw [hfree, hout] at hshared
    have hall : (s.cameOf i ++ [(b, piece.length)]).Perm (info.cut i) := (List.perm_append_singleton _ _).trans hshared
    split at ha
    · rename_i hsha
      exact .passed hall hsha ha
    · rename_i hsha
      exact .flunked hall hsha ha

/-! ### What is reported -/

theorem senderOf_flunk (info : TorrentInfo n) (s : StorageWrapper n Src) (i : Fin n) (b : Nat) :
    (flunk info s i).storage.senderOf i b = s.senderOf i b := by
  obtain ⟨f, hf, -⟩ := flunk_storage info s i
  rw [hf]
  rfl

theorem partOf_flunk (info : TorrentInfo n) (s : StorageWrapper n Src) (i : Fin n) (r : Nat × Nat) :
    (flunk info s i).storage.partOf i r = s.partOf i r := by
  obtain ⟨f, hf, -⟩ := flunk_storage info s i
  rw [hf]
  rfl

theorem cameOf_flunk (info : TorrentInfo n) (s : StorageWrapper n Src) (i : Fin n) :
    (flunk info s i).storage.cameOf i = s.cameOf i := by
  obtain ⟨f, hf, -⟩ := flunk_storage info s i
  rw [hf]
  rfl

theorem flunk_failed (info : TorrentInfo n) (s : StorageWrapper n Src) (i : Fin n) :
    ∀ l, (flunk info s i).storage.failedPieces i = some l → l = [] := by
  intro l hl
  unfold flunk at hl
  dsimp only at hl
  split at hl
  · dsimp only at hl
    rw [Function.update_self] at hl
    cases hl
  · dsimp only at hl
    rw [Function.update_self] at hl
    exact (Option.some.inj hl).symm

/-- The sender of all of a piece is reported. -/
theorem mem_flunk {bump : Bool} : StorageEvent.failed j k bump ∈ (flunk info s i).events ↔
    k = i ∧ bump = true ∧ (sources s i).dedup = [some j] := by
  unfold flunk
  dsimp only
  split
  · rename_i culprit hone
    rw [hone]
    cases culprit with
    | none =>
      refine iff_of_false (fun hmem => ?_) fun hbad => ?_
      · cases List.mem_singleton.mp hmem
      · cases (List.cons.inj hbad.2.2).1
    | some d =>
      rw [Option.toList_some, List.map_singleton, List.mem_pair]
      constructor
      · rintro (h | h)
        · cases h
        · cases h
          exact ⟨rfl, rfl, rfl⟩
      · rintro ⟨rfl, rfl, h⟩
        obtain rfl := Option.some.inj (List.cons.inj h).1
        exact Or.inr rfl
  · rename_i hmany
    refine iff_of_false (fun hmem => ?_) fun hbad => hmany _ hbad.2.2
    cases List.mem_singleton.mp hmem

theorem Fair.received (hf : Fair info good j s i) (hs : Books info s info.cut ((i, b, piece.length) :: out))
    (hhonest : source = some j → piece = slice (good i) b piece.length) :
    Fair info good j (received s i b piece source) i := by
  obtain ⟨hcut, hnew⟩ := hs.not_came
  have hold : ∀ r ∈ s.cameOf i, (StorageWrapper.received s i b piece source).partOf i r = s.partOf i r := by
    intro r hr
    refine partOf_received_of_ne hs source (mem_cut_of_came hs hr) ?_
    rintro rfl
    exact hnew hr
  refine ⟨fun r hr hsender => ?_, fun r hr => ?_, fun l hl hmem => ?_⟩
  · by_cases hne : r = (b, piece.length)
    · subst hne
      rw [senderOf_received_self] at hsender
      rw [partOf_received_self hs]
      exact hhonest (Option.some.inj hsender)
    · rw [senderOf_received_of_ne (begin_ne hr hcut hne)] at hsender
      rw [partOf_received_of_ne hs source hr hne]
      exact hf.sent r hr hsender
  · rw [cameOf_received] at hr
    by_cases hb : r.1 = b
    · rw [hb, senderOf_received_self]
      exact Option.some_ne_none _
    · rw [senderOf_received_of_ne hb]
      refine hf.known r ((List.mem_append.mp hr).resolve_right fun hbad => hb ?_)
      rw [List.mem_singleton.mp hbad]
  · rw [cameOf_received]
    rw [failed_received] at hl
    obtain ⟨l', hl', rfl⟩ := Option.map_eq_some_iff.mp hl
    have hbefore : some j ∈ l' → ∃ r ∈ s.cameOf i ++ [(b, piece.length)],
        (StorageWrapper.received s i b piece source).partOf i r ≠ slice (good i) r.1 r.2 := by
      intro hmem
      obtain ⟨r, hr, hbad⟩ := hf.accused l' hl' hmem
      exact ⟨r, List.mem_append_left _ hr, by rwa [hold r hr]⟩
    split at hmem
    · exact hbefore hmem
    · rename_i hdiffers
      rcases List.mem_insert_iff.mp hmem with hjoin | hmem
      · -- The sender of the part that was there sent it as it should be.
        have hsender : s.senderOf i b = some (some j) := Option.join_eq_some_iff.mp hjoin.symm
        have hgood := hf.sent _ hcut hsender
        refine ⟨_, List.mem_append_right _ (List.mem_singleton_self _), fun hbad => hdiffers ?_⟩
        rw [partOf_received_self hs] at hbad
        exact hgood.trans hbad.symm
      · exact hbefore hmem

theorem length_received (hs : Books info s info.cut ((i, b, piece.length) :: out)) (source : Option Src) :
    ((StorageWrapper.received s i b piece source).content i).length = info.pieceLen i := by
  obtain ⟨-, -, l, -, htiles, hshared, -⟩ := hs.asked
  rw [(received_spec s i b piece source).content, Tiling.length_patch, (hs.piece i).content]
  rw [(hs.piece i).content]
  exact (htiles.bounds (hshared.mem_whole List.mem_cons_self)).2.2

theorem Fair.took (hf : Fair info good j s i) (hgoal : info.Goal good) (hs : Books info s info.cut ((i, b, piece.length) :: out))
    {a : Arrival n Src} (h : Took info s i b piece source a) (hhonest : source = some j → piece = slice (good i) b piece.length) :
    Fair info good j a.storage i ∧ ∀ k bump, StorageEvent.failed j k bump ∉ a.events := by
  have hreceived := hf.received hs hhonest
  have hmatch := content_of_goal hgoal (length_received hs source)
  have hcame := cameOf_received s i b piece source
  cases h with
  | part h =>
    rw [h]
    exact ⟨hreceived, fun _ _ => List.not_mem_nil⟩
  | passed hall hsha h =>
    rw [h]
    refine ⟨⟨fun r _ hsender => ?_, fun r hr => ?_, fun l hl => ?_⟩, fun k bump hmem => ?_⟩
    · rw [senderOf_pass] at hsender
      cases hsender
    · rw [cameOf_pass, cameOf_closed] at hr
      cases hr
    · rw [failed_pass] at hl
      cases hl
    · obtain ⟨-, -, l, hl, hmem⟩ := mem_pass.mp hmem
      obtain ⟨r, hr, hbad⟩ := hreceived.accused l hl hmem
      exact hbad (hmatch.mp hsha r (hall.mem_iff.mp (hcame ▸ hr)))
  | flunked hall hsha h =>
    rw [h]
    refine ⟨⟨fun r hr hsender => ?_, fun r hr => ?_, fun l hl hmem => ?_⟩, fun k bump hmem => ?_⟩
    · rw [senderOf_flunk] at hsender
      rw [partOf_flunk]
      exact hreceived.sent r hr hsender
    · rw [cameOf_flunk, cameOf_closed] at hr
      cases hr
    · rw [flunk_failed info _ i l hl] at hmem
      cases hmem
    · -- All of the piece is of one honest sender.
      obtain ⟨-, -, hone⟩ := mem_flunk.mp hmem
      refine hsha (hmatch.mpr fun r hr => ?_)
      have hknown := hreceived.known r (hcame ▸ hall.mem_iff.mpr hr)
      obtain ⟨x, hx⟩ := Option.ne_none_iff_exists'.mp hknown
      have hmem : x ∈ (sources (closed (StorageWrapper.received s i b piece source) i) i).dedup := List.mem_dedup.mpr (mem_sources hx)
      rw [hone] at hmem
      exact hreceived.sent r hr (hx.trans (congrArg some (List.mem_singleton.mp hmem)))

theorem Took.about {a : Arrival n Src} (h : Took info s i b piece source a) {ev : StorageEvent n Src} (hev : ev ∈ a.events)
    (hk : ev.About k) : k = i := by
  cases h with
  | part h =>
    rw [h] at hev
    cases hev
  | passed _ _ h =>
    rw [h] at hev
    unfold pass at hev
    dsimp only at hev
    rw [List.mem_append, List.mem_append, List.mem_map, List.mem_map] at hev
    rcases hev with (⟨d, -, rfl⟩ | ⟨d, -, rfl⟩) | hev
    · exact hk.symm
    · exact hk.symm
    · split at hev
      · rw [List.mem_singleton.mp hev] at hk
        exact hk.elim
      · cases hev
  | flunked _ _ h =>
    rw [h] at hev
    have hflunked : ∀ l : List Src, ev ∈ StorageEvent.dataFlunked (info.pieceLen i) i :: l.map (fun d => .failed d i true) → k = i := by
      intro l hmem
      rcases List.mem_cons.mp hmem with rfl | hmem
      · exact hk.symm
      · obtain ⟨d, -, rfl⟩ := List.mem_map.mp hmem
        exact hk.symm
    unfold flunk at hev
    dsimp only at hev
    split at hev
    · exact hflunked _ hev
    · exact hflunked [] hev

/-! ### A piece that is fetched again -/

/-- Several peers sent a piece that did not have its hash, and no part of it came since. -/
structure Flunked (s : StorageWrapper n Src) (i : Fin n) : Prop where
  missing : s.has i = false
  failed : s.failedPieces i = some []
  came : s.cameOf i = []

/-- The piece is fetched again since `s₀`. -/
structure Again (info : TorrentInfo n) (s₀ s : StorageWrapper n Src) (i : Fin n) : Prop where
  missing : s.has i = false
  rest : ∀ r ∈ info.cut i, r ∉ s.cameOf i → s.partOf i r = s₀.partOf i r ∧ s.senderOf i r.1 = s₀.senderOf i r.1
  failed : ∃ l, s.failedPieces i = some l ∧
    ∀ x, x ∈ l ↔ ∃ r ∈ s.cameOf i, (s₀.senderOf i r.1).join = x ∧ s.partOf i r ≠ s₀.partOf i r

omit [DecidableEq Src] in
theorem Flunked.again (h : Flunked s i) : Again info s s i := by
  refine ⟨h.missing, fun _ _ _ => ⟨rfl, rfl⟩, [], h.failed, fun x => iff_of_false List.not_mem_nil ?_⟩
  rintro ⟨r, hr, -⟩
  rw [h.came] at hr
  cases hr

omit [DecidableEq Src] in
theorem Again.same (ha : Again info s₀ s i) (h : SamePiece s t i) : Again info s₀ t i := by
  refine ⟨h.has.trans ha.missing, fun r hr hnew => ?_, ?_⟩
  · rw [h.partOf, h.senderOf]
    exact ha.rest r hr (h.cameOf ▸ hnew)
  · rw [h.failed, h.cameOf]
    simp only [h.partOf]
    exact ha.failed

theorem Again.received (ha : Again info s₀ s i) (hs : Books info s info.cut ((i, b, piece.length) :: out)) :
    Again info s₀ (received s i b piece source) i := by
  obtain ⟨hcut, hnew⟩ := hs.not_came
  have hold : ∀ r ∈ s.cameOf i, (StorageWrapper.received s i b piece source).partOf i r = s.partOf i r := by
    intro r hr
    refine partOf_received_of_ne hs source (mem_cut_of_came hs hr) ?_
    rintro rfl
    exact hnew hr
  obtain ⟨hpart, hsender⟩ := ha.rest _ hcut hnew
  obtain ⟨l, hl, hmem⟩ := ha.failed
  have hfailed := failed_received s i b piece source
  rw [hl, Option.map_some] at hfailed
  refine ⟨(received_spec s i b piece source).has.trans ha.missing, fun r hr hr' => ?_, _, hfailed, fun x => ?_⟩
  · rw [cameOf_received, List.mem_append, not_or, List.mem_singleton] at hr'
    rw [partOf_received_of_ne hs source hr hr'.2, senderOf_received_of_ne (begin_ne hr hcut hr'.2)]
    exact ha.rest r hr hr'.1
  · have hlast : (∃ r ∈ s.cameOf i ++ [(b, piece.length)], (s₀.senderOf i r.1).join = x ∧
          (StorageWrapper.received s i b piece source).partOf i r ≠ s₀.partOf i r) ↔
        x ∈ l ∨ (s.senderOf i b).join = x ∧ s.partOf i (b, piece.length) ≠ piece := by
      simp only [List.mem_append, List.mem_singleton, or_and_right, exists_or, exists_eq_left]
      refine or_congr ?_ ?_
      · rw [hmem x]
        refine exists_congr fun r => and_congr_right fun hr => ?_
        rw [hold r hr]
      · rw [partOf_received_self hs, ← hpart, ← hsender, ne_comm]
    rw [cameOf_received, hlast]
    split
    · rename_i heq
      exact (or_iff_left fun hbad => hbad.2 heq).symm
    · rename_i hne
      rw [List.mem_insert_iff, or_comm, eq_comm]
      exact or_congr_right (and_iff_left hne).symm

/-- With its hash there, the peers whose parts were wrong are reported, and nobody else. -/
theorem Again.took (ha : Again info s₀ s i) (hgoal : info.Goal good) (hs : Books info s info.cut ((i, b, piece.length) :: out))
    {a : Arrival n Src} (h : Took info s i b piece source a) :
    (Again info s₀ a.storage i ∧ a.events = []) ∨ StorageEvent.dataFlunked (info.pieceLen i) i ∈ a.events ∨
      a.storage.has i = true ∧ ∀ j bump, StorageEvent.failed j i bump ∈ a.events ↔
        bump = false ∧ ∃ r ∈ info.cut i, s₀.senderOf i r.1 = some (some j) ∧ s₀.partOf i r ≠ slice (good i) r.1 r.2 := by
  have hreceived : Again info s₀ (StorageWrapper.received s i b piece source) i := ha.received hs
  cases h with
  | part h =>
    rw [h]
    exact Or.inl ⟨hreceived, rfl⟩
  | passed hall hsha h =>
    rw [h]
    refine Or.inr (Or.inr ⟨Function.update_self .., fun j bump => ?_⟩)
    have hmatch := (content_of_goal hgoal (length_received hs source)).mp hsha
    obtain ⟨l, hl, hmem⟩ := hreceived.failed
    have hfailed : (closed (StorageWrapper.received s i b piece source) i).failedPieces i = some l := hl
    rw [mem_pass, hfailed]
    simp only [Option.some.injEq, exists_eq_left', hmem, true_and, cameOf_received, Option.join_eq_some_iff]
    refine and_congr_right fun _ => exists_congr fun r => ?_
    rw [hall.mem_iff]
    refine and_congr_right fun hr => ?_
    rw [hmatch r hr, ne_comm]
  | flunked _ _ h =>
    rw [h]
    refine Or.inr (Or.inl ?_)
    unfold flunk
    dsimp only
    split
    · exact List.mem_cons_self
    · exact List.mem_singleton_self _

end Arriving

end StorageWrapper

namespace Downloader
open StorageWrapper (Books Fair Again Flunked SamePiece Took senderOf partOf)
variable {n : Nat} {info : TorrentInfo n} {good : Fin n → Bytes} {storage : StorageWrapper n Nat} {s t s₀ : Downloader n}
  {i : Fin n} {j : Nat} {as bs : List (Choices n × Event n)} {evs : List (StorageEvent n Nat)}

/-- What an event does to the data of a piece, and what is reported meanwhile. -/
inductive PieceStep (info : TorrentInfo n) (s t : Downloader n) (e : Event n) (i : Fin n) (evs : List (StorageEvent n Nat)) : Prop where
  | same (h : SamePiece s.storage t.storage i) (hevs : ∀ ev ∈ evs, ¬ev.About i)
  | came {j b : Nat} {piece : Bytes} {out : List (Request n)} {a : Arrival n Nat} (he : e = .piece j i b piece)
      (hbooks : Books info s.storage info.cut ((i, b, piece.length) :: out))
      (htook : Took info s.storage i b piece (some j) a) (h : SamePiece a.storage t.storage i) (hevs : evs = a.events)

theorem Moved.piece {e : Event n} (h : Moved info s t e) (i : Fin n) :
    ∃ evs, t.events = s.events ++ evs ∧ PieceStep info s t e i evs := by
  have hunmoved : Unmoved s t → ∃ evs, t.events = s.events ++ evs ∧ PieceStep info s t e i evs := fun hsame =>
    ⟨[], by rw [hsame.events, List.append_nil], .same (hsame.data.samePiece i) fun _ hbad => absurd hbad List.not_mem_nil⟩
  cases e with
  | piece j k b data =>
    rcases h with hsame | ⟨out, a, hbooks, hcame, hdata, hevents⟩
    · exact hunmoved hsame
    · refine ⟨a.events, hevents, ?_⟩
      have htook := hbooks.took hcame
      obtain ⟨a', hcame', -, honly, -⟩ := hbooks.pieceCameIn (some j)
      obtain rfl := Except.ok.inj (hcame'.symm.trans hcame)
      by_cases hik : i = k
      · subst hik
        exact .came rfl hbooks htook (hdata.samePiece i) rfl
      · exact .same ((honly.samePiece hik).trans (hdata.samePiece i)) fun ev hev habout => hik (htook.about hev habout)
  | upload k b length =>
    obtain ⟨hstorage, hevents⟩ := h
    obtain ⟨hsame, hnone⟩ := StorageWrapper.getPiece_same info s.storage i k b length
    exact ⟨_, hevents, .same (hstorage ▸ hsame) hnone⟩
  | _ => exact hunmoved h

/-- A peer sends the data that the hashes are of. -/
def Honest (good : Fin n → Bytes) (j : Nat) : Event n → Prop
  | .piece k i b data => k = j → data = slice (good i) b data.length
  | _ => True

instance (good : Fin n → Bytes) (j : Nat) : (e : Event n) → Decidable (Honest good j e)
  | .piece k i b data => inferInstanceAs (Decidable (k = j → data = slice (good i) b data.length))
  | .connected | .choke _ | .unchoke _ | .haveMessage _ _ | .bitfield _ _ | .snubbed _ | .disconnected _ | .pause _
  | .upload _ _ _ => .isTrue trivial

theorem PieceStep.fair {e : Event n} (h : PieceStep info s t e i evs) (hgoal : info.Goal good)
    (hf : Fair info good j s.storage i) (hhonest : Honest good j e) :
    Fair info good j t.storage i ∧ ∀ bump, StorageEvent.failed j i bump ∉ evs := by
  cases h with
  | same h hevs => exact ⟨hf.same h, fun bump hbad => hevs _ hbad rfl⟩
  | @came k b piece out a he hbooks htook h hevs =>
    obtain ⟨hf', hnone⟩ := hf.took hgoal hbooks htook fun hk => by
      rw [he] at hhonest
      exact hhonest (Option.some.inj hk)
    exact ⟨hf'.same h, fun bump => hevs ▸ hnone i bump⟩

theorem goal_example : exampleInfo.Goal exampleInfo.hashes where
  length := by decide
  hash := fun _ => rfl
  only := fun _ _ _ h => h

/-- The second peer of the example sends a wrong part. -/
def exampleWrong : List (Choices 2 × Event 2) :=
  let first : Fin 2 := ⟨0, Nat.two_pos⟩
  exampleEvents.take 6 ++ [(⟨[], [], []⟩, .piece 0 first 0 [1, 2]), (⟨[], [3, 3], []⟩, .piece 1 first 2 [9, 9])]

def exampleAgain : List (Choices 2 × Event 2) :=
  let first : Fin 2 := ⟨0, Nat.two_pos⟩
  [(⟨[], [], []⟩, .piece 0 first 0 [1, 2]), (⟨[], [], []⟩, .piece 0 first 2 [3, 4])]

/-- How far a piece is that is fetched again: it is reported about only when it has its hash. -/
def Judged (info : TorrentInfo n) (good : Fin n → Bytes) (s₀ s : StorageWrapper n Nat) (i : Fin n)
    (evs : List (StorageEvent n Nat)) : Prop :=
  Again info s₀ s i ∧ (∀ ev ∈ evs, ¬ev.About i) ∨ (∃ length, StorageEvent.dataFlunked length i ∈ evs) ∨
    s.has i = true ∧ ∀ j bump, StorageEvent.failed j i bump ∈ evs ↔
      bump = false ∧ ∃ r ∈ info.cut i, s₀.senderOf i r.1 = some (some j) ∧ s₀.partOf i r ≠ slice (good i) r.1 r.2

theorem Judged.step {e : Event n} {evs₀ : List (StorageEvent n Nat)} (hj : Judged info good s₀.storage s.storage i evs₀)
    (hgoal : info.Goal good) (h : PieceStep info s t e i evs) : Judged info good s₀.storage t.storage i (evs₀ ++ evs) := by
  rcases hj with ⟨hagain, hquiet⟩ | ⟨length, hflunked⟩ | ⟨hhas, hreport⟩
  · cases h with
    | same h hevs =>
      exact Or.inl ⟨hagain.same h, fun ev hev => (List.mem_append.mp hev).elim (hquiet ev) (hevs ev)⟩
    | came _ hbooks htook h hevs =>
      rw [hevs]
      rcases hagain.took hgoal hbooks htook with ⟨hagain', hnil⟩ | hflunked | ⟨hhas, hreport⟩
      · rw [hnil, List.append_nil]
        exact Or.inl ⟨hagain'.same h, hquiet⟩
      · exact Or.inr (Or.inl ⟨_, List.mem_append_right _ hflunked⟩)
      · refine Or.inr (Or.inr ⟨h.has.trans hhas, fun j bump => ?_⟩)
        rw [List.mem_append, or_iff_right fun hbad => hquiet (.failed j i bump) hbad rfl]
        exact hreport j bump
  · exact Or.inr (Or.inl ⟨length, List.mem_append_left _ hflunked⟩)
  · cases h with
    | same h hevs =>
      refine Or.inr (Or.inr ⟨h.has.trans hhas, fun j bump => ?_⟩)
      rw [List.mem_append, or_iff_left fun hbad => hevs (.failed j i bump) hbad rfl]
      exact hreport j bump
    | came _ hbooks => exact absurd (hhas.symm.trans hbooks.asked.2.1) Bool.false_ne_true.symm

/-- The state of the example after the wrong part. -/
def exampleFlunked : Downloader 2 :=
  ((exec (step exampleInfo) (new exampleStorage) exampleWrong)).getD (new exampleStorage)

def exampleReport : List (StorageEvent 2 Nat) :=
  let first : Fin 2 := ⟨0, Nat.two_pos⟩
  [.good 0 first, .good 0 first, .failed 1 first false]

end Downloader

end BitBlinder
