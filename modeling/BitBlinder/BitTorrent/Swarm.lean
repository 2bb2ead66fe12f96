import BitBlinder.BitTorrent.Bitfield
import BitBlinder.BitTorrent.PickerIndex
import BitBlinder.Runs

/-!
# The peers of a torrent and the piece picker

What the messages HAVE and BITFIELD and the end of a connection do to the picker, as
`got_message` of `BT1/JashConnecter.py` and `got_have`, `got_have_bitfield` and `disconnected`
of `BT1/Downloader.py` have it, in any order and for any number of peers. Rates, interest and
requests are not here; what they ask of the picker are events of their own.
-/

namespace BitBlinder.Swarm

open Struct (Bytes unpackBE)
open PiecePicker (Listed)

set_option autoImplicit false

variable {n : Nat}

/-- A connection: whether a message came over it, and the pieces that the peer has. -/
structure Peer (n : Nat) where
  gotAnything : Bool
  haves : Bitfield n

structure State (n : Nat) where
  picker : PiecePicker n
  peers : List (Peer n)

def HAVE : UInt8 := 4

def BITFIELD : UInt8 := 5

/-- `for i in xrange(len(have)): if have[i]: self.downloader.picker.op(i)` -/
def eachHave (op : PiecePicker n → Fin n → PyExcept (PiecePicker n)) (haves : Bitfield n) :
    List (Fin n) → PiecePicker n → PyExcept (PiecePicker n)
  | [], s => .ok s
  | i :: rest, s => do
    let t ← if haves.getitem i then op s i else .ok s
    eachHave op haves rest t

def setPeer (s : State n) (j : Nat) (peer : Peer n) : State n :=
  { s with peers := s.peers.set j peer }

/-- `DownloadPeer.got_have` -/
def gotHave (s : State n) (j : Nat) (peer : Peer n) (index : Fin n) : PyExcept (State n) := do
  if peer.haves.getitem index then return s
  let haves := peer.haves.setitem index true
  let picker ← s.picker.gotHave index
  let t := setPeer { s with picker := picker } j { peer with haves := haves }
  if haves.complete then return { t with picker := t.picker.becameSeed }
  return t

/-- `DownloadPeer.got_have_bitfield`, with `storage.am_I_complete()`. -/
def gotHaveBitfield (s : State n) (j : Nat) (peer : Peer n) (amIComplete : Bool) (haves : Bitfield n) :
    PyExcept (State n) := do
  if amIComplete && haves.complete then return s
  let t := setPeer s j { peer with haves := haves }
  if haves.complete then return { t with picker := t.picker.gotSeed }
  let picker ← eachHave PiecePicker.gotHave haves (List.finRange n) t.picker
  return { t with picker := picker }

/-- `got_message` of the connecter; a message that is out of place closes the connection, which
then is lost. -/
def gotMessage (s : State n) (j : Nat) (amIComplete : Bool) (message : Bytes) : PyExcept (State n) :=
  match s.peers[j]?, message with
  | none, _ => .error .keyError
  | some _, [] => .error .indexError
  | some peer, kind :: body =>
    if kind == BITFIELD && peer.gotAnything then .ok s
    else
      let peer := { peer with gotAnything := true }
      let s := setPeer s j peer
      if kind == HAVE then
        if body.length ≠ 4 then .ok s
        else if h : unpackBE body < n then gotHave s j peer ⟨unpackBE body, h⟩
        else .ok s
      else if kind == BITFIELD then
        match Bitfield.ofBitstring n body with
        | .error _ => .ok s
        | .ok haves => gotHaveBitfield s j peer amIComplete haves
      else .ok s

/-- `DownloadPeer.disconnected` -/
def disconnected (s : State n) (j : Nat) : PyExcept (State n) :=
  match s.peers[j]? with
  | none => .error .keyError
  | some peer =>
    let t := { s with peers := s.peers.eraseIdx j }
    if peer.haves.complete then .ok { t with picker := t.picker.lostSeed }
    else do
      let picker ← eachHave PiecePicker.lostHave peer.haves (List.finRange n) t.picker
      return { t with picker := picker }

inductive Event (n : Nat) where
  | connected
  | message (j : Nat) (amIComplete : Bool) (message : Bytes)
  | disconnected (j : Nat)
  | complete (piece : Fin n)
  | requested (piece : Fin n)
  | bump (piece : Fin n)
  | setPriority (random : Nat) (piece : Fin n) (p : Int)

def handle (s : State n) : Event n → PyExcept (State n)
  | .connected => .ok { s with peers := s.peers ++ [⟨false, .empty n⟩] }
  | .message j amIComplete message => gotMessage s j amIComplete message
  | .disconnected j => disconnected s j
  | .complete piece => do
    let picker ← s.picker.complete piece
    return { s with picker := picker }
  | .requested piece => .ok { s with picker := s.picker.requested piece }
  | .bump piece => do
    let picker ← s.picker.bump piece
    return { s with picker := picker }
  | .setPriority random piece p => do
    let result ← s.picker.setPriority random piece p
    return { s with picker := result.2 }

/-- Messages are not empty and come from connections that are there; a piece is completed,
requested or bumped while we want it, and priorities are -1 or more. -/
def Allowed (s : State n) : Event n → Prop
  | .connected => True
  | .message j _ message => j < s.peers.length ∧ message ≠ []
  | .disconnected j => j < s.peers.length
  | .complete piece => s.picker.Listed piece
  | .requested piece => s.picker.Listed piece
  | .bump piece => s.picker.Listed piece
  | .setPriority _ _ p => -1 ≤ p

instance decidableAllowed (s : State n) : ∀ e, Decidable (Allowed s e)
  | .connected => inferInstanceAs (Decidable True)
  | .message _ _ _ => inferInstanceAs (Decidable (_ ∧ _))
  | .disconnected _ => inferInstanceAs (Decidable (_ < _))
  | .complete _ => inferInstanceAs (Decidable (_ ∧ _))
  | .requested _ => inferInstanceAs (Decidable (_ ∧ _))
  | .bump _ => inferInstanceAs (Decidable (_ ∧ _))
  | .setPriority _ _ _ => inferInstanceAs (Decidable (_ ≤ _))

def step (s : State n) (e : Event n) : Option (State n) := (handle s e).toOption

def start (cutoff priorityCutoff priorityStep : Nat) (shuffled : List (Fin n)) : State n :=
  ⟨.new cutoff priorityCutoff priorityStep shuffled, []⟩

/-! ### What the picker counts -/

/-- A peer that is no seed and has the piece. -/
def holds (a : Fin n) (peer : Peer n) : Bool := !peer.haves.complete && peer.haves.getitem a

def isSeed (peer : Peer n) : Bool := peer.haves.complete

structure Sound (s : State n) : Prop where
  indexed : s.picker.Indexed
  holders : ∀ a, s.picker.numhaves a = (s.peers.countP (holds a) : Nat)
  seeds : s.picker.seedsConnected = (s.peers.countP isSeed : Nat)
  fresh : ∀ peer ∈ s.peers, peer.gotAnything = false → peer.haves = .empty n

variable {s t : State n} {j : Nat} {peer peer' : Peer n} {e : Event n} {a : Fin n} {p q : PiecePicker n}

/-- A count over the connections after one of them changed. -/
theorem countP_set (hj : s.peers[j]? = some peer) (f : Peer n → Bool) (peer' : Peer n) :
    ((s.peers.set j peer').countP f : Int) = s.peers.countP f - (f peer).toNat + (f peer').toNat := by
  obtain ⟨hlt, hget⟩ := List.getElem?_eq_some_iff.mp hj
  have hset : (s.peers.set j peer').countP f =
      s.peers.countP f - (if f s.peers[j] then 1 else 0) + (if f peer' then 1 else 0) := List.countP_set hlt
  have hpos : f s.peers[j] = true → 0 < s.peers.countP f := fun h =>
    List.countP_pos_iff.mpr ⟨s.peers[j], List.getElem_mem hlt, h⟩
  rw [hset, ← hget]
  cases hold : f s.peers[j] with
  | false => cases f peer' <;> simp
  | true =>
    have := hpos hold
    cases f peer' <;> simp <;> omega

theorem countP_eraseIdx (hj : s.peers[j]? = some peer) (f : Peer n → Bool) :
    ((s.peers.eraseIdx j).countP f : Int) = s.peers.countP f - (f peer).toNat := by
  have hperm := (cons_eraseIdx_perm hj).countP_eq f
  rw [List.countP_cons] at hperm
  cases h : f peer with
  | false =>
    rw [h, if_neg Bool.false_ne_true] at hperm
    rw [← hperm, Bool.toNat_false]
    omega
  | true =>
    rw [h, if_pos rfl] at hperm
    rw [← hperm, Bool.toNat_true]
    omega

theorem holders_pos (hs : Sound s) (hj : s.peers[j]? = some peer) (h : holds a peer = true) : 1 ≤ s.picker.numhaves a := by
  have hpos : 0 < s.peers.countP (holds a) :=
    List.countP_pos_iff.mpr ⟨peer, List.mem_of_getElem? hj, h⟩
  rw [hs.holders a]
  omega

/-! ### The loop over the bits of a peer -/

/-- One call for each piece of the list that the peer has. -/
theorem eachHave_spec {op : PiecePicker n → Fin n → PyExcept (PiecePicker n)} {d : Int} (haves : Bitfield n)
    (spec : ∀ {q : PiecePicker n} {a : Fin n}, q.Indexed → 0 ≤ q.numhaves a + d →
      ∃ rows pos, op q a = .ok ((q.count a d).relocated rows pos) ∧ ((q.count a d).relocated rows pos).Indexed)
    {pieces : List (Fin n)} (hnodup : pieces.Nodup) (hp : p.Indexed)
    (hd : ∀ a ∈ pieces, haves.getitem a = true → 0 ≤ p.numhaves a + d) :
    ∃ q, eachHave op haves pieces p = .ok q ∧ q.Indexed ∧ q.seedsConnected = p.seedsConnected ∧
      ∀ a, q.numhaves a = p.numhaves a + (if a ∈ pieces ∧ haves.getitem a = true then d else 0) := by
  induction pieces generalizing p with
  | nil => exact ⟨p, rfl, hp, rfl, fun a => by simp⟩
  | cons i rest ih =>
    obtain ⟨hi, hrest⟩ := List.nodup_cons.mp hnodup
    rw [eachHave]
    cases hbit : haves.getitem i with
    | false =>
      obtain ⟨q, hrun, hq, hseeds, hcount⟩ := ih hrest hp fun a ha => hd a (List.mem_cons_of_mem i ha)
      refine ⟨q, hrun, hq, hseeds, fun a => ?_⟩
      rw [hcount a]
      congr 1
      refine if_congr ?_ rfl rfl
      refine and_congr_left fun ha => ⟨List.mem_cons_of_mem i, fun hmem => ?_⟩
      refine (List.mem_cons.mp hmem).resolve_left ?_
      rintro rfl
      exact Bool.false_ne_true (hbit.symm.trans ha)
    | true =>
      obtain ⟨rows, pos, hop, hindexed⟩ := spec hp (hd i List.mem_cons_self hbit)
      have hsame : ∀ a ∈ rest, ((p.count i d).relocated rows pos).numhaves a = p.numhaves a := by
        intro a ha
        refine Function.update_of_ne ?_ _ _
        rintro rfl
        exact hi ha
      obtain ⟨q, hrun, hq, hseeds, hcount⟩ := ih hrest hindexed fun a ha hbita => by
        rw [hsame a ha]
        exact hd a (List.mem_cons_of_mem i ha) hbita
      rw [if_pos rfl, hop]
      refine ⟨q, hrun, hq, hseeds, fun a => ?_⟩
      rw [hcount a]
      by_cases hai : a = i
      · subst hai
        have hself : ((p.count a d).relocated rows pos).numhaves a = p.numhaves a + d := Function.update_self _ _ _
        rw [hself, if_neg fun hbad => hi hbad.1, if_pos ⟨List.mem_cons_self, hbit⟩]
        omega
      · have hother : ((p.count i d).relocated rows pos).numhaves a = p.numhaves a := Function.update_of_ne hai _ _
        rw [hother]
        congr 1
        refine if_congr (and_congr_left fun _ => ⟨List.mem_cons_of_mem i, fun hmem => ?_⟩) rfl rfl
        exact (List.mem_cons.mp hmem).resolve_left hai

theorem gotHave_each (haves : Bitfield n) (hp : p.Indexed) :
    ∃ q, eachHave PiecePicker.gotHave haves (List.finRange n) p = .ok q ∧ q.Indexed ∧
      q.seedsConnected = p.seedsConnected ∧
      ∀ a, q.numhaves a = p.numhaves a + (haves.getitem a).toNat := by
  obtain ⟨q, hrun, hq, hseeds, hcount⟩ := eachHave_spec haves (fun hq _ => PiecePicker.gotHave_spec hq _)
    (List.nodup_finRange n) hp fun a _ _ => by
      have := hp.haves a
      omega
  refine ⟨q, hrun, hq, hseeds, fun a => ?_⟩
  rw [hcount a]
  cases hbit : haves.getitem a <;> simp

theorem lostHave_each (haves : Bitfield n) (hp : p.Indexed) (hd : ∀ a, haves.getitem a = true → 1 ≤ p.numhaves a) :
    ∃ q, eachHave PiecePicker.lostHave haves (List.finRange n) p = .ok q ∧ q.Indexed ∧
      q.seedsConnected = p.seedsConnected ∧
      ∀ a, q.numhaves a = p.numhaves a - (haves.getitem a).toNat := by
  obtain ⟨q, hrun, hq, hseeds, hcount⟩ := eachHave_spec haves
    (fun hq hd => PiecePicker.lostHave_spec hq (by omega))
    (List.nodup_finRange n) hp fun a _ hbit => by
      have := hd a hbit
      omega
  refine ⟨q, hrun, hq, hseeds, fun a => ?_⟩
  rw [hcount a]
  cases hbit : haves.getitem a with
  | false => simp
  | true =>
    rw [if_pos ⟨List.mem_finRange a, rfl⟩, Bool.toNat_true]
    omega

/-! ### The messages -/

theorem holds_empty (got : Bool) (a : Fin n) : holds a ⟨got, .empty n⟩ = false := by
  unfold holds
  rw [Bitfield.getitem_empty, Bool.and_false]

theorem not_complete_empty (hn : 0 < n) : (Bitfield.empty n).complete = false := by
  cases h : (Bitfield.empty n).complete with
  | false => rfl
  | true =>
    have hbit := Bitfield.complete_iff.mp h ⟨0, hn⟩
    rw [Bitfield.getitem_empty] at hbit
    exact absurd hbit Bool.false_ne_true

theorem holds_of_complete (h : peer.haves.complete = true) (a : Fin n) : holds a peer = false := by
  unfold holds
  rw [h, Bool.not_true, Bool.false_and]

theorem holds_of_incomplete (h : peer.haves.complete = false) (a : Fin n) : holds a peer = peer.haves.getitem a := by
  unfold holds
  rw [h, Bool.not_false, Bool.true_and]

theorem peers_setPeer (s : State n) (j : Nat) (peer : Peer n) : (setPeer s j peer).peers = s.peers.set j peer := rfl

/-- A connection changed and the picker counts as it should. -/
theorem Sound.change (hs : Sound s) (hj : s.peers[j]? = some peer) (hq : q.Indexed)
    (hholders : ∀ a, q.numhaves a = s.picker.numhaves a - (holds a peer).toNat + (holds a peer').toNat)
    (hseeds : q.seedsConnected = s.picker.seedsConnected - (isSeed peer).toNat + (isSeed peer').toNat)
    (hfresh : peer'.gotAnything = true) : Sound { setPeer s j peer' with picker := q } where
  indexed := hq
  holders := by
    intro a
    change q.numhaves a = _
    rw [hholders a, hs.holders a, peers_setPeer, countP_set hj]
  seeds := by
    change q.seedsConnected = _
    rw [hseeds, hs.seeds, peers_setPeer, countP_set hj]
  fresh := by
    intro other hother hgot
    rcases List.mem_or_eq_of_mem_set hother with hmem | rfl
    · exact hs.fresh other hmem hgot
    · exact absurd (hfresh.symm.trans hgot) Bool.false_ne_true.symm

/-- A message marks the connection and nothing else. -/
theorem Sound.marked (hs : Sound s) (hj : s.peers[j]? = some peer) :
    Sound (setPeer s j { peer with gotAnything := true }) := by
  have hholds : ∀ a, holds a { peer with gotAnything := true } = holds a peer := fun _ => rfl
  have hseed : isSeed { peer with gotAnything := true } = isSeed peer := rfl
  refine hs.change hj hs.indexed (fun a => ?_) ?_ rfl
  · rw [hholds]
    omega
  · rw [hseed]
    omega

theorem getElem?_setPeer (hj : s.peers[j]? = some peer) (peer' : Peer n) : (setPeer s j peer').peers[j]? = some peer' := by
  rw [peers_setPeer, List.getElem?_set_self (List.getElem?_eq_some_iff.mp hj).1]

theorem gotHave_sound (hs : Sound s) (hj : s.peers[j]? = some peer) (hgot : peer.gotAnything = true) (index : Fin n) :
    ∃ t, gotHave s j peer index = .ok t ∧ Sound t := by
  unfold gotHave
  cases hbit : peer.haves.getitem index with
  | true =>
    rw [if_pos rfl]
    exact ⟨s, rfl, hs⟩
  | false =>
    have hold : peer.haves.complete = false := by
      cases h : peer.haves.complete with
      | false => rfl
      | true => exact absurd (hbit.symm.trans (Bitfield.complete_iff.mp h index)) Bool.false_ne_true
    have hset := Bitfield.getitem_setitem peer.haves index
    obtain ⟨rows, pos, hrun, hindexed⟩ := PiecePicker.gotHave_spec hs.indexed index
    have hcount : ∀ a, ((s.picker.count index 1).relocated rows pos).numhaves a =
        s.picker.numhaves a + (if a = index then 1 else 0) := by
      intro a
      change Function.update s.picker.numhaves index (s.picker.numhaves index + 1) a = _
      by_cases ha : a = index
      · subst ha
        rw [Function.update_self, if_pos rfl]
      · rw [Function.update_of_ne ha, if_neg ha, Int.add_zero]
    rw [if_neg Bool.false_ne_true, hrun, PyExcept.ok_bind]
    dsimp only
    cases hnew : (peer.haves.setitem index true).complete with
    | true =>
      rw [if_pos rfl]
      have hall := Bitfield.complete_iff.mp hnew
      refine ⟨_, rfl, hs.change hj (hindexed.becameSeed fun a => ?_) (fun a => ?_) ?_ hgot⟩
      · rw [hcount a]
        by_cases ha : a = index
        · have := hs.indexed.haves a
          rw [if_pos ha]
          omega
        · have hbita := hall a
          rw [hset, if_neg ha] at hbita
          have := holders_pos hs hj ((holds_of_incomplete hold a).trans hbita)
          rw [if_neg ha]
          omega
      · have hbita := hall a
        rw [hset] at hbita
        change ((s.picker.count index 1).relocated rows pos).numhaves a - 1 = _
        rw [hcount a, holds_of_incomplete hold, holds_of_complete hnew, Bool.toNat_false]
        by_cases ha : a = index
        · subst ha
          rw [if_pos rfl, hbit, Bool.toNat_false]
          omega
        · rw [if_neg ha] at hbita
          rw [if_neg ha, hbita, Bool.toNat_true]
          omega
      · change s.picker.seedsConnected + 1 = _
        unfold isSeed
        rw [hold, hnew, Bool.toNat_false, Bool.toNat_true]
        omega
    | false =>
      rw [if_neg Bool.false_ne_true]
      refine ⟨_, rfl, hs.change hj hindexed (fun a => ?_) ?_ hgot⟩
      · rw [hcount a, holds_of_incomplete hold, holds_of_incomplete hnew, hset]
        by_cases ha : a = index
        · subst ha
          rw [if_pos rfl, if_pos rfl, hbit, Bool.toNat_false, Bool.toNat_true]
          omega
        · rw [if_neg ha, if_neg ha]
          omega
      · change s.picker.seedsConnected = _
        unfold isSeed
        rw [hold, hnew, Bool.toNat_false]
        omega

theorem gotHaveBitfield_sound (hs : Sound s) (hn : 0 < n) (hj : s.peers[j]? = some peer) (hgot : peer.gotAnything = true)
    (hempty : peer.haves = .empty n) (amIComplete : Bool) (haves : Bitfield n) :
    ∃ t, gotHaveBitfield s j peer amIComplete haves = .ok t ∧ Sound t := by
  have hholds : ∀ a, holds a peer = false := by
    intro a
    unfold holds
    rw [hempty, Bitfield.getitem_empty, Bool.and_false]
  have hseed : isSeed peer = false := by
    unfold isSeed
    rw [hempty, not_complete_empty hn]
  unfold gotHaveBitfield
  cases hboth : amIComplete && haves.complete with
  | true =>
    rw [if_pos rfl]
    exact ⟨s, rfl, hs⟩
  | false =>
    rw [if_neg Bool.false_ne_true]
    dsimp only
    cases hnew : haves.complete with
    | true =>
      rw [if_pos rfl]
      refine ⟨_, rfl, hs.change hj hs.indexed.gotSeed (fun a => ?_) ?_ hgot⟩
      · rw [hholds, holds_of_complete hnew]
        change s.picker.numhaves a = _
        rw [Bool.toNat_false]
        omega
      · rw [hseed]
        change s.picker.seedsConnected + 1 = _ - _ + (haves.complete.toNat : Int)
        rw [hnew, Bool.toNat_false, Bool.toNat_true]
        omega
    | false =>
      rw [if_neg Bool.false_ne_true]
      obtain ⟨q, hrun, hq, hseeds, hcount⟩ := gotHave_each haves hs.indexed
      change ∃ t, (eachHave PiecePicker.gotHave haves (List.finRange n) s.picker >>= _) = _ ∧ _
      rw [hrun, PyExcept.ok_bind]
      refine ⟨_, rfl, hs.change hj hq (fun a => ?_) ?_ hgot⟩
      · have hnow : holds a { peer with haves := haves } = haves.getitem a := holds_of_incomplete hnew a
        rw [hcount a, hholds, hnow, Bool.toNat_false]
        omega
      · rw [hseeds, hseed]
        change s.picker.seedsConnected = _ - _ + (haves.complete.toNat : Int)
        rw [hnew, Bool.toNat_false]
        omega

theorem gotMessage_sound (hs : Sound s) (hn : 0 < n) (hj : j < s.peers.length) (amIComplete : Bool) {message : Bytes}
    (hmessage : message ≠ []) : ∃ t, gotMessage s j amIComplete message = .ok t ∧ Sound t := by
  have hpeer := List.getElem?_eq_getElem hj
  unfold gotMessage
  rw [hpeer]
  cases message with
  | nil => exact absurd rfl hmessage
  | cons kind body =>
    dsimp only
    by_cases hplace : (kind == BITFIELD && s.peers[j].gotAnything) = true
    · rw [if_pos hplace]
      exact ⟨s, rfl, hs⟩
    · rw [if_neg hplace]
      have hmarked := hs.marked hpeer
      have hj' := getElem?_setPeer hpeer { s.peers[j] with gotAnything := true }
      by_cases hhave : (kind == HAVE) = true
      · rw [if_pos hhave]
        split
        · exact ⟨_, rfl, hmarked⟩
        · split
          · exact gotHave_sound hmarked hj' rfl _
          · exact ⟨_, rfl, hmarked⟩
      · rw [if_neg hhave]
        by_cases hbits : (kind == BITFIELD) = true
        · rw [if_pos hbits]
          cases hread : Bitfield.ofBitstring n body with
          | error e => exact ⟨_, rfl, hmarked⟩
          | ok haves =>
            have hfirst : s.peers[j].gotAnything = false := by
              rw [hbits, Bool.true_and] at hplace
              exact Bool.not_eq_true _ ▸ hplace
            have hempty := hs.fresh s.peers[j] (List.getElem_mem hj) hfirst
            exact gotHaveBitfield_sound hmarked hn hj' rfl hempty amIComplete haves
        · rw [if_neg hbits]
          exact ⟨_, rfl, hmarked⟩

theorem disconnected_sound (hs : Sound s) (hj : j < s.peers.length) : ∃ t, disconnected s j = .ok t ∧ Sound t := by
  have hpeer := List.getElem?_eq_getElem hj
  have hfresh : ∀ peer ∈ s.peers.eraseIdx j, peer.gotAnything = false → peer.haves = .empty n := fun peer hmem =>
    hs.fresh peer (List.mem_of_mem_eraseIdx hmem)
  unfold disconnected
  rw [hpeer]
  dsimp only
  cases hcomplete : s.peers[j].haves.complete with
  | true =>
    rw [if_pos rfl]
    refine ⟨_, rfl, hs.indexed.lostSeed, fun a => ?_, ?_, hfresh⟩
    · change s.picker.numhaves a = ((s.peers.eraseIdx j).countP (holds a) : Int)
      rw [countP_eraseIdx hpeer, holds_of_complete hcomplete, hs.holders a, Bool.toNat_false]
      omega
    · change s.picker.seedsConnected - 1 = ((s.peers.eraseIdx j).countP isSeed : Int)
      rw [countP_eraseIdx hpeer, hs.seeds]
      unfold isSeed
      rw [hcomplete, Bool.toNat_true]
      rfl
  | false =>
    rw [if_neg Bool.false_ne_true]
    obtain ⟨q, hrun, hq, hseeds, hcount⟩ := lostHave_each s.peers[j].haves hs.indexed fun a hbit =>
      holders_pos hs hpeer ((holds_of_incomplete hcomplete a).trans hbit)
    rw [hrun, PyExcept.ok_bind]
    refine ⟨_, rfl, hq, fun a => ?_, ?_, hfresh⟩
    · change q.numhaves a = ((s.peers.eraseIdx j).countP (holds a) : Int)
      rw [countP_eraseIdx hpeer, holds_of_incomplete hcomplete, hcount a, hs.holders a]
    · change q.seedsConnected = ((s.peers.eraseIdx j).countP isSeed : Int)
      rw [countP_eraseIdx hpeer, hseeds, hs.seeds]
      unfold isSeed
      rw [hcomplete, Bool.toNat_false]
      omega

/-! ### Runs -/

/-- What we do with our own pieces leaves the counts of the peers alone. -/
theorem Sound.own (hs : Sound s) (hq : q.Indexed) (hholders : q.numhaves = s.picker.numhaves)
    (hseeds : q.seedsConnected = s.picker.seedsConnected) : Sound { s with picker := q } where
  indexed := hq
  holders := fun a => by
    change q.numhaves a = _
    rw [hholders, hs.holders a]
  seeds := by
    change q.seedsConnected = _
    rw [hseeds, hs.seeds]
  fresh := hs.fresh

/-- No event that is allowed raises, and all of them keep the counts. -/
theorem handle_sound (hn : 0 < n) (hs : Sound s) (he : Allowed s e) : ∃ t, handle s e = .ok t ∧ Sound t := by
  cases e with
  | connected =>
    refine ⟨_, rfl, hs.indexed, fun a => ?_, ?_, ?_⟩
    · rw [List.countP_append, List.countP_singleton, holds_empty, if_neg Bool.false_ne_true]
      exact hs.holders a
    · rw [List.countP_append, List.countP_singleton]
      unfold isSeed
      rw [not_complete_empty hn, if_neg Bool.false_ne_true]
      exact hs.seeds
    · intro peer hpeer hgot
      rcases List.mem_append.mp hpeer with hpeer | hpeer
      · exact hs.fresh peer hpeer hgot
      · rw [List.mem_singleton.mp hpeer]
  | message j amIComplete message => exact gotMessage_sound hs hn he.1 amIComplete he.2
  | disconnected j => exact disconnected_sound hs he
  | complete piece =>
    obtain ⟨q, hrun, hq, hhaves, -, -, hseeds⟩ := PiecePicker.complete_spec hs.indexed he
    refine ⟨{ s with picker := q }, ?_, hs.own hq hhaves hseeds⟩
    rw [handle, hrun]
    rfl
  | requested piece =>
    refine ⟨_, rfl, hs.own (hs.indexed.requested he) ?_ ?_⟩
    · unfold PiecePicker.requested
      split <;> rfl
    · unfold PiecePicker.requested
      split <;> rfl
  | bump piece =>
    obtain ⟨q, hrun, hq, hhaves, -, -, hseeds⟩ := PiecePicker.bump_spec hs.indexed he
    refine ⟨{ s with picker := q }, ?_, hs.own hq hhaves hseeds⟩
    rw [handle, hrun]
    rfl
  | setPriority random piece p =>
    obtain ⟨r, q, hrun, hq, hr⟩ := PiecePicker.setPriority_spec hs.indexed random piece he
    refine ⟨{ s with picker := q }, ?_, hs.own hq hr.numhaves hr.seedsConnected⟩
    rw [handle, hrun]
    rfl

section Run
variable {cutoff priorityCutoff priorityStep : Nat} {shuffled : List (Fin n)} {events : List (Event n)}

theorem start_sound (hnodup : shuffled.Nodup) (hall : ∀ a, a ∈ shuffled) :
    Sound (start cutoff priorityCutoff priorityStep shuffled) where
  indexed := PiecePicker.new_indexed cutoff priorityCutoff priorityStep hnodup hall
  holders := fun _ => rfl
  seeds := rfl
  fresh := fun _ h => absurd h List.not_mem_nil

theorem run_sound (hn : 0 < n) (hnodup : shuffled.Nodup) (hall : ∀ a, a ∈ shuffled)
    (h : Run step Allowed (start cutoff priorityCutoff priorityStep shuffled) events s) : Sound s := by
  refine h.invariant (I := Sound) ?_ (start_sound hnodup hall)
  intro s t e hs he hstep
  obtain ⟨t', hrun, ht'⟩ := handle_sound hn hs he
  have hsome : step s e = some t' := by
    unfold step
    rw [hrun]
    rfl
  obtain rfl := Option.some.inj (hsome.symm.trans hstep)
  exact ht'

/-- The peers that have the piece, and its priority. -/
def rank (s : State n) (a : Fin n) : Int :=
  (s.peers.countP (holds a) : Nat) + s.picker.priorityStep * s.picker.priority a

theorem Sound.level_eq_rank (hs : Sound s) (ha : s.picker.Listed a) : s.picker.levelInInterests a = rank s a := by
  rw [hs.indexed.level a ha, hs.holders a]
  rfl

/-- After any events in any order, a piece stands in the row and at the position that the picker
has on record exactly when we want it, and the row is its rank; the seeds are counted, and no
event that may come next raises. -/
theorem interests_exact (hn : 0 < n) (hnodup : shuffled.Nodup) (hall : ∀ a, a ∈ shuffled)
    (h : Run step Allowed (start cutoff priorityCutoff priorityStep shuffled) events s) :
    (∀ a t i, Rows.at? s.picker.interests t i = some a ↔
        s.picker.Listed a ∧ rank s a = t ∧ s.picker.posInInterests a = i) ∧
      s.picker.seedsConnected = (s.peers.countP isSeed : Nat) ∧
      ∀ e, Allowed s e → ∃ t, handle s e = .ok t := by
  have hs := run_sound hn hnodup hall h
  refine ⟨fun a t i => ?_, hs.seeds, fun e he => ?_⟩
  · rw [hs.indexed.filed a t i]
    by_cases ha : s.picker.Listed a
    · have hnonneg := hs.indexed.level_nonneg ha
      rw [PiecePicker.tier_of_listed ha, Option.some.injEq, ← hs.level_eq_rank ha]
      constructor
      · rintro ⟨hlevel, hpos⟩
        exact ⟨ha, by omega, hpos⟩
      · rintro ⟨-, hlevel, hpos⟩
        exact ⟨by omega, hpos⟩
    · rw [PiecePicker.tier_of_not_listed ha]
      exact ⟨fun hbad => absurd hbad.1.symm (Option.some_ne_none t), fun hbad => absurd hbad.1 ha⟩
  · obtain ⟨t, ht, -⟩ := handle_sound hn hs he
    exact ⟨t, ht⟩

/-- Two pieces and two peers: the first one sends its bits, the second one becomes a seed. -/
def exampleEvents : List (Event 2) :=
  [.connected, .connected, .message 0 false [BITFIELD, 0x40], .message 1 false [HAVE, 0, 0, 0, 1],
    .requested 1, .setPriority 5 0 (-1), .message 1 false [HAVE, 0, 0, 0, 0], .setPriority 5 0 2, .complete 1,
    .disconnected 0]

theorem interests_exact_example : ∃ s, Run step Allowed (start 1 3 20 [1, 0]) exampleEvents s ∧
    (∀ a t i, Rows.at? s.picker.interests t i = some a ↔
        s.picker.Listed a ∧ rank s a = t ∧ s.picker.posInInterests a = i) ∧
      s.picker.seedsConnected = (s.peers.countP isSeed : Nat) ∧
      ∀ e, Allowed s e → ∃ t, handle s e = .ok t := by
  have hend : (exec step (start 1 3 20 [1, 0]) exampleEvents).any (fun _ => true) = true := by decide
  have hok : EachStep step Allowed (start 1 3 20 [1, 0]) exampleEvents := by decide
  obtain ⟨s, hrun, -⟩ := exists_run hend hok
  exact ⟨s, hrun, interests_exact (by decide) (by decide) (by decide) hrun⟩

/-- A piece that we want and that `next` was asked for. -/
def Suits (s : State n) (haves : Bitfield n) (wantfunc : Fin n → Bool) (k : Fin n) : Prop :=
  s.picker.Listed k ∧ haves.getitem k = true ∧ wantfunc k = true

/-- No piece that suits is of a lower rank than the one found, or of a rank below the bound of `next`. -/
def Rarest (s : State n) (suits : Fin n → Prop) : Option (Fin n) → Prop
  | some j => ∀ k, suits k → rank s j ≤ rank s k
  | none => ∀ k, suits k → 2 ^ 30 ≤ rank s k

def exampleBits : Bitfield 2 := .ofArray [true, true] rfl

end Run

end BitBlinder.Swarm
