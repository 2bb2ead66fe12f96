import BitBlinder.Runs
import Mathlib.Data.List.Nodup
import Mathlib.Logic.Function.Basic

/-!
# Which SOCKS connection a stream belongs to

`BitBlinder` connects through Tor's SOCKS proxy, and Tor makes a stream for the
connection. The two are brought together by the local port: whichever comes first
waits in `pendingStreams` for the other. Connections and streams have the numbers in
the order of their creation, and a connection may be that of another program. A
stream comes from the connection that had its source port when Tor made it, or from
Tor itself. `handed`, `failed` and `used` list what was done with callbacks and
entries, and no function reads them.
-/

namespace BitBlinder.Socks

set_option autoImplicit false

structure Connection where
  port : Nat
  alive : Bool
  made : Bool

inductive Pending where
  | socks (k : Nat)
  | stream (x : Nat)

/-- Entries are numbered in the order in which they are made. -/
structure Entry where
  number : Nat
  pending : Pending

def Entry.isSocks (entry : Entry) : Bool :=
  match entry.pending with
  | .socks _ => true
  | .stream _ => false

structure StreamPairing where
  connection : Nat → Connection
  connectionCount : Nat
  source : Nat → Option Nat
  streamCount : Nat
  pendingStreams : Nat → Option Entry
  entryCount : Nat
  handed : List (Nat × Nat)
  failed : List Nat
  used : List Nat

namespace StreamPairing

/-- The callback of a connection, which may raise. -/
def callback (k : Nat) (raises : Bool) (s : StreamPairing) : StreamPairing :=
  if raises then { s with failed := s.failed ++ [k] } else s

def store (port : Nat) (pending : Pending) (s : StreamPairing) : StreamPairing :=
  { s with
    pendingStreams := Function.update s.pendingStreams port (some ⟨s.entryCount, pending⟩)
    entryCount := s.entryCount + 1 }

@[simp] theorem callback_pendingStreams (k : Nat) (raises : Bool) (s : StreamPairing) :
    (s.callback k raises).pendingStreams = s.pendingStreams := by
  unfold callback
  split <;> rfl

@[simp] theorem callback_handed (k : Nat) (raises : Bool) (s : StreamPairing) :
    (s.callback k raises).handed = s.handed := by
  unfold callback
  split <;> rfl

@[simp] theorem callback_source (k : Nat) (raises : Bool) (s : StreamPairing) :
    (s.callback k raises).source = s.source := by
  unfold callback
  split <;> rfl

/-- The entry is deleted whether the callback raised or not. -/
def use (port number : Nat) (s : StreamPairing) : StreamPairing :=
  { s with pendingStreams := Function.update s.pendingStreams port none, used := s.used ++ [number] }

def hand (x k : Nat) (s : StreamPairing) : StreamPairing := { s with handed := s.handed ++ [(x, k)] }

def handleSocks (k : Nat) (raises : Bool) (s : StreamPairing) : StreamPairing :=
  let port := (s.connection k).port
  match s.pendingStreams port with
  | some ⟨number, .stream x⟩ => ((s.hand x k).callback k raises).use port number
  -- The callback gets the entry of another connection in the place of a stream.
  | some ⟨number, .socks _⟩ => (s.callback k raises).use port number
  | none => s.store port (.socks k)

def handleStreamCreation (x j : Nat) (raises : Bool) (s : StreamPairing) : StreamPairing :=
  let port := (s.connection j).port
  match s.pendingStreams port with
  | some ⟨number, .socks k⟩ => ((s.hand x k).callback k raises).use port number
  -- A stream cannot be unpacked.
  | some ⟨_, .stream _⟩ => s
  | none => s.store port (.stream x)

def waitingForStream (j : Nat) (s : StreamPairing) : Bool := (s.pendingStreams (s.connection j).port).isSome

/-- A stream that nobody waits for goes to the application of the process that has the port. -/
def onNewStream (x : Nat) (raises : Bool) (s : StreamPairing) : StreamPairing :=
  match s.source x with
  | none => s
  | some j => if s.waitingForStream j then s.handleStreamCreation x j raises else s

end StreamPairing

inductive PairingAction where
  | connect (port : Nat)
  | handleSocks (k : Nat) (raises : Bool)
  | lose (k : Nat)
  | createStream (source : Option Nat)
  | onNewStream (x : Nat) (raises : Bool)
  | handleStreamCreation (x : Nat) (raises : Bool)

namespace StreamPairing

def setConnection (k : Nat) (conn : Connection) (s : StreamPairing) : StreamPairing :=
  { s with connection := Function.update s.connection k conn }

def portFree (port : Nat) (s : StreamPairing) : Bool :=
  (List.range s.connectionCount).all fun k => !((s.connection k).alive && (s.connection k).port = port)

/-- `handle_socks` is called once for a connection, and a stream is made for a connection that is
still there; its event may come at any time. -/
def step (s : StreamPairing) : PairingAction → Option StreamPairing
  | .connect port =>
    if s.portFree port then
      some { s.setConnection s.connectionCount { port, alive := true, made := false } with
        connectionCount := s.connectionCount + 1 }
    else none
  | .handleSocks k raises =>
    if k < s.connectionCount ∧ (s.connection k).alive ∧ !(s.connection k).made then
      some ((s.setConnection k { s.connection k with made := true }).handleSocks k raises)
    else none
  | .lose k =>
    if k < s.connectionCount ∧ (s.connection k).alive then
      some (s.setConnection k { s.connection k with alive := false })
    else none
  | .createStream source =>
    if source.all fun k => k < s.connectionCount ∧ (s.connection k).alive then
      some { s with source := Function.update s.source s.streamCount source, streamCount := s.streamCount + 1 }
    else none
  | .onNewStream x raises => if x < s.streamCount then some (s.onNewStream x raises) else none
  | .handleStreamCreation x raises =>
    match s.source x with
    | some j => if x < s.streamCount then some (s.handleStreamCreation x j raises) else none
    | none => none

def initial : StreamPairing where
  connection := fun _ => { port := 0, alive := false, made := false }
  connectionCount := 0
  source := fun _ => none
  streamCount := 0
  pendingStreams := fun _ => none
  entryCount := 0
  handed := []
  failed := []
  used := []

/-- Whether the entry is one of the connection. -/
def BelongsTo (entry : Entry) (k : Nat) (s : StreamPairing) : Prop :=
  match entry.pending with
  | .socks j => j = k
  | .stream x => s.source x = some k

instance (entry : Entry) (k : Nat) (s : StreamPairing) : Decidable (s.BelongsTo entry k) :=
  match entry with
  | ⟨_, .socks j⟩ => inferInstanceAs (Decidable (j = k))
  | ⟨_, .stream x⟩ => inferInstanceAs (Decidable (s.source x = some k))

/-- A stream is handed to the callback of the connection that it comes from, no entry is used twice,
and none is there when its connection is gone. -/
structure Paired (s : StreamPairing) : Prop where
  handed : ∀ x k, (x, k) ∈ s.handed → s.source x = some k
  once : s.used.Nodup
  owned : ∀ port entry, s.pendingStreams port = some entry → ∀ k, s.BelongsTo entry k → (s.connection k).alive = true

/-- No connection is lost while there is an entry of it, and where a stream finds an entry of a
connection or makes one, the connection that it comes from is still there. -/
def Tidy (s : StreamPairing) : PairingAction → Prop
  | .lose k => ∀ entry ∈ s.pendingStreams (s.connection k).port, ¬s.BelongsTo entry k
  | .onNewStream x _ => ∀ j ∈ s.source x, ∀ entry ∈ s.pendingStreams (s.connection j).port,
      entry.isSocks = true → (s.connection j).alive = true
  | .handleStreamCreation x _ => ∀ j ∈ s.source x,
      (∀ entry ∈ s.pendingStreams (s.connection j).port, entry.isSocks = true) → (s.connection j).alive = true
  | .connect _ | .handleSocks .. | .createStream _ => True

instance (s : StreamPairing) (a : PairingAction) : Decidable (s.Tidy a) :=
  match a with
  | .lose k =>
    inferInstanceAs (Decidable (∀ entry ∈ s.pendingStreams (s.connection k).port, ¬s.BelongsTo entry k))
  | .onNewStream x _ =>
    inferInstanceAs (Decidable (∀ j ∈ s.source x, ∀ entry ∈ s.pendingStreams (s.connection j).port,
      entry.isSocks = true → (s.connection j).alive = true))
  | .handleStreamCreation x _ =>
    inferInstanceAs (Decidable (∀ j ∈ s.source x,
      (∀ entry ∈ s.pendingStreams (s.connection j).port, entry.isSocks = true) → (s.connection j).alive = true))
  | .connect _ | .handleSocks .. | .createStream _ => isTrue trivial

theorem belongsTo_unique {s : StreamPairing} {entry : Entry} {j k : Nat} (hj : s.BelongsTo entry j)
    (hk : s.BelongsTo entry k) : j = k := by
  obtain ⟨number, pending⟩ := entry
  cases pending with
  | socks i => exact hj.symm.trans hk
  | stream x => exact Option.some.inj (hj.symm.trans hk)

/-- An entry is where its connection is looked up, connections that are there have ports of their
own, and the entries that are used up have other numbers than those that wait. -/
structure Sound (s : StreamPairing) : Prop extends Paired s where
  placed : ∀ port entry, s.pendingStreams port = some entry →
    ∃ k, s.BelongsTo entry k ∧ k < s.connectionCount ∧ (s.connection k).port = port
  apart : ∀ j k, (s.connection j).alive = true → (s.connection k).alive = true →
    (s.connection j).port = (s.connection k).port → j = k
  unborn : ∀ k, s.connectionCount ≤ k → (s.connection k).alive = false
  unsent : ∀ x, s.streamCount ≤ x → s.source x = none
  sources : ∀ x k, s.source x = some k → k < s.connectionCount
  waiting : ∀ port entry, s.pendingStreams port = some entry → entry.number < s.entryCount ∧ entry.number ∉ s.used
  distinct : ∀ p q entry entry', s.pendingStreams p = some entry → s.pendingStreams q = some entry' →
    entry.number = entry'.number → p = q
  old : ∀ number ∈ s.used, number < s.entryCount

theorem initial_sound : Sound initial where
  handed _ _ h := nomatch h
  once := List.nodup_nil
  owned _ _ h := nomatch h
  placed _ _ h := nomatch h
  apart _ _ h := nomatch h
  unborn _ _ := rfl
  unsent _ _ := rfl
  sources _ _ h := nomatch h
  waiting _ _ h := nomatch h
  distinct _ _ _ _ h := nomatch h
  old _ h := nomatch h

namespace Sound

variable {s : StreamPairing}

/-- The connection of an entry is the one that has the port. -/
theorem belongsTo_of_alive (hs : s.Sound) {entry : Entry} {k : Nat}
    (hentry : s.pendingStreams (s.connection k).port = some entry) (hk : (s.connection k).alive = true) :
    s.BelongsTo entry k := by
  obtain ⟨j, hj, -, hport⟩ := hs.placed _ entry hentry
  have halive := hs.owned _ entry hentry j hj
  obtain rfl := hs.apart j k halive hk hport
  exact hj

theorem callback (hs : s.Sound) (k : Nat) (raises : Bool) : (s.callback k raises).Sound := by
  unfold StreamPairing.callback
  split
  · exact { hs with }
  · exact hs

theorem hand (hs : s.Sound) {x k : Nat} (hx : s.source x = some k) : (s.hand x k).Sound := by
  refine { hs with handed := fun y j hmem => ?_ }
  rcases List.mem_append.mp hmem with hmem | hmem
  · exact hs.handed y j hmem
  · obtain ⟨rfl, rfl⟩ := Prod.mk.inj (List.mem_singleton.mp hmem)
    exact hx

theorem use (hs : s.Sound) {port number : Nat} {pending : Pending}
    (hentry : s.pendingStreams port = some ⟨number, pending⟩) : (s.use port number).Sound := by
  -- What waits afterwards waited before, at another port.
  have hrest {q entry} (h : (s.use port number).pendingStreams q = some entry) :
      q ≠ port ∧ s.pendingStreams q = some entry := by
    by_cases hq : q = port
    · subst hq
      simp [StreamPairing.use] at h
    · exact ⟨hq, by simpa [StreamPairing.use, hq] using h⟩
  have hnumber := hs.waiting port _ hentry
  exact {
    hs with
    once := List.nodup_append.mpr ⟨hs.once, List.nodup_singleton number, fun n hn m hm hnm => by
      obtain rfl := List.mem_singleton.mp hm
      exact hnumber.2 (hnm ▸ hn)⟩
    owned := fun q entry h => hs.owned q entry (hrest h).2
    placed := fun q entry h => hs.placed q entry (hrest h).2
    waiting := fun q entry h => by
      obtain ⟨hq, h⟩ := hrest h
      refine ⟨(hs.waiting q entry h).1, fun hmem => ?_⟩
      rcases List.mem_append.mp hmem with hmem | hmem
      · exact (hs.waiting q entry h).2 hmem
      · exact hq (hs.distinct q port entry _ h hentry (List.mem_singleton.mp hmem))
    distinct := fun p q entry entry' h h' => hs.distinct p q entry entry' (hrest h).2 (hrest h').2
    old := fun n hn => by
      rcases List.mem_append.mp hn with hn | hn
      · exact hs.old n hn
      · obtain rfl := List.mem_singleton.mp hn
        exact hnumber.1 }

theorem store (hs : s.Sound) {k : Nat} {pending : Pending} (hk : k < s.connectionCount)
    (halive : (s.connection k).alive = true) (hbelongs : s.BelongsTo ⟨s.entryCount, pending⟩ k) :
    (s.store (s.connection k).port pending).Sound := by
  have hcases {q entry} (h : (s.store (s.connection k).port pending).pendingStreams q = some entry) :
      q = (s.connection k).port ∧ entry = ⟨s.entryCount, pending⟩ ∨ s.pendingStreams q = some entry := by
    by_cases hq : q = (s.connection k).port
    · subst hq
      exact Or.inl ⟨rfl, by simpa [StreamPairing.store, eq_comm] using h⟩
    · exact Or.inr (by simpa [StreamPairing.store, hq] using h)
  exact {
    hs with
    owned := fun q entry h j hj => by
      rcases hcases h with ⟨rfl, rfl⟩ | h
      · obtain rfl := belongsTo_unique hbelongs hj
        exact halive
      · exact hs.owned q entry h j hj
    placed := fun q entry h => by
      rcases hcases h with ⟨rfl, rfl⟩ | h
      · exact ⟨k, hbelongs, hk, rfl⟩
      · exact hs.placed q entry h
    waiting := fun q entry h => by
      rcases hcases h with ⟨rfl, rfl⟩ | h
      · exact ⟨Nat.lt_succ_self _, fun hmem => Nat.lt_irrefl _ (hs.old _ hmem)⟩
      · exact ⟨Nat.lt_succ_of_lt (hs.waiting q entry h).1, (hs.waiting q entry h).2⟩
    distinct := fun p q entry entry' h h' heq => by
      rcases hcases h with ⟨rfl, rfl⟩ | h <;> rcases hcases h' with ⟨rfl, rfl⟩ | h'
      · rfl
      · exact absurd heq (Nat.ne_of_gt (hs.waiting q entry' h').1)
      · exact absurd heq (Nat.ne_of_lt (hs.waiting p entry h).1)
      · exact hs.distinct p q entry entry' h h' heq
    old := fun n hn => Nat.lt_succ_of_lt (hs.old n hn) }

theorem connect {port : Nat} (hs : s.Sound) (hfree : s.portFree port = true) :
    Sound { s.setConnection s.connectionCount { port, alive := true, made := false } with
      connectionCount := s.connectionCount + 1 } := by
  have hused {k} (hk : (s.connection k).alive = true) : (s.connection k).port ≠ port := by
    have hlt : k < s.connectionCount := by
      by_contra hge
      exact Bool.false_ne_true ((hs.unborn k (Nat.le_of_not_lt hge)).symm.trans hk)
    have := List.all_eq_true.mp hfree k (List.mem_range.mpr hlt)
    simpa [hk] using this
  have hold {k} (hk : k < s.connectionCount) :
      Function.update s.connection s.connectionCount { port, alive := true, made := false } k = s.connection k :=
    Function.update_of_ne (Nat.ne_of_lt hk) _ _
  exact {
    hs with
    owned := fun q entry h k hk => by
      obtain ⟨j, hj, hlt, -⟩ := hs.placed q entry h
      obtain rfl := belongsTo_unique hj hk
      exact (congrArg Connection.alive (hold hlt)).trans (hs.owned q entry h j hj)
    placed := fun q entry h => by
      obtain ⟨j, hj, hlt, hport⟩ := hs.placed q entry h
      exact ⟨j, hj, Nat.lt_succ_of_lt hlt, (congrArg Connection.port (hold hlt)).trans hport⟩
    apart := fun j k => by
      simp only [setConnection, Function.update_apply]
      split <;> split
      · rintro - - -
        simp_all
      · exact fun _ hk heq => absurd heq.symm (hused hk)
      · exact fun hj _ heq => absurd heq (hused hj)
      · exact hs.apart j k
    unborn := fun k hk => by
      have hne : k ≠ s.connectionCount := Nat.ne_of_gt hk
      simp only [setConnection, Function.update_of_ne hne]
      exact hs.unborn k (Nat.le_of_lt hk)
    sources := fun x k h => Nat.lt_succ_of_lt (hs.sources x k h) }

/-- A change to a connection that stays where it is, when it keeps it or when no entry is of it. -/
theorem setConnection (hs : s.Sound) {k : Nat} {conn : Connection} (hport : conn.port = (s.connection k).port)
    (hborn : conn.alive = true → (s.connection k).alive = true)
    (hkept : conn.alive = true ∨ ∀ entry ∈ s.pendingStreams (s.connection k).port, ¬s.BelongsTo entry k) :
    (s.setConnection k conn).Sound := by
  have hports (j) : ((s.setConnection k conn).connection j).port = (s.connection j).port := by
    by_cases hj : j = k
    · subst hj
      simpa [StreamPairing.setConnection] using hport
    · simp [StreamPairing.setConnection, hj]
  have halive {j} (h : ((s.setConnection k conn).connection j).alive = true) : (s.connection j).alive = true := by
    by_cases hj : j = k
    · subst hj
      exact hborn (by simpa [StreamPairing.setConnection] using h)
    · simpa [StreamPairing.setConnection, hj] using h
  exact {
    hs with
    owned := fun q entry h j hj => by
      by_cases hjk : j = k
      · subst hjk
        obtain ⟨i, hi, -, hq⟩ := hs.placed q entry h
        obtain rfl := belongsTo_unique hi hj
        have hnow := hkept.resolve_right fun hnone => hnone entry (hq ▸ h) hj
        simpa [StreamPairing.setConnection] using hnow
      · simpa [StreamPairing.setConnection, hjk] using hs.owned q entry h j hj
    placed := fun q entry h => by
      obtain ⟨j, hj, hlt, hq⟩ := hs.placed q entry h
      exact ⟨j, hj, hlt, (hports j).trans hq⟩
    apart := fun i j hi hj heq => by
      rw [hports, hports] at heq
      exact hs.apart i j (halive hi) (halive hj) heq
    unborn := fun j hj => by
      have hold := hs.unborn j hj
      by_contra h
      exact Bool.false_ne_true (hold.symm.trans (halive (by simpa using h))) }

theorem createStream (hs : s.Sound) {source : Option Nat} (hsource : ∀ k ∈ source, k < s.connectionCount) :
    Sound { s with source := Function.update s.source s.streamCount source, streamCount := s.streamCount + 1 } := by
  have hold {x k} (h : s.source x = some k) : Function.update s.source s.streamCount source x = some k := by
    have hne : x ≠ s.streamCount := fun heq => by
      rw [hs.unsent x (Nat.le_of_eq heq.symm)] at h
      cases h
    rw [Function.update_of_ne hne, h]
  have hbelongs {entry k} (h : s.BelongsTo entry k) :
      StreamPairing.BelongsTo entry k
        { s with source := Function.update s.source s.streamCount source, streamCount := s.streamCount + 1 } := by
    obtain ⟨number, pending⟩ := entry
    cases pending with
    | socks j => exact h
    | stream x => exact hold h
  exact {
    hs with
    handed := fun x k h => hold (hs.handed x k h)
    owned := fun q entry h k hk => by
      obtain ⟨j, hj, -, -⟩ := hs.placed q entry h
      obtain rfl := belongsTo_unique (hbelongs hj) hk
      exact hs.owned q entry h j hj
    placed := fun q entry h => by
      obtain ⟨j, hj, hlt, hq⟩ := hs.placed q entry h
      exact ⟨j, hbelongs hj, hlt, hq⟩
    unsent := fun x hx => by
      have hne : x ≠ s.streamCount := Nat.ne_of_gt hx
      exact (Function.update_of_ne hne _ _).trans (hs.unsent x (Nat.le_of_lt hx))
    sources := fun x k => by
      simp only [Function.update_apply]
      split
      · exact fun h => hsource k h
      · exact hs.sources x k }

theorem handleSocks (hs : s.Sound) {k : Nat} (hk : k < s.connectionCount) (halive : (s.connection k).alive = true)
    (raises : Bool) : (s.handleSocks k raises).Sound := by
  unfold StreamPairing.handleSocks
  dsimp only
  split
  case h_1 number x hentry =>
    have hx : s.source x = some k := hs.belongsTo_of_alive hentry halive
    have hstill : ((s.hand x k).callback k raises).pendingStreams (s.connection k).port =
        some ⟨number, .stream x⟩ := by
      rw [callback_pendingStreams]
      exact hentry
    exact ((hs.hand hx).callback k raises).use hstill
  case h_2 number j hentry =>
    have hstill : (s.callback k raises).pendingStreams (s.connection k).port = some ⟨number, .socks j⟩ := by
      rw [callback_pendingStreams]
      exact hentry
    exact (hs.callback k raises).use hstill
  case h_3 => exact hs.store hk halive rfl

theorem handleStreamCreation (hs : s.Sound) {x j : Nat} (hx : s.source x = some j) (raises : Bool)
    (hok : (∀ entry ∈ s.pendingStreams (s.connection j).port, entry.isSocks = true) →
      (s.connection j).alive = true) : (s.handleStreamCreation x j raises).Sound := by
  unfold StreamPairing.handleStreamCreation
  dsimp only
  split
  case h_1 number k hentry =>
    have halive := hok fun entry h => by
      obtain rfl := Option.some.inj (hentry.symm.trans h)
      rfl
    have hkj : k = j := hs.belongsTo_of_alive hentry halive
    have hstill : ((s.hand x k).callback k raises).pendingStreams (s.connection j).port =
        some ⟨number, .socks k⟩ := by
      rw [callback_pendingStreams]
      exact hentry
    exact ((hs.hand (hkj ▸ hx)).callback k raises).use hstill
  case h_2 => exact hs
  case h_3 hentry =>
    have halive := hok fun entry h => by
      rw [hentry] at h
      cases h
    exact hs.store (hs.sources x j hx) halive hx

end Sound

theorem step_sound {s t : StreamPairing} {a : PairingAction} (hs : s.Sound) (hstep : step s a = some t)
    (hok : s.Tidy a) : t.Sound := by
  cases a with
  | connect port =>
    obtain ⟨hfree, ⟨⟩⟩ := Option.ite_none_right_eq_some.mp hstep
    exact hs.connect hfree
  | handleSocks k raises =>
    obtain ⟨⟨hk, halive, -⟩, ⟨⟩⟩ := Option.ite_none_right_eq_some.mp hstep
    have hmade : (s.setConnection k { s.connection k with made := true }).Sound :=
      hs.setConnection rfl (fun _ => halive) (.inl halive)
    refine hmade.handleSocks hk ?_ raises
    simpa [setConnection] using halive
  | lose k =>
    obtain ⟨-, ⟨⟩⟩ := Option.ite_none_right_eq_some.mp hstep
    exact hs.setConnection rfl nofun (.inr hok)
  | createStream source =>
    obtain ⟨hsource, ⟨⟩⟩ := Option.ite_none_right_eq_some.mp hstep
    refine hs.createStream fun k hk => ?_
    obtain rfl := hk
    exact (of_decide_eq_true hsource).1
  | onNewStream x raises =>
    obtain ⟨-, ⟨⟩⟩ := Option.ite_none_right_eq_some.mp hstep
    unfold onNewStream
    split
    case h_1 => exact hs
    case h_2 j hx =>
      split
      case isFalse => exact hs
      case isTrue hwaiting =>
        obtain ⟨entry, hentry⟩ := Option.isSome_iff_exists.mp hwaiting
        refine hs.handleStreamCreation hx raises fun hall => ?_
        exact hok j hx entry hentry (hall entry hentry)
  | handleStreamCreation x raises =>
    cases hx : s.source x with
    | none => simp [step, hx] at hstep
    | some j =>
      simp only [step, hx] at hstep
      obtain ⟨-, ⟨⟩⟩ := Option.ite_none_right_eq_some.mp hstep
      exact hs.handleStreamCreation hx raises (hok j hx)

/-- A stream that is not mixed up comes from a connection that is still there. -/
theorem alive_of_handleStreamCreation {s : StreamPairing} {x j : Nat} {raises : Bool} (hs : s.Sound)
    (hx : s.source x = some j) (ht : (s.handleStreamCreation x j raises).Paired)
    (hall : ∀ entry ∈ s.pendingStreams (s.connection j).port, entry.isSocks = true) :
    (s.connection j).alive = true := by
  cases hentry : s.pendingStreams (s.connection j).port with
  | none =>
    simp only [handleStreamCreation, hentry] at ht
    exact ht.owned (s.connection j).port ⟨s.entryCount, .stream x⟩ (by simp [store]) j hx
  | some entry =>
    obtain ⟨number, pending⟩ := entry
    cases pending with
    | stream y => cases hall ⟨number, .stream y⟩ hentry
    | socks k =>
      simp only [handleStreamCreation, hentry] at ht
      have hxk : s.source x = some k := by simpa [use, hand] using ht.handed x k (by simp [use, hand])
      obtain rfl : j = k := Option.some.inj (hx.symm.trans hxk)
      exact hs.owned _ _ hentry j rfl

theorem tidy_of_paired {s t : StreamPairing} {a : PairingAction} (hs : s.Sound) (hstep : step s a = some t)
    (ht : t.Paired) : s.Tidy a := by
  cases a with
  | connect | handleSocks | createStream => trivial
  | lose k =>
    obtain ⟨-, ⟨⟩⟩ := Option.ite_none_right_eq_some.mp hstep
    intro entry hentry hk
    have halive := ht.owned _ entry hentry k hk
    simp [setConnection] at halive
  | onNewStream x raises =>
    obtain ⟨-, ⟨⟩⟩ := Option.ite_none_right_eq_some.mp hstep
    intro j hx entry hentry hsocks
    have hx : s.source x = some j := hx
    have hwaiting : s.waitingForStream j = true := Option.isSome_iff_exists.mpr ⟨entry, hentry⟩
    simp only [onNewStream, hx, hwaiting, if_true] at ht
    refine alive_of_handleStreamCreation hs hx ht fun entry' hentry' => ?_
    obtain rfl := Option.some.inj (hentry.symm.trans hentry')
    exact hsocks
  | handleStreamCreation x raises =>
    intro j hx
    have hx : s.source x = some j := hx
    simp only [step, hx] at hstep
    obtain ⟨-, ⟨⟩⟩ := Option.ite_none_right_eq_some.mp hstep
    exact alive_of_handleStreamCreation hs hx ht

/-- Streams and connections are brought together rightly all along a run exactly when each step of
it is tidy. -/
theorem paired_iff_tidy {t : StreamPairing} {as : List PairingAction}
    (h : Run step (fun _ _ => True) initial as t) :
    (∀ start u, start <+: as → Run step (fun _ _ => True) initial start u → u.Paired) ↔ EachStep step Tidy initial as :=
  h.forall_prefix_iff Sound.toPaired step_sound tidy_of_paired initial_sound

def exampleActions : List PairingAction :=
  [.connect 4000, .createStream (some 0), .handleStreamCreation 0 false, .handleSocks 0 false, .lose 0,
   .connect 4000, .handleSocks 1 false, .createStream (some 1), .onNewStream 1 false]

theorem example_streams_paired : ∃ s, Run step (fun _ _ => True) initial exampleActions s ∧
    s.handed = [(0, 0), (1, 1)] ∧
    ∀ start u, start <+: exampleActions → Run step (fun _ _ => True) initial start u → u.Paired := by
  have hend : (exec step initial exampleActions).any (fun s => s.handed = [(0, 0), (1, 1)]) = true := by
    decide
  obtain ⟨s, hrun, hs⟩ := exists_run hend (eachStep_true _ _)
  have htidy : EachStep step Tidy initial exampleActions := by decide
  exact ⟨s, hrun, of_decide_eq_true hs, (paired_iff_tidy hrun).mpr htidy⟩

/-- The first connection is lost before its stream is known, and the next one with its port opens
a stream. -/
theorem stream_handed_to_lost_connection : ∃ s, Run step (fun _ _ => True) initial
    [.connect 4000, .handleSocks 0 false, .lose 0, .connect 4000, .createStream (some 1), .onNewStream 0 false] s ∧
    ¬s.Paired := by
  have hend : (exec step initial
      [.connect 4000, .handleSocks 0 false, .lose 0, .connect 4000, .createStream (some 1), .onNewStream 0 false]).any
        (fun s => s.handed = [(0, 0)] ∧ s.source 0 = some 1) = true := by
    decide
  obtain ⟨s, hrun, hs⟩ := exists_run hend (eachStep_true _ _)
  obtain ⟨hhanded, hsource⟩ := of_decide_eq_true hs
  refine ⟨s, hrun, fun hpaired => ?_⟩
  have h0 := hpaired.handed 0 0 (by simp [hhanded])
  rw [hsource] at h0
  cases h0

end StreamPairing

end BitBlinder.Socks
