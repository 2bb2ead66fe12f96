import BitBlinder.Linked
import BitBlinder.Tor.CircuitWaiters

/-!
# Which streams a circuit has

A stream knows its circuit, and a circuit has its streams and its pending streams.
`Tied` is the link between them at any moment of a step: the pending streams of a
circuit that ends are left one by one, and the status of a stream changes before it
leaves its circuit.
-/

namespace BitBlinder.Tor.Socks

set_option autoImplicit false

namespace SocksApplication

structure MembersAgree (app : SocksApplication) : Prop where
  linked : ∀ c x, x ∈ (app.circuit c).streams ∨ x ∈ (app.circuit c).pendingStreams ↔ (app.stream x).circuit = some c
  notBoth : ∀ c, ∀ x ∈ (app.circuit c).streams, x ∉ (app.circuit c).pendingStreams
  single : ∀ c d x, x ∈ (app.circuit c).streams ∨ x ∈ (app.circuit c).pendingStreams →
    x ∈ (app.circuit d).streams ∨ x ∈ (app.circuit d).pendingStreams → c = d
  ended : ∀ x, (app.stream x).status ∈ [.failed, .closed] →
    ∀ c, x ∉ (app.circuit c).streams ∧ x ∉ (app.circuit c).pendingStreams
  active : ∀ c, app.numActiveStreams c = ((List.range app.streamCount).filter fun x =>
    (app.stream x).circuit = some c ∧ (app.stream x).status ∉ [.failed, .closed]).length

def streamsOf (app : SocksApplication) (c : Nat) : List Nat := (app.circuit c).streams

def circuitOf (app : SocksApplication) (x : Nat) : Option Nat := (app.stream x).circuit

/-- The link, but for the pending streams of a circuit that are left already and for the status of
a stream that changes. -/
structure Tied (leaving : Option (Nat × List Nat)) (changing : Option Nat) (app : SocksApplication) : Prop where
  link : Linked app.streamsOf (app.waiting leaving) app.circuitOf
  active : ∀ c, ∀ x ∈ app.streamsOf c, changing ≠ some x → (app.stream x).status ∉ [.closed, .failed, .detached]
  waits : ∀ c, ∀ x ∈ app.waiting leaving c, changing ≠ some x → (app.stream x).status ∉ [.closed, .failed]
  made : ∀ x c, app.circuitOf x = some c → x < app.streamCount ∧ c < app.circuitCount

section
variable {s t : SocksApplication} {leaving : Option (Nat × List Nat)} {changing : Option Nat}

theorem Tied.membersAgree (h : s.Tied none none) : s.MembersAgree where
  linked := h.link.mem_iff
  notBoth := fun c _ hx hwait => h.link.disjoint c hx hwait
  single := fun _ _ _ hc hd => h.link.unique hc hd
  ended := fun x hx c => by
    refine ⟨fun hmem => ?_, fun hmem => ?_⟩
    · have hstatus := h.active c x hmem nofun
      simp only [List.mem_cons, List.not_mem_nil, or_false] at hx hstatus
      tauto
    · have hstatus := h.waits c x hmem nofun
      simp only [List.mem_cons, List.not_mem_nil, or_false] at hx hstatus
      tauto
  active := fun c => by
    have hperm := h.link.perm (List.nodup_range (n := s.streamCount)) fun x hx => List.mem_range.mpr (h.made x c hx).1
    have hall : (s.circuit c).streams.countP (fun x => (s.stream x).status ∉ [.closed, .failed, .detached]) =
        (s.circuit c).streams.length :=
      List.countP_eq_length.mpr fun x hx => decide_eq_true (h.active c x hx nofun)
    have hfilter : (List.range s.streamCount).filter (fun x =>
          (s.stream x).circuit = some c ∧ (s.stream x).status ∉ [.failed, .closed]) =
        (List.range s.streamCount).filter fun x => s.circuitOf x = some c := by
      refine List.filter_congr fun x _ => decide_eq_decide.mpr (and_iff_left_of_imp fun hx => ?_)
      rcases (h.link.mem_iff c x).mpr hx with hmem | hmem
      · have hstatus := h.active c x hmem nofun
        simp only [List.mem_cons, List.not_mem_nil, or_false] at hstatus ⊢
        tauto
      · have hstatus := h.waits c x hmem nofun
        simp only [List.mem_cons, List.not_mem_nil, or_false] at hstatus ⊢
        tauto
    rw [hfilter, ← hperm.length_eq, List.length_append, numActiveStreams, hall]
    exact Nat.add_comm _ _

/-! ### One stream or circuit changes -/

theorem circuitOf_setStream (x : Nat) (g : Stream → Stream) (app : SocksApplication) :
    (app.setStream x g).circuitOf = Function.update app.circuitOf x (g (app.stream x)).circuit := by
  funext y
  unfold circuitOf
  rw [setStream_stream, Function.update_apply]
  split
  · rfl
  · rfl

theorem streamsOf_setCircuit (c : Nat) (f : Circuit → Circuit) (app : SocksApplication) :
    (app.setCircuit c f).streamsOf = Function.update app.streamsOf c (f (app.circuit c)).streams := by
  funext d
  unfold streamsOf
  rw [setCircuit_circuit, Function.update_apply]
  split
  · rfl
  · rfl

theorem waiting_setCircuit {c : Nat} (hleaving : ∀ d rest, leaving = some (d, rest) → c ≠ d) (f : Circuit → Circuit)
    (app : SocksApplication) :
    (app.setCircuit c f).waiting leaving = Function.update (app.waiting leaving) c (f (app.circuit c)).pendingStreams := by
  funext d
  rw [waiting_of_pending (s := app) (fun d hd => by rw [setCircuit_circuit, if_neg hd]) hleaving d,
    setCircuit_circuit_self, Function.update_apply]

theorem waiting_none_setCircuit (c : Nat) (f : Circuit → Circuit) (app : SocksApplication) :
    (app.setCircuit c f).waiting none = Function.update (app.waiting none) c (f (app.circuit c)).pendingStreams := by
  refine waiting_setCircuit (fun d rest heq => ?_) f app
  cases heq

theorem setStream_status {x : Nat} {g : Stream → Stream} (hg : (g (s.stream x)).status = (s.stream x).status) (y : Nat) :
    ((s.setStream x g).stream y).status = (s.stream y).status := by
  rw [setStream_stream]
  split
  · rename_i hy
    rw [hg, hy]
  · rfl

/-- The status of no stream changes, and only some streams join or leave. -/
theorem Tied.relink {leaving' : Option (Nat × List Nat)} (h : s.Tied leaving changing)
    (hlink : Linked t.streamsOf (t.waiting leaving') t.circuitOf)
    (hstatus : ∀ y, (t.stream y).status = (s.stream y).status)
    (hactive : ∀ c, ∀ y ∈ t.streamsOf c, y ∈ s.streamsOf c ∨
      (changing ≠ some y → (s.stream y).status ∉ [.closed, .failed, .detached]))
    (hwaits : ∀ c, ∀ y ∈ t.waiting leaving' c, y ∈ s.waiting leaving c ∨
      (changing ≠ some y → (s.stream y).status ∉ [.closed, .failed]))
    (hmade : ∀ y c, t.circuitOf y = some c → s.circuitOf y = some c ∨ y < s.streamCount ∧ c < s.circuitCount)
    (hstreamCount : t.streamCount = s.streamCount) (hcircuitCount : t.circuitCount = s.circuitCount) :
    t.Tied leaving' changing where
  link := hlink
  active := fun c y hy hne => by
    rw [hstatus]
    exact (hactive c y hy).elim (fun hmem => h.active c y hmem hne) fun hnew => hnew hne
  waits := fun c y hy hne => by
    rw [hstatus]
    exact (hwaits c y hy).elim (fun hmem => h.waits c y hmem hne) fun hnew => hnew hne
  made := fun y c hy => by
    rw [hstreamCount, hcircuitCount]
    exact (hmade y c hy).elim (h.made y c) id

theorem setStream_tied (h : s.Tied leaving changing) {x : Nat} {g : Stream → Stream}
    (hcircuit : (g (s.stream x)).circuit = (s.stream x).circuit) (hstatus : (g (s.stream x)).status = (s.stream x).status) :
    (s.setStream x g).Tied leaving changing := by
  have hsame : (s.setStream x g).circuitOf = s.circuitOf := by
    rw [circuitOf_setStream, hcircuit]
    exact Function.update_eq_self x s.circuitOf
  refine h.relink ?_ (setStream_status hstatus) (fun _ _ => Or.inl) (fun _ _ => Or.inl) (fun y c hy => ?_) rfl rfl
  · rw [hsame]
    exact h.link
  · rw [hsame] at hy
    exact Or.inl hy

/-- A stream gets its status first. -/
theorem setStatus_tied (h : s.Tied leaving none) (x : Nat) (status : StreamStatus) :
    (s.setStream x fun stream => { stream with status := status }).Tied leaving (some x) := by
  have hsame : (s.setStream x fun stream => { stream with status := status }).circuitOf = s.circuitOf := by
    rw [circuitOf_setStream]
    exact Function.update_eq_self x s.circuitOf
  refine ⟨?_, fun c y hy hne => ?_, fun c y hy hne => ?_, fun y c hy => ?_⟩
  · rw [hsame]
    exact h.link
  · have hyx : y ≠ x := fun heq => hne (congrArg some heq.symm)
    rw [setStream_stream, if_neg hyx]
    exact h.active c y hy nofun
  · have hyx : y ≠ x := fun heq => hne (congrArg some heq.symm)
    rw [setStream_stream, if_neg hyx]
    exact h.waits c y hy nofun
  · rw [hsame] at hy
    exact h.made y c hy

/-- The status of a stream matters only in a circuit. -/
theorem Tied.restore {x : Nat} (h : s.Tied leaving (some x))
    (hx : s.circuitOf x = none ∨ (s.stream x).status ∉ [.closed, .failed, .detached]) : s.Tied leaving none := by
  refine ⟨h.link, fun c y hy _ => ?_, fun c y hy _ => ?_, h.made⟩
  · by_cases heq : y = x
    · subst heq
      exact hx.elim (fun hnone => absurd hy (h.link.notMem hnone c).1) id
    · exact h.active c y hy fun hne => heq (Option.some.inj hne).symm
  · by_cases heq : y = x
    · subst heq
      refine hx.elim (fun hnone => absurd hy (h.link.notMem hnone c).2) fun hstatus => ?_
      simp only [List.mem_cons, List.not_mem_nil, or_false] at hstatus ⊢
      tauto
    · exact h.waits c y hy fun hne => heq (Option.some.inj hne).symm

theorem setCircuit_tied (h : s.Tied none changing) {c : Nat} {f : Circuit → Circuit}
    (hstreams : (f (s.circuit c)).streams = (s.circuit c).streams)
    (hpending : (f (s.circuit c)).pendingStreams = (s.circuit c).pendingStreams) :
    (s.setCircuit c f).Tied none changing := by
  have hstreams' : (s.setCircuit c f).streamsOf = s.streamsOf := by
    rw [streamsOf_setCircuit, hstreams]
    exact Function.update_eq_self c s.streamsOf
  have hwaiting : (s.setCircuit c f).waiting none = s.waiting none := by
    rw [waiting_none_setCircuit, hpending]
    exact Function.update_eq_self c (s.waiting none)
  refine h.relink ?_ (fun _ => rfl) (fun d y hy => ?_) (fun d y hy => ?_) (fun _ _ => Or.inl) rfl rfl
  · rw [hstreams', hwaiting]
    exact h.link
  · rw [hstreams'] at hy
    exact Or.inl hy
  · rw [hwaiting] at hy
    exact Or.inl hy

/-! ### A stream joins a circuit -/

theorem addStream_of_mem {c x : Nat} (h : x ∈ (s.circuit c).streams) : s.addStream c x = s := by
  unfold addStream setCircuit
  dsimp only
  rw [List.insert_of_mem h, Function.update_eq_self]

theorem addPending_of_mem {c x : Nat} (h : x ∈ (s.circuit c).pendingStreams) : s.addPending c x = s := by
  unfold addPending setCircuit
  dsimp only
  rw [List.insert_of_mem h, if_pos h, Function.update_eq_self]

theorem setStream_circuit_of_eq {c x : Nat} (h : (s.stream x).circuit = some c) :
    (s.setStream x fun stream => { stream with circuit := some c }) = s := by
  unfold setStream
  rw [← h, Function.update_eq_self]

theorem mem_update_insert {lists : Nat → List Nat} {c d x y : Nat}
    (h : y ∈ Function.update lists c ((lists c).insert x) d) : y ∈ lists d ∨ y = x := by
  rw [Function.update_apply] at h
  split at h
  · rename_i hd
    rw [hd]
    exact (List.mem_insert_iff.mp h).symm
  · exact Or.inl h

theorem circuit_of_update {owner : Nat → Option Nat} {c d x y : Nat} (h : Function.update owner x (some c) y = some d) :
    owner y = some d ∨ y = x ∧ d = c := by
  rw [Function.update_apply] at h
  split at h
  · rename_i hy
    exact Or.inr ⟨hy, (Option.some.inj h).symm⟩
  · exact Or.inl h

theorem addStream_tied (h : s.Tied leaving changing) {c x : Nat} (hx : x < s.streamCount) (hc : c < s.circuitCount)
    (hnone : (s.stream x).circuit = none)
    (hstatus : changing ≠ some x → (s.stream x).status ∉ [.closed, .failed, .detached]) :
    ((s.addStream c x).setStream x fun stream => { stream with circuit := some c }).Tied leaving changing := by
  have hstreams : ((s.addStream c x).setStream x fun stream => { stream with circuit := some c }).streamsOf =
      Function.update s.streamsOf c ((s.streamsOf c).insert x) :=
    streamsOf_setCircuit c (fun circ => { circ with streams := circ.streams.insert x }) s
  have hcircuits : ((s.addStream c x).setStream x fun stream => { stream with circuit := some c }).circuitOf =
      Function.update s.circuitOf x (some c) := circuitOf_setStream x _ (s.addStream c x)
  have hwaiting : ((s.addStream c x).setStream x fun stream => { stream with circuit := some c }).waiting leaving =
      s.waiting leaving := by
    refine waiting_congr (fun d => ?_) leaving
    rw [setStream_circuit, addStream, setCircuit_circuit]
    split
    · rename_i hd
      rw [hd]
    · rfl
  refine h.relink ?_ (setStream_status (s := s.addStream c x) rfl) (fun d y hy => ?_) (fun d y hy => ?_) (fun y d hy => ?_)
    rfl rfl
  · rw [hstreams, hcircuits, hwaiting]
    exact h.link.join hnone c
  · rw [hstreams] at hy
    rcases mem_update_insert hy with hmem | rfl
    · exact Or.inl hmem
    · exact Or.inr hstatus
  · rw [hwaiting] at hy
    exact Or.inl hy
  · rw [hcircuits] at hy
    rcases circuit_of_update hy with hmem | ⟨rfl, rfl⟩
    · exact Or.inl hmem
    · exact Or.inr ⟨hx, hc⟩

theorem addPending_tied (h : s.Tied leaving changing) {c x : Nat} (hx : x < s.streamCount) (hc : c < s.circuitCount)
    (hleaving : ∀ d rest, leaving = some (d, rest) → c ≠ d) (hnone : (s.stream x).circuit = none)
    (hstatus : changing ≠ some x → (s.stream x).status ∉ [.closed, .failed]) :
    ((s.addPending c x).setStream x fun stream => { stream with circuit := some c }).Tied leaving changing := by
  have hcircuits : ((s.addPending c x).setStream x fun stream => { stream with circuit := some c }).circuitOf =
      Function.update s.circuitOf x (some c) := circuitOf_setStream x _ (s.addPending c x)
  have hwaiting : ((s.addPending c x).setStream x fun stream => { stream with circuit := some c }).waiting leaving =
      Function.update (s.waiting leaving) c ((s.waiting leaving c).insert x) := by
    have hbefore := waiting_of_pending (s := s) (t := s) (fun _ _ => rfl) hleaving c
    rw [if_pos rfl] at hbefore
    rw [hbefore]
    exact waiting_setCircuit hleaving (fun circ => { circ with pendingStreams := circ.pendingStreams.insert x }) s
  have hstreams : ((s.addPending c x).setStream x fun stream => { stream with circuit := some c }).streamsOf =
      s.streamsOf := by
    refine (streamsOf_setCircuit c (fun circ => { circ with pendingStreams := circ.pendingStreams.insert x }) s).trans ?_
    exact Function.update_eq_self c s.streamsOf
  refine h.relink ?_ (setStream_status (s := s.addPending c x) rfl) (fun d y hy => ?_) (fun d y hy => ?_) (fun y d hy => ?_)
    rfl rfl
  · rw [hstreams, hcircuits, hwaiting]
    exact (h.link.symm.join hnone c).symm
  · rw [hstreams] at hy
    exact Or.inl hy
  · rw [hwaiting] at hy
    rcases mem_update_insert hy with hmem | rfl
    · exact Or.inl hmem
    · exact Or.inr hstatus
  · rw [hcircuits] at hy
    rcases circuit_of_update hy with hmem | ⟨rfl, rfl⟩
    · exact Or.inl hmem
    · exact Or.inr ⟨hx, hc⟩

/-- Where the stream is attached, it is in this circuit already or in none, its status is not FAILED,
and it is not DETACHED if the circuit is ready. -/
def MayAttach (c x : Nat) (app : SocksApplication) : Prop :=
  (app.stream x).isDone = true ∨ (app.circuit c).isDone = true ∨ app.torReady = false ∨
    if (app.circuit c).isReady then
      x ∈ (app.circuit c).streams ∨ (app.stream x).circuit = none ∧ (app.stream x).status ∉ [.failed, .detached]
    else x ∈ (app.circuit c).pendingStreams ∨ (app.stream x).circuit = none ∧ (app.stream x).status ≠ .failed

theorem attach_tied (h : s.Tied leaving none) {c x : Nat} (hx : x < s.streamCount) (hc : c < s.circuitCount)
    (hleaving : ∀ d rest, leaving = some (d, rest) → (s.circuit d).isDone = true) (hmay : s.MayAttach c x) :
    (s.attach c x).1.Tied leaving none := by
  rcases attach_cases c x s with ⟨hattach, -⟩ | ⟨hstream, hopen, htor, hattach⟩
  · rw [hattach]
    exact h
  · have hother : ∀ d rest, leaving = some (d, rest) → c ≠ d := fun d rest heq hcd => by
      rw [hcd, hleaving d rest heq] at hopen
      cases hopen
    have hclosed : (s.stream x).status ≠ .closed := of_decide_eq_false hstream
    rw [hattach]
    rcases hmay with hdone | hdone | hdown | hmay
    · rw [hdone] at hstream
      cases hstream
    · rw [hdone] at hopen
      cases hopen
    · rw [hdown] at htor
      cases htor
    · dsimp only
      split
      · rename_i hready
        rw [if_pos hready] at hmay
        rcases hmay with hmem | ⟨hnone, hstatus⟩
        · rw [addStream_of_mem hmem, setStream_circuit_of_eq ((h.link.mem_iff c x).mp (Or.inl hmem))]
          exact h
        · refine addStream_tied h hx hc hnone fun _ => ?_
          simp only [List.mem_cons, List.not_mem_nil, or_false] at hstatus ⊢
          tauto
      · rename_i hready
        rw [if_neg hready] at hmay
        rcases hmay with hmem | ⟨hnone, hstatus⟩
        · have hwait : x ∈ s.waiting leaving c := by
            rw [waiting_of_pending (s := s) (t := s) (fun _ _ => rfl) hother c, if_pos rfl]
            exact hmem
          rw [addPending_of_mem hmem, setStream_circuit_of_eq ((h.link.mem_iff c x).mp (Or.inr hwait))]
          exact h
        · refine addPending_tied h hx hc hother hnone fun _ => ?_
          simp only [List.mem_cons, List.not_mem_nil, or_false]
          tauto

/-- The same of the circuit that `handle_stream` takes, if it takes one. -/
def MayHandle (x : Nat) (best : Option Nat) (app : SocksApplication) : Prop :=
  (app.stream x).handleAttempts < 2 → ∀ c ∈ app.findOrBuildBestCircuit best, app.MayAttach c x

theorem handleStream_tied (h : s.Tied leaving none) (hlive : s.LiveMade) {x : Nat} {best : Option Nat}
    (hx : x < s.streamCount) (hleaving : ∀ d rest, leaving = some (d, rest) → (s.circuit d).isDone = true)
    (hmay : s.MayHandle x best) : (s.handleStream x best).Tied leaving none := by
  have hcounted := setStream_tied h (x := x) (g := fun stream =>
    { stream with handleAttempts := stream.handleAttempts + 1 }) rfl rfl
  unfold handleStream
  dsimp only
  split
  · exact hcounted
  · rename_i htries
    split
    · exact hcounted
    · rename_i c hbest
      rw [setStream_stream_self] at htries
      dsimp only at htries
      refine attach_tied hcounted hx (hlive c (findOrBuildBestCircuit_live hbest)) hleaving ?_
      have hmay := hmay (by omega) c hbest
      unfold MayAttach at hmay ⊢
      rw [setStream_stream_self]
      exact hmay

/-! ### A stream leaves its circuit -/

theorem mem_of_update_erase {lists : Nat → List Nat} {c d x y : Nat}
    (h : y ∈ Function.update lists c ((lists c).erase x) d) : y ∈ lists d := by
  rw [Function.update_apply] at h
  split at h
  · rename_i hd
    rw [hd]
    exact List.mem_of_mem_erase h
  · exact h

theorem circuit_of_update_none {owner : Nat → Option Nat} {d x y : Nat} (h : Function.update owner x none y = some d) :
    owner y = some d := by
  rw [Function.update_apply] at h
  split at h
  · cases h
  · exact h

theorem eraseStream_tied (h : s.Tied none changing) {c x : Nat} (hmem : x ∈ (s.circuit c).streams) :
    ((s.setCircuit c fun circ => { circ with streams := circ.streams.erase x }).setStream x fun stream =>
      { stream with circuit := none }).Tied none changing := by
  have hstreams : ((s.setCircuit c fun circ => { circ with streams := circ.streams.erase x }).setStream x fun stream =>
      { stream with circuit := none }).streamsOf = Function.update s.streamsOf c ((s.streamsOf c).erase x) :=
    streamsOf_setCircuit c (fun circ => { circ with streams := circ.streams.erase x }) s
  have hwaiting : ((s.setCircuit c fun circ => { circ with streams := circ.streams.erase x }).setStream x fun stream =>
      { stream with circuit := none }).waiting none = s.waiting none := by
    refine (waiting_none_setCircuit c (fun circ => { circ with streams := circ.streams.erase x }) s).trans ?_
    exact Function.update_eq_self c (s.waiting none)
  have hcircuits : ((s.setCircuit c fun circ => { circ with streams := circ.streams.erase x }).setStream x fun stream =>
      { stream with circuit := none }).circuitOf = Function.update s.circuitOf x none :=
    circuitOf_setStream x _ (s.setCircuit c fun circ => { circ with streams := circ.streams.erase x })
  refine h.relink ?_ (setStream_status (s := s.setCircuit c _) rfl) (fun d y hy => ?_) (fun d y hy => ?_)
    (fun y d hy => ?_) rfl rfl
  · rw [hstreams, hwaiting, hcircuits]
    exact h.link.leave hmem
  · rw [hstreams] at hy
    exact Or.inl (mem_of_update_erase hy)
  · rw [hwaiting] at hy
    exact Or.inl hy
  · rw [hcircuits] at hy
    exact Or.inl (circuit_of_update_none hy)

theorem erasePending_tied (h : s.Tied none changing) {c x : Nat} (hmem : x ∈ (s.circuit c).pendingStreams) :
    ((s.setCircuit c fun circ => { circ with pendingStreams := circ.pendingStreams.erase x }).setStream x fun stream =>
      { stream with circuit := none }).Tied none changing := by
  have hstreams : ((s.setCircuit c fun circ => { circ with pendingStreams := circ.pendingStreams.erase x }).setStream x
      fun stream => { stream with circuit := none }).streamsOf = s.streamsOf := by
    refine (streamsOf_setCircuit c (fun circ => { circ with pendingStreams := circ.pendingStreams.erase x }) s).trans ?_
    exact Function.update_eq_self c s.streamsOf
  have hwaiting : ((s.setCircuit c fun circ => { circ with pendingStreams := circ.pendingStreams.erase x }).setStream x
      fun stream => { stream with circuit := none }).waiting none =
      Function.update (s.waiting none) c ((s.waiting none c).erase x) :=
    waiting_none_setCircuit c (fun circ => { circ with pendingStreams := circ.pendingStreams.erase x }) s
  have hcircuits : ((s.setCircuit c fun circ => { circ with pendingStreams := circ.pendingStreams.erase x }).setStream x
      fun stream => { stream with circuit := none }).circuitOf = Function.update s.circuitOf x none :=
    circuitOf_setStream x _ (s.setCircuit c fun circ => { circ with pendingStreams := circ.pendingStreams.erase x })
  refine h.relink ?_ (setStream_status (s := s.setCircuit c _) rfl) (fun d y hy => ?_) (fun d y hy => ?_)
    (fun y d hy => ?_) rfl rfl
  · rw [hstreams, hwaiting, hcircuits]
    exact (h.link.symm.leave hmem).symm
  · rw [hstreams] at hy
    exact Or.inl hy
  · rw [hwaiting] at hy
    exact Or.inl (mem_of_update_erase hy)
  · rw [hcircuits] at hy
    exact Or.inl (circuit_of_update_none hy)

theorem settle_tied (h : s.Tied leaving changing) (c x : Nat) (outcome : Outcome) :
    (s.settle c x outcome).Tied leaving changing := ⟨h.link, h.active, h.waits, h.made⟩

theorem leaveCircuit_tied (h : s.Tied none changing) (x : Nat) (outcome : Outcome) :
    (s.leaveCircuit x outcome).Tied none changing := by
  unfold leaveCircuit
  split
  · exact h
  · rename_i c hc
    unfold removeStream
    rcases (h.link.mem_iff c x).mpr hc with hmem | hmem
    · have hstreams : x ∈ (s.circuit c).streams := hmem
      rw [if_pos hstreams]
      exact eraseStream_tied h hstreams
    · have hpending : x ∈ (s.circuit c).pendingStreams := hmem
      have hstreams : x ∉ (s.circuit c).streams := fun hactive => h.link.disjoint c hactive hmem
      rw [if_neg hstreams, if_pos hpending]
      exact settle_tied (erasePending_tied h hmem) c x outcome

theorem leaveCircuit_circuit (x : Nat) (outcome : Outcome) (app : SocksApplication) :
    ((app.leaveCircuit x outcome).stream x).circuit = none := by
  unfold leaveCircuit
  split
  · rename_i hnone
    exact hnone
  · rw [setStream_stream_self]

theorem waiting_leaving (c : Nat) (rest : List Nat) (app : SocksApplication) : app.waiting (some (c, rest)) c = rest :=
  if_pos rfl

/-- A pending stream of a circuit that ends. -/
theorem leavePending_circuit_tied {c x : Nat} {rest : List Nat} (h : s.Tied (some (c, x :: rest)) none) :
    (s.setStream x fun stream => { stream with circuit := none }).Tied (some (c, rest)) none := by
  have hmem : x ∈ s.waiting (some (c, x :: rest)) c := by
    rw [waiting_leaving]
    exact List.mem_cons_self
  have hwaiting : (s.setStream x fun stream => { stream with circuit := none }).waiting (some (c, rest)) =
      Function.update (s.waiting (some (c, x :: rest))) c ((s.waiting (some (c, x :: rest)) c).erase x) := by
    funext d
    rw [Function.update_apply]
    unfold waiting
    dsimp only
    split
    · rw [if_pos rfl, List.erase_cons_head]
    · rfl
  have hcircuits := circuitOf_setStream x (fun stream => { stream with circuit := none }) s
  refine h.relink ?_ (setStream_status rfl) (fun _ _ => Or.inl) (fun d y hy => ?_) (fun y d hy => ?_) rfl rfl
  · rw [hwaiting, hcircuits]
    exact (h.link.symm.leave hmem).symm
  · rw [hwaiting] at hy
    exact Or.inl (mem_of_update_erase hy)
  · rw [hcircuits] at hy
    exact Or.inl (circuit_of_update_none hy)

/-! ### A circuit ends -/

/-- The handler of the stream attaches it to a circuit that is ready. -/
def reattaches (x : Nat) (best : Option Nat) (app : SocksApplication) : Bool :=
  (app.stream x).detachHandler && (app.stream x).handleAttempts < 2 && app.torReady &&
    (app.findOrBuildBestCircuit best).any fun c => (app.circuit c).isReady && !(app.circuit c).isDone

/-- A stream without a circuit may be handled, but for a DETACHED one that a ready circuit takes. -/
theorem mayHandle_of_reattaches {x : Nat} {best : Option Nat} (hnone : (s.stream x).circuit = none)
    (hfailed : (s.stream x).status ≠ .failed) (hhandler : (s.stream x).detachHandler = true)
    (hmay : (s.stream x).status = .detached → s.reattaches x best = false) : s.MayHandle x best := by
  intro htries c hbest
  rw [Option.mem_def] at hbest
  unfold MayAttach
  by_cases hdetached : (s.stream x).status = .detached
  · have hnot := hmay hdetached
    unfold reattaches at hnot
    rw [hhandler, hbest] at hnot
    simp only [htries, decide_true, Bool.true_and, Option.any_some, Bool.and_eq_false_iff, Bool.not_eq_false'] at hnot
    rcases hnot with hdown | hready | hdone
    · exact Or.inr (Or.inr (Or.inl hdown))
    · rw [hready, if_neg Bool.false_ne_true]
      exact Or.inr (Or.inr (Or.inr (Or.inr ⟨hnone, hfailed⟩)))
    · exact Or.inr (Or.inl hdone)
  · refine Or.inr (Or.inr (Or.inr ?_))
    split
    · exact Or.inr ⟨hnone, by simp [hfailed, hdetached]⟩
    · exact Or.inr ⟨hnone, hfailed⟩

/-- Only one stream itself changes. -/
structure Touches (x : Nat) (s t : SocksApplication) : Prop where
  stream : ∀ y, y ≠ x → t.stream y = s.stream y
  torReady : t.torReady = s.torReady

theorem Touches.trans {x : Nat} {u : SocksApplication} (h : Touches x s t) (h' : Touches x t u) : Touches x s u where
  stream := fun y hy => (h'.stream y hy).trans (h.stream y hy)
  torReady := h'.torReady.trans h.torReady

theorem setStream_touches (x : Nat) (g : Stream → Stream) (app : SocksApplication) :
    Touches x app (app.setStream x g) :=
  ⟨fun y hy => by rw [setStream_stream, if_neg hy], rfl⟩

theorem attach_touches (c x : Nat) (app : SocksApplication) : Touches x app (app.attach c x).1 := by
  rcases attach_cases c x app with ⟨hattach, -⟩ | ⟨-, -, -, hattach⟩
  · rw [hattach]
    exact ⟨fun _ _ => rfl, rfl⟩
  · rw [hattach]
    dsimp only
    refine Touches.trans ?_ (setStream_touches x _ _)
    split
    · exact ⟨fun _ _ => rfl, rfl⟩
    · exact ⟨fun _ _ => rfl, rfl⟩

theorem handleStream_touches (x : Nat) (best : Option Nat) (app : SocksApplication) :
    Touches x app (app.handleStream x best) := by
  unfold handleStream
  dsimp only
  split
  · exact setStream_touches x _ app
  · split
    · exact setStream_touches x _ app
    · exact (setStream_touches x _ app).trans (attach_touches _ x _)

theorem leavePending_touches (c : Nat) (best : List (Nat × Nat)) (x : Nat) (app : SocksApplication) :
    Touches x app (app.leavePending c best x) := by
  have hleft : ∀ outcome, Touches x app
      ((app.setStream x fun stream => { stream with circuit := none }).settle c x outcome) := fun outcome =>
    ⟨(setStream_touches x (fun stream => { stream with circuit := none }) app).stream, rfl⟩
  unfold leavePending
  dsimp only
  split
  · exact (hleft .detachHandler).trans (handleStream_touches x _ _)
  · exact hleft .closed

theorem Keeps.findOrBuildBestCircuit (h : s.Keeps t) (best : Option Nat) :
    t.findOrBuildBestCircuit best = s.findOrBuildBestCircuit best := by
  unfold SocksApplication.findOrBuildBestCircuit
  congr 1
  funext c
  rw [h.live, h.circuit c]
  rfl

theorem Keeps.reattaches (h : s.Keeps t) {x : Nat} (hhandler : (t.stream x).detachHandler = (s.stream x).detachHandler)
    (hattempts : (t.stream x).handleAttempts = (s.stream x).handleAttempts) (htor : t.torReady = s.torReady)
    (best : Option Nat) : t.reattaches x best = s.reattaches x best := by
  unfold SocksApplication.reattaches
  rw [h.findOrBuildBestCircuit, hhandler, hattempts, htor]
  congr 2
  funext c
  rw [h.circuit c]
  rfl

/-- `leavePending` keeps the link. -/
theorem leavePending_tied {c x : Nat} {rest : List Nat} {best : List (Nat × Nat)} (h : s.Tied (some (c, x :: rest)) none)
    (hlive : s.LiveMade) (hdone : (s.circuit c).isDone = true)
    (hmay : (s.stream x).status = .detached → s.reattaches x (best.lookup x) = false) :
    (s.leavePending c best x).Tied (some (c, rest)) none := by
  have hmem : x ∈ s.waiting (some (c, x :: rest)) c := by
    rw [waiting_leaving]
    exact List.mem_cons_self
  have hx := (h.made x c ((h.link.mem_iff c x).mp (Or.inr hmem))).1
  have hfailed : (s.stream x).status ≠ .failed := fun heq => h.waits c x hmem nofun (by simp [heq])
  have hleft := leavePending_circuit_tied h
  unfold leavePending
  dsimp only
  split
  · rename_i hhandler
    refine handleStream_tied (settle_tied hleft c x .detachHandler) hlive hx (fun d rest' heq => ?_) ?_
    · obtain ⟨rfl, -⟩ := Prod.mk.inj (Option.some.inj heq)
      exact hdone
    · have hkeeps := (setStream_keeps x (fun stream => { stream with circuit := none }) s).trans
        (settle_keeps c x .detachHandler _)
      refine mayHandle_of_reattaches ?_ ?_ hhandler fun hdetached => ?_
      · rw [settle_stream, setStream_stream_self]
      · rw [settle_stream, setStream_stream_self]
        exact hfailed
      · rw [settle_stream, setStream_stream_self] at hdetached
        rw [hkeeps.reattaches _ _ rfl, hmay hdetached]
        · rw [settle_stream, setStream_stream_self]
        · rw [settle_stream, setStream_stream_self]
  · exact settle_tied hleft c x .closed

theorem leavePendings_tied {c : Nat} {best : List (Nat × Nat)} (pending : List Nat)
    (h : s.Tied (some (c, pending)) none) (hlive : s.LiveMade) (hdone : (s.circuit c).isDone = true)
    (hmay : ∀ x ∈ pending, (s.stream x).status = .detached → s.reattaches x (best.lookup x) = false) :
    (pending.foldl (leavePending c best) s).Tied (some (c, [])) none := by
  induction pending generalizing s with
  | nil => exact h
  | cons x rest ih =>
    have hnodup := h.link.nodup_waiting c
    rw [waiting_leaving] at hnodup
    have hkeeps := leavePending_keeps hlive c best x
    have htouches := leavePending_touches c best x s
    refine ih (leavePending_tied h hlive hdone (hmay x List.mem_cons_self)) (hkeeps.liveMade hlive)
      ((hkeeps.isDone c).trans hdone) fun y hy hdetached => ?_
    have hne : y ≠ x := fun heq => (List.nodup_cons.mp hnodup).1 (heq ▸ hy)
    have hsame := htouches.stream y hne
    rw [hsame] at hdetached
    rw [hkeeps.reattaches (by rw [hsame]) (by rw [hsame]) htouches.torReady]
    exact hmay y (List.mem_cons_of_mem x hy) hdetached

/-- No DETACHED stream that waits for the circuit is reattached to a ready one when it ends. -/
def MayRelease (c : Nat) (best : List (Nat × Nat)) (app : SocksApplication) : Prop :=
  (app.circuit c).done = false → ∀ x ∈ (app.circuit c).pendingStreams,
    (app.stream x).status = .detached → app.reattaches x (best.lookup x) = false

/-- What is not reattached before is not either once the circuit is marked. -/
theorem reattaches_markDone {c x : Nat} {best : Option Nat} {f : Circuit → Circuit}
    (h : s.reattaches x best = false) : ((s.setCircuit c f).markDone c).reattaches x best = false := by
  rw [← Bool.not_eq_true] at h ⊢
  refine fun hmarked => h ?_
  unfold reattaches at hmarked ⊢
  rw [Bool.and_eq_true] at hmarked ⊢
  refine ⟨hmarked.1, ?_⟩
  obtain ⟨d, hbest, hready⟩ := (Option.any_eq_true _ _).mp hmarked.2
  obtain ⟨hsome, hmeets⟩ := Option.filter_eq_some_iff.mp hbest
  simp only [Bool.or_eq_true, decide_eq_true_eq] at hmeets
  obtain ⟨hmem, haccepts⟩ := hmeets
  obtain ⟨hlive, hne⟩ := List.mem_filter.mp hmem
  have hd : d ≠ c := of_decide_eq_true hne
  have hsame : ((s.setCircuit c f).markDone c).circuit d = s.circuit d := by
    rw [markDone_circuit_of_ne hd, setCircuit_circuit, if_neg hd]
  rw [hsame] at haccepts hready
  refine (Option.any_eq_true _ _).mpr ⟨d, Option.filter_eq_some_iff.mpr ⟨hsome, ?_⟩, hready⟩
  simp only [Bool.or_eq_true, decide_eq_true_eq]
  exact ⟨hlive, haccepts⟩

theorem markDone_tied (h : s.Tied none changing) (c : Nat) :
    (s.markDone c).Tied (some (c, (s.circuit c).pendingStreams)) changing := by
  have hset := setCircuit_tied h (c := c) (f := fun circ => { circ with
    done := true
    status := if circ.status = .failed ∨ circ.status = .closed then circ.status else .closed }) rfl rfl
  have hwaiting : (s.markDone c).waiting (some (c, (s.circuit c).pendingStreams)) = (s.markDone c).waiting none := by
    funext d
    unfold waiting
    dsimp only
    split
    · rename_i hd
      rw [hd, markDone_pendingStreams]
    · rfl
  refine ⟨?_, hset.active, ?_, hset.made⟩
  · rw [hwaiting]
    exact hset.link
  · rw [hwaiting]
    exact hset.waits

/-- Nothing is left of the pending streams. -/
theorem Tied.stay {c : Nat} {rest : List Nat} (h : s.Tied (some (c, rest)) changing) {f : Circuit → Circuit}
    (hstreams : (f (s.circuit c)).streams = (s.circuit c).streams) (hpending : (f (s.circuit c)).pendingStreams = rest) :
    (s.setCircuit c f).Tied none changing := by
  have hsame : (s.setCircuit c f).streamsOf = s.streamsOf := by
    rw [streamsOf_setCircuit, hstreams]
    exact Function.update_eq_self c s.streamsOf
  refine ⟨?_, ?_, ?_, h.made⟩
  · rw [hsame, waiting_stay hpending]
    exact h.link
  · rw [hsame]
    exact h.active
  · rw [waiting_stay hpending]
    exact h.waits

/-- `on_done`, after a change of what the link does not depend on. -/
theorem onDone_tied (h : s.Tied none none) (hlive : s.LiveMade) {c : Nat} {best : List (Nat × Nat)} {f : Circuit → Circuit}
    (hstreams : (f (s.circuit c)).streams = (s.circuit c).streams)
    (hpending : (f (s.circuit c)).pendingStreams = (s.circuit c).pendingStreams)
    (hmay : (f (s.circuit c)).done = false → ∀ x ∈ (s.circuit c).pendingStreams,
      (s.stream x).status = .detached → s.reattaches x (best.lookup x) = false) :
    ((s.setCircuit c f).onDone c best).Tied none none := by
  have hset := setCircuit_tied h hstreams hpending
  cases hdone : (f (s.circuit c)).done with
  | true =>
    unfold onDone
    rw [setCircuit_circuit_self, if_pos hdone]
    exact hset
  | false =>
    have hopen : ((s.setCircuit c f).circuit c).done = false := by
      rw [setCircuit_circuit_self]
      exact hdone
    have hliveSet : (s.setCircuit c f).LiveMade := hlive
    have hleft := leavePendings_tied _ (markDone_tied hset c) (markDone_liveMade hliveSet c)
      (markDone_isDone c _) fun x hx hdetached => by
        rw [setCircuit_circuit_self, hpending] at hx
        exact reattaches_markDone (hmay hdone x hx hdetached)
    rw [onDone_eq best hopen]
    exact hleft.stay rfl rfl

/-! ### A circuit becomes ready -/

/-- A pending stream becomes a stream of the circuit, and knows its circuit already. -/
theorem attachPending_members {c x : Nat} (hready : (s.circuit c).isReady = true) (hopen : (s.circuit c).isDone = false)
    (htor : s.torReady = true) (hcircuit : (s.stream x).circuit = some c) (hstream : (s.stream x).isDone = false) :
    (s.attachPending c x).stream = s.stream ∧ (s.attachPending c x).streamCount = s.streamCount ∧
      ((s.attachPending c x).circuit c).streams = (s.circuit c).streams.insert x := by
  unfold attachPending
  rcases attach_cases c x s with ⟨-, hdone | hdone | hdown⟩ | ⟨-, -, -, hattach⟩
  · rw [hdone] at hstream
    cases hstream
  · rw [hdone] at hopen
    cases hopen
  · rw [hdown] at htor
    cases htor
  · have hsame : ((s.addStream c x).setStream x fun stream => { stream with circuit := some c }) = s.addStream c x :=
      setStream_circuit_of_eq hcircuit
    rw [hattach, if_pos hready, hsame]
    refine ⟨rfl, rfl, ?_⟩
    dsimp only
    rw [settle_circuit, addStream, setCircuit_circuit_self]

theorem attachPendings_members {c : Nat} (pending : List Nat) (hready : (s.circuit c).isReady = true)
    (hopen : (s.circuit c).isDone = false) (htor : s.torReady = true)
    (hmine : ∀ x ∈ pending, (s.stream x).circuit = some c ∧ (s.stream x).isDone = false)
    (hnodup : (s.circuit c).streams.Nodup) :
    (pending.foldl (attachPending c) s).stream = s.stream ∧
      (pending.foldl (attachPending c) s).streamCount = s.streamCount ∧
      ((pending.foldl (attachPending c) s).circuit c).streams.Nodup ∧
      ∀ y, y ∈ ((pending.foldl (attachPending c) s).circuit c).streams ↔ y ∈ (s.circuit c).streams ∨ y ∈ pending := by
  induction pending generalizing s with
  | nil => exact ⟨rfl, rfl, hnodup, fun y => (or_iff_left List.not_mem_nil).symm⟩
  | cons x rest ih =>
    obtain ⟨hcircuit, hstream⟩ := hmine x List.mem_cons_self
    obtain ⟨hkept, hcount, hstreams⟩ := attachPending_members hready hopen htor hcircuit hstream
    obtain ⟨hattaches, -⟩ := attachPending_attaches hready x
    obtain ⟨hkept', hcount', hnodup', hmem⟩ := ih (s := s.attachPending c x) (by rw [hattaches.self]; exact hready)
      (by rw [hattaches.self]; exact hopen) (hattaches.torReady.trans htor)
      (fun y hy => by rw [hkept]; exact hmine y (List.mem_cons_of_mem x hy)) (by rw [hstreams]; exact hnodup.insert)
    refine ⟨hkept'.trans hkept, hcount'.trans hcount, hnodup', fun y => ?_⟩
    rw [List.foldl_cons, hmem, hstreams, List.mem_insert_iff, List.mem_cons]
    tauto

/-- Tor is ready, and no stream that waits for the circuit is DETACHED. -/
def MayServe (c : Nat) (app : SocksApplication) : Prop :=
  ∀ x ∈ (app.circuit c).pendingStreams, app.torReady = true ∧ (app.stream x).status ≠ .detached

theorem onParReady_members (h : s.Tied none none) {c : Nat}
    (hshut : (s.circuit c).done = true → (s.circuit c).pendingStreams = []) (hmay : s.MayServe c) :
    (s.onParReady c).stream = s.stream ∧ (s.onParReady c).streamCount = s.streamCount ∧
      ((s.onParReady c).circuit c).streams.Nodup ∧ ∀ y, y ∈ ((s.onParReady c).circuit c).streams ↔
        y ∈ (s.circuit c).streams ∨ y ∈ (s.circuit c).pendingStreams := by
  have hstreams : ((s.markReady c).circuit c).streams = (s.circuit c).streams := by
    rw [markReady, setCircuit_circuit_self]
  have hpending : ((s.markReady c).circuit c).pendingStreams = (s.circuit c).pendingStreams := by
    rw [markReady, setCircuit_circuit_self]
  unfold onParReady
  dsimp only
  rw [hpending, setCircuit_circuit_self, ← hstreams]
  have hnodup : ((s.markReady c).circuit c).streams.Nodup := by
    rw [hstreams]
    exact h.link.nodup_active c
  by_cases hnone : (s.circuit c).pendingStreams = []
  · rw [hnone]
    exact ⟨rfl, rfl, hnodup, fun y => (or_iff_left List.not_mem_nil).symm⟩
  · obtain ⟨x, hx⟩ := List.exists_mem_of_ne_nil _ hnone
    have hready : ((s.markReady c).circuit c).isReady = true := by simp [markReady, Circuit.isReady]
    have hdone : (s.circuit c).done = false := by
      cases hdone : (s.circuit c).done with
      | false => rfl
      | true => exact absurd (hshut hdone) hnone
    have hopen : ((s.markReady c).circuit c).isDone = false := by
      simp [markReady, Circuit.isDone, Circuit.isOpen, hdone]
    refine attachPendings_members (s := s.markReady c) _ hready hopen (hmay x hx).1 (fun y hy => ⟨?_, ?_⟩) hnodup
    · exact (h.link.mem_iff c y).mp (Or.inr hy)
    · have hstatus := h.waits c y hy (Option.some_ne_none y).symm
      simp only [List.mem_cons, List.not_mem_nil, or_false, not_or] at hstatus
      exact decide_eq_false hstatus.1

theorem onParReady_tied (h : s.Tied none none) {c : Nat}
    (hshut : (s.circuit c).done = true → (s.circuit c).pendingStreams = []) (hmay : s.MayServe c) :
    (s.onParReady c).Tied none none := by
  have hreadies := onParReady_readies c s
  obtain ⟨hkept, hcount, hnodup, hmem⟩ := onParReady_members h hshut hmay
  have hstreams : (s.onParReady c).streamsOf = Function.update s.streamsOf c ((s.onParReady c).circuit c).streams := by
    funext d
    rw [Function.update_apply]
    unfold streamsOf
    split
    · rename_i hd
      rw [hd]
    · rename_i hd
      rw [hreadies.other d hd]
  have hwaiting : (s.onParReady c).waiting none = Function.update (s.waiting none) c [] := by
    funext d
    rw [hreadies.waiting_eq, Function.update_apply]
  have hcircuits : (s.onParReady c).circuitOf = s.circuitOf := by
    unfold circuitOf
    rw [hkept]
  refine h.relink ?_ (fun y => by rw [hkept]) (fun d y hy => ?_) (fun d y hy => ?_) (fun y d hy => ?_) hcount
    hreadies.circuitCount
  · rw [hstreams, hwaiting, hcircuits]
    exact h.link.activate hnodup hmem
  · rw [hstreams, Function.update_apply] at hy
    split at hy
    · rename_i hd
      subst hd
      refine ((hmem y).mp hy).imp_right fun hpending hne => ?_
      have hwaits := h.waits d y hpending hne
      have hdetached := (hmay y hpending).2
      simp only [List.mem_cons, List.not_mem_nil, or_false, not_or] at hwaits ⊢
      exact ⟨hwaits.1, hwaits.2, hdetached⟩
    · exact Or.inl hy
  · rw [hwaiting, Function.update_apply] at hy
    split at hy
    · exact absurd hy List.not_mem_nil
    · exact Or.inl hy
  · rw [hcircuits] at hy
    exact Or.inl hy

/-! ### Events of streams -/

/-- Of a stream only its circuit changes. -/
structure Relinks (x : Nat) (s t : SocksApplication) : Prop where
  stream : ∃ circuit, t.stream x = { s.stream x with circuit := circuit }
  torReady : t.torReady = s.torReady
  streamCount : t.streamCount = s.streamCount

theorem takeCircuit_relinks (x : Nat) (circId : Option Nat) (app : SocksApplication) :
    Relinks x app (app.takeCircuit x circId).1 := by
  unfold takeCircuit
  split
  · exact ⟨⟨(app.stream x).circuit, rfl⟩, rfl, rfl⟩
  · split
    · exact ⟨⟨none, setStream_stream_self x (fun stream => { stream with circuit := none }) app⟩, rfl, rfl⟩
    · rename_i c _
      exact ⟨⟨some c, setStream_stream_self x (fun stream => { stream with circuit := some c }) app⟩, rfl, rfl⟩

theorem removeStream_frame (c x : Nat) (outcome : Outcome) (app : SocksApplication) :
    (app.removeStream c x outcome).stream = app.stream ∧ (app.removeStream c x outcome).torReady = app.torReady ∧
      (app.removeStream c x outcome).streamCount = app.streamCount := by
  unfold removeStream
  split
  · exact ⟨rfl, rfl, rfl⟩
  · split
    · exact ⟨rfl, rfl, rfl⟩
    · exact ⟨rfl, rfl, rfl⟩

theorem leaveCircuit_relinks (x : Nat) (outcome : Outcome) (app : SocksApplication) :
    Relinks x app (app.leaveCircuit x outcome) := by
  unfold leaveCircuit
  split
  · exact ⟨⟨(app.stream x).circuit, rfl⟩, rfl, rfl⟩
  · rename_i c _
    obtain ⟨hstream, htor, hcount⟩ := removeStream_frame c x outcome app
    refine ⟨⟨none, ?_⟩, htor, hcount⟩
    rw [setStream_stream_self, hstream]

/-- The circuit of the event is that of the stream, and the stream does not wait for it, or the
stream has none. -/
def MayTake (x : Nat) (circId : Option Nat) (app : SocksApplication) : Prop :=
  match circId with
  | none => True
  | some id =>
    match app.getCircuit id with
    | none => (app.stream x).circuit = none
    | some c => (app.stream x).circuit = none ∨
      (app.stream x).circuit = some c ∧ x ∉ (app.circuit c).pendingStreams

/-- Made circuits are those with an entry. -/
def KnownMade (app : SocksApplication) : Prop := ∀ c ∈ app.circuits, c < app.circuitCount

theorem getCircuit_made (h : s.KnownMade) {id c : Nat} (hget : s.getCircuit id = some c) : c < s.circuitCount :=
  h c (List.mem_of_find?_eq_some hget)

theorem takeCircuit_tied {x : Nat} {circId : Option Nat} (h : s.Tied none (some x)) (hknown : s.KnownMade)
    (hx : x < s.streamCount) (hmay : s.MayTake x circId) :
    (s.takeCircuit x circId).1.Tied none (some x) ∧
      ((s.takeCircuit x circId).2 = false → ((s.takeCircuit x circId).1.stream x).circuit = none) := by
  cases circId with
  | none => exact ⟨h, fun hfalse => by cases hfalse⟩
  | some id =>
    rw [MayTake] at hmay
    rw [takeCircuit]
    cases hget : s.getCircuit id with
    | none =>
      rw [hget] at hmay
      dsimp only at hmay ⊢
      refine ⟨setStream_tied h hmay.symm rfl, fun _ => ?_⟩
      rw [setStream_stream_self]
    | some c =>
      rw [hget] at hmay
      dsimp only at hmay ⊢
      refine ⟨?_, fun hfalse => by cases hfalse⟩
      have hswap : (s.setStream x fun stream => { stream with circuit := some c }).addStream c x =
          (s.addStream c x).setStream x fun stream => { stream with circuit := some c } := rfl
      rw [hswap]
      rcases hmay with hnone | ⟨hcircuit, hpending⟩
      · exact addStream_tied h hx (getCircuit_made hknown hget) hnone fun hne => absurd rfl hne
      · have hmem : x ∈ (s.circuit c).streams := ((h.link.mem_iff c x).mpr hcircuit).resolve_right hpending
        rw [addStream_of_mem hmem, setStream_circuit_of_eq hcircuit]
        exact h

/-- The circuit fits, and a DETACHED stream is not reattached to a ready one. -/
def StreamDisciplined (x : Nat) (status : StreamStatus) (circId best : Option Nat) (app : SocksApplication) : Prop :=
  app.MayTake x circId ∧ (status = .detached → (circId.all fun id => (app.getCircuit id).isSome) = true →
    app.reattaches x best = false)

theorem takeCircuit_snd (x : Nat) (circId : Option Nat) (app : SocksApplication) :
    (app.takeCircuit x circId).2 = circId.all fun id => (app.getCircuit id).isSome := by
  cases circId with
  | none => rfl
  | some id =>
    rw [takeCircuit, Option.all_some]
    cases app.getCircuit id with
    | none => rfl
    | some c => rfl

theorem setStatus_mayTake {x : Nat} {circId : Option Nat} (status : StreamStatus) (hmay : s.MayTake x circId) :
    (s.setStream x fun stream => { stream with status := status }).MayTake x circId := by
  have hget : ∀ id, (s.setStream x fun stream => { stream with status := status }).getCircuit id = s.getCircuit id :=
    fun _ => rfl
  unfold MayTake at hmay ⊢
  simp only [hget, setStream_stream_self, setStream_circuit]
  exact hmay

/-- What is left of an event once the stream has its circuit. -/
theorem leave_tied {x : Nat} (h : s.Tied none (some x)) (outcome : Outcome) : (s.leaveCircuit x outcome).Tied none none :=
  (leaveCircuit_tied h x outcome).restore (Or.inl (leaveCircuit_circuit x outcome s))

theorem detach_tied {x : Nat} {best : Option Nat} (h : s.Tied none (some x)) (hlive : s.LiveMade) (hx : x < s.streamCount)
    (hstatus : (s.stream x).status = .detached) (hhandler : (s.stream x).detachHandler = true)
    (hmay : s.reattaches x best = false) : ((s.leaveCircuit x .detachHandler).handleStream x best).Tied none none := by
  have hkeeps := leaveCircuit_keeps x .detachHandler s
  obtain ⟨⟨circuit, hstream⟩, htor, hcount⟩ := leaveCircuit_relinks x .detachHandler s
  refine handleStream_tied (leave_tied h .detachHandler) (hkeeps.liveMade hlive) (hcount ▸ hx)
    (fun _ _ heq => by cases heq) ?_
  refine mayHandle_of_reattaches (leaveCircuit_circuit x .detachHandler s) ?_ ?_ fun _ => ?_
  · rw [hstream, hstatus]
    decide
  · rw [hstream]
    exact hhandler
  · rw [hkeeps.reattaches _ _ htor]
    · exact hmay
    · rw [hstream]
    · rw [hstream]

theorem streamStatusEvent_tied (h : s.Tied none none) (hlive : s.LiveMade) (hknown : s.KnownMade) {x : Nat}
    {status : StreamStatus} {circId best : Option Nat} (hx : x < s.streamCount)
    (hmay : s.StreamDisciplined x status circId best) : (s.streamStatusEvent x status circId best).Tied none none := by
  obtain ⟨htake, hreattaches⟩ := hmay
  have hset := setStatus_tied h x status
  obtain ⟨htaken, hunknown⟩ := takeCircuit_tied hset hknown hx (setStatus_mayTake status htake)
  have hkeeps := (setStream_keeps x (fun stream => { stream with status := status }) s).trans
    (takeCircuit_keeps x circId _)
  obtain ⟨⟨circuit, hstream⟩, htor, hcount⟩ := takeCircuit_relinks x circId
    (s.setStream x fun stream => { stream with status := status })
  have hsnd := takeCircuit_snd x circId (s.setStream x fun stream => { stream with status := status })
  unfold streamStatusEvent
  dsimp only
  generalize takeCircuit x circId _ = taken at htaken hunknown hkeeps hstream htor hcount hsnd
  obtain ⟨app, known⟩ := taken
  dsimp only at htaken hunknown hkeeps hstream htor hcount hsnd ⊢
  rw [setStream_stream_self] at hstream
  cases known with
  | false => exact htaken.restore (Or.inl (hunknown rfl))
  | true =>
    have hstatus : (app.stream x).status = status := by rw [hstream]
    dsimp only
    split
    · split
      · rename_i hhandler
        refine detach_tied htaken (hkeeps.liveMade hlive) (hcount ▸ hx) hstatus hhandler ?_
        rw [hkeeps.reattaches _ _ htor]
        · exact hreattaches rfl hsnd.symm
        · rw [hstream]
        · rw [hstream]
      · exact leave_tied htaken .closed
    · exact leave_tied htaken .closed
    · exact leave_tied htaken .closed
    · rename_i hdetached hfailed hclosed
      refine htaken.restore (Or.inr ?_)
      rw [hstatus]
      simp only [List.mem_cons, List.not_mem_nil, or_false, not_or]
      exact ⟨hclosed, hfailed, hdetached⟩

/-! ### Steps -/

structure Steady (app : SocksApplication) : Prop where
  tied : app.Tied none none
  shut : ∀ c, (app.circuit c).done = true → (app.circuit c).pendingStreams = []
  live : app.LiveMade
  known : app.KnownMade

theorem Keeps.steady (h : s.Keeps t) (hs : s.Steady) (ht : t.Tied none none) : t.Steady where
  tied := ht
  shut := fun c hdone => by
    rw [h.circuit c] at hdone
    have hall := h.shut c (Or.inl (isDone_of_done hdone))
    rw [hs.shut c hdone] at hall
    exact List.eq_nil_iff_forall_not_mem.mpr fun x hx => List.not_mem_nil (hall x hx)
  live := h.liveMade hs.live
  known := fun c hc => by
    rw [h.circuits] at hc
    rw [h.circuitCount]
    exact hs.known c hc

theorem Changes.steady {c : Nat} (h : Changes c s t) (hs : s.Steady) (ht : t.Tied none none)
    (hc : (t.circuit c).done = true → (t.circuit c).pendingStreams = []) : t.Steady where
  tied := ht
  shut := fun d hdone => by
    by_cases hd : d = c
    · rw [hd] at hdone ⊢
      exact hc hdone
    · rw [h.other d hd] at hdone
      have hall := h.shut d hd (Or.inl (isDone_of_done hdone))
      rw [hs.shut d hdone] at hall
      exact List.eq_nil_iff_forall_not_mem.mpr fun x hx => List.not_mem_nil (hall x hx)
  live := fun d hd => by
    rw [h.circuitCount]
    exact hs.live d (h.live d hd)
  known := fun d hd => by
    rw [h.circuits] at hd
    rw [h.circuitCount]
    exact hs.known d hd

theorem setCircuit_steady (h : s.Steady) {c : Nat} {f : Circuit → Circuit}
    (hstreams : (f (s.circuit c)).streams = (s.circuit c).streams)
    (hpending : (f (s.circuit c)).pendingStreams = (s.circuit c).pendingStreams)
    (hdone : (f (s.circuit c)).done = true → (s.circuit c).done = true) : (s.setCircuit c f).Steady := by
  refine (setCircuit_changes c f s).steady h (setCircuit_tied h.tied hstreams hpending) fun hset => ?_
  rw [setCircuit_circuit_self] at hset ⊢
  rw [hpending]
  exact h.shut c (hdone hset)

theorem onDone_steady (h : s.Steady) {c : Nat} {best : List (Nat × Nat)} {f : Circuit → Circuit}
    (hstreams : (f (s.circuit c)).streams = (s.circuit c).streams)
    (hpending : (f (s.circuit c)).pendingStreams = (s.circuit c).pendingStreams)
    (hdone : (f (s.circuit c)).done = true → (s.circuit c).done = true)
    (hmay : (f (s.circuit c)).done = false → ∀ x ∈ (s.circuit c).pendingStreams,
      (s.stream x).status = .detached → s.reattaches x (best.lookup x) = false) :
    ((s.setCircuit c f).onDone c best).Steady := by
  have hset := setCircuit_steady h hstreams hpending hdone
  cases hend : (f (s.circuit c)).done with
  | true =>
    unfold onDone
    rw [setCircuit_circuit_self, if_pos hend]
    exact hset
  | false =>
    have hopen : ((s.setCircuit c f).circuit c).done = false := by
      rw [setCircuit_circuit_self]
      exact hend
    have hends := onDone_ends hset.live best hopen
    obtain ⟨status, streams, hself⟩ := hends.self
    refine hends.toChanges.steady hset (onDone_tied h.tied h.live hstreams hpending hmay) fun _ => ?_
    rw [hself]

theorem onParReady_steady (h : s.Steady) {c : Nat} (hmay : s.MayServe c) : (s.onParReady c).Steady := by
  have hreadies := onParReady_readies c s
  refine hreadies.changes.steady h (onParReady_tied h.tied (h.shut c) hmay) fun _ => ?_
  rw [hreadies.self]

theorem newCircuit_steady (h : s.Steady) {circ : Circuit} (hstreams : circ.streams = []) (hpending : circ.pendingStreams = []) :
    (s.newCircuit circ).Steady := by
  have hnobody : ∀ x, s.circuitOf x ≠ some s.circuitCount := fun x hx =>
    absurd (h.tied.made x s.circuitCount hx).2 (Nat.lt_irrefl _)
  have hstreamsBefore : (s.circuit s.circuitCount).streams = [] :=
    List.eq_nil_iff_forall_not_mem.mpr fun x hx => hnobody x ((h.tied.link.mem_iff _ x).mp (Or.inl hx))
  have hpendingBefore : (s.circuit s.circuitCount).pendingStreams = [] :=
    List.eq_nil_iff_forall_not_mem.mpr fun x hx => hnobody x ((h.tied.link.mem_iff _ x).mp (Or.inr hx))
  have hset := setCircuit_tied h.tied (f := fun _ => circ) (hstreams.trans hstreamsBefore.symm)
    (hpending.trans hpendingBefore.symm)
  refine ⟨⟨hset.link, hset.active, hset.waits, fun x c hc => ?_⟩, fun c hdone => ?_, fun c hc => ?_, fun c hc => ?_⟩
  · have hmade := hset.made x c hc
    exact ⟨hmade.1, Nat.lt_succ_of_lt hmade.2⟩
  · by_cases hc : c = s.circuitCount
    · rw [hc, newCircuit_circuit_self]
      exact hpending
    · have hsame : (s.newCircuit circ).circuit c = s.circuit c := by
        unfold newCircuit
        dsimp only
        rw [setCircuit_circuit, if_neg hc]
      rw [hsame] at hdone ⊢
      exact h.shut c hdone
  · unfold newCircuit at hc
    dsimp only at hc
    split at hc
    · rcases List.mem_append.mp hc with hc | hc
      · exact Nat.lt_succ_of_lt (h.live c hc)
      · exact List.mem_singleton.mp hc ▸ Nat.lt_succ_self _
    · exact Nat.lt_succ_of_lt (h.live c hc)
  · rcases List.mem_append.mp hc with hc | hc
    · exact Nat.lt_succ_of_lt (h.known c hc)
    · exact List.mem_singleton.mp hc ▸ Nat.lt_succ_self _

/-- A stream that is made now is in no circuit. -/
theorem newStream_steady (h : s.Steady) {stream : Stream} (hstream : stream.circuit = none) :
    Steady { s.setStream s.streamCount (fun _ => stream) with streamCount := s.streamCount + 1 } := by
  have hnone : s.circuitOf s.streamCount = none := by
    cases hcircuit : s.circuitOf s.streamCount with
    | none => rfl
    | some c => exact absurd (h.tied.made _ c hcircuit).1 (Nat.lt_irrefl _)
  have hcircuits : (s.setStream s.streamCount fun _ => stream).circuitOf = s.circuitOf := by
    rw [circuitOf_setStream, hstream, ← hnone]
    exact Function.update_eq_self s.streamCount s.circuitOf
  have hother : ∀ c x, x ∈ s.streamsOf c ∨ x ∈ s.waiting none c →
      (s.setStream s.streamCount fun _ => stream).stream x = s.stream x := fun c x hx => by
    have howner := (h.tied.link.mem_iff c x).mp hx
    have hne : x ≠ s.streamCount := fun heq => by
      rw [heq, hnone] at howner
      cases howner
    rw [setStream_stream, if_neg hne]
  refine ⟨⟨?_, fun c x hx hne => ?_, fun c x hx hne => ?_, fun x c hc => ?_⟩, h.shut, h.live, h.known⟩
  · have hlink := h.tied.link
    rw [← hcircuits] at hlink
    exact hlink
  · have hactive := h.tied.active c x hx hne
    rw [← hother c x (Or.inl hx)] at hactive
    exact hactive
  · have hwaits := h.tied.waits c x hx hne
    rw [← hother c x (Or.inr hx)] at hwaits
    exact hwaits
  · have hmade := h.tied.made x c (hcircuits ▸ hc)
    exact ⟨Nat.lt_succ_of_lt hmade.1, hmade.2⟩

def CircDisciplined (c : Nat) (event : CircEvent) (best : List (Nat × Nat)) (app : SocksApplication) : Prop :=
  match event with
  | .closed | .failed => app.MayRelease c best
  | .built =>
    if (app.circuit c).isBitBlinderCircuit && (app.circuit c).sendPayments then app.torReady = false → app.MayRelease c best
    else app.MayServe c
  | .launched | .extended => True

/-- Events name the circuit that a stream has, if it has one, and not while it waits for it; a stream
is attached only where it is already or while it has no circuit, and not after it FAILED; no
DETACHED stream is attached to a circuit that is ready; and Tor is ready when a circuit with
pending streams becomes ready. -/
def Disciplined (app : SocksApplication) : AppAction → Prop
  | .circEvent id event best =>
    match app.getCircuit id with
    | none => True
    | some c => app.CircDisciplined c event best
  | .parReady c => app.MayServe c
  | .parFailed c best | .close c best => app.MayRelease c best
  | .streamEvent x status circId best => app.StreamDisciplined x status circId best
  | .handleStream x best => app.MayHandle x best
  | .circuitHandleStream c x | .attach c x => app.MayAttach c x
  | .createCircuit _ | .creationSuccess .. | .creationFailure _ | .newStream .. | .sendDhtRequest .. | .torReady _ => True

theorem onDone_steady_self (h : s.Steady) {c : Nat} {best : List (Nat × Nat)} (hmay : s.MayRelease c best) :
    (s.onDone c best).Steady := by
  have hsteady := onDone_steady h (f := fun circ => { circ with status := (s.circuit c).status }) rfl rfl (fun hdone => hdone) hmay
  rwa [setCircuit_status_self] at hsteady

theorem creationSuccess_steady (h : s.Steady) (c id : Nat) (best : List (Nat × Nat)) :
    ((s.setCircuit c fun circ => { circ with creating := false }).onLearnedId c id best).Steady := by
  have hset := setCircuit_steady h (c := c) (f := fun circ => { circ with creating := false }) rfl rfl fun hdone => hdone
  have hlearned := setCircuit_steady hset (c := c) (f := fun circ => { circ with id := some id }) rfl rfl fun hdone => hdone
  unfold onLearnedId
  dsimp only
  split
  · rename_i hdone
    refine onDone_steady hlearned rfl rfl (fun hopen => by cases hopen) fun _ x hx => ?_
    rw [hlearned.shut c hdone] at hx
    exact absurd hx List.not_mem_nil
  · exact setCircuit_steady hlearned rfl rfl fun hdone => hdone

theorem creationFailure_steady (h : s.Steady) (c : Nat) :
    Steady { s.setCircuit c (fun circ => { circ with creating := false, creationFailed := true }) with
      circuits := s.circuits.filter (· ≠ c)
      liveCircuits := s.liveCircuits.filter (· ≠ c) } := by
  have hset := setCircuit_steady h (c := c) (f := fun circ => { circ with creating := false, creationFailed := true })
    rfl rfl fun hdone => hdone
  refine ⟨⟨hset.tied.link, hset.tied.active, hset.tied.waits, hset.tied.made⟩, hset.shut, fun d hd => ?_, fun d hd => ?_⟩
  · exact h.live d (List.mem_filter.mp hd).1
  · exact h.known d (List.mem_filter.mp hd).1

theorem setStatus_steady (h : s.Steady) (c : Nat) (status : CircStatus) :
    (s.setCircuit c fun circ => { circ with status := status }).Steady := setCircuit_steady h rfl rfl fun hdone => hdone

theorem circStatusEvent_steady (h : s.Steady) {c : Nat} {event : CircEvent} {best : List (Nat × Nat)}
    (hmay : s.CircDisciplined c event best) : (s.circStatusEvent c event best).Steady := by
  cases event with
  | launched | extended => exact setStatus_steady h c _
  | closed | failed => exact onDone_steady h rfl rfl (fun hdone => hdone) hmay
  | built =>
    rw [circStatusEvent, setCircuit_circuit_self]
    rw [CircDisciplined] at hmay
    dsimp only
    split
    · rename_i hpays
      rw [if_pos hpays] at hmay
      rw [setStatus_setStatus, setCircuit_torReady]
      cases htor : s.torReady with
      | true => exact setStatus_steady h c _
      | false => exact onDone_steady h rfl rfl (fun hdone => hdone) (hmay htor)
    · rename_i hpays
      rw [if_neg hpays] at hmay
      refine onParReady_steady (setStatus_steady h c _) ?_
      unfold MayServe
      rw [setCircuit_circuit_self]
      exact hmay

theorem step_steady {action : AppAction} (h : s.Steady) (hmay : s.Disciplined action) (hstep : s.step action = some t) :
    t.Steady := by
  cases action with
  | createCircuit sendPayments =>
    obtain rfl := Option.some.inj hstep
    exact newCircuit_steady h rfl rfl
  | creationSuccess c id best =>
    obtain ⟨-, ⟨⟩⟩ := Option.ite_none_right_eq_some.mp hstep
    exact creationSuccess_steady h c id best
  | creationFailure c =>
    obtain ⟨-, ⟨⟩⟩ := Option.ite_none_right_eq_some.mp hstep
    exact creationFailure_steady h c
  | circEvent id event best =>
    rw [step] at hstep
    rw [Disciplined] at hmay
    cases hget : s.getCircuit id with
    | none =>
      rw [hget] at hstep
      obtain rfl := Option.some.inj hstep
      exact newCircuit_steady h rfl rfl
    | some c =>
      rw [hget] at hstep hmay
      obtain rfl := Option.some.inj hstep
      exact circStatusEvent_steady h hmay
  | parReady c =>
    obtain ⟨-, ⟨⟩⟩ := Option.ite_none_right_eq_some.mp hstep
    exact onParReady_steady h hmay
  | parFailed c best =>
    obtain ⟨-, ⟨⟩⟩ := Option.ite_none_right_eq_some.mp hstep
    exact onDone_steady_self h hmay
  | close c best =>
    obtain ⟨-, ⟨⟩⟩ := Option.ite_none_right_eq_some.mp hstep
    exact onDone_steady_self h hmay
  | newStream resolve detachHandler =>
    obtain rfl := Option.some.inj hstep
    exact newStream_steady h rfl
  | streamEvent x status circId best =>
    obtain ⟨hx, ⟨⟩⟩ := Option.ite_none_right_eq_some.mp hstep
    refine (streamStatusEvent_keeps h.live x status circId best).steady h ?_
    exact streamStatusEvent_tied h.tied h.live h.known hx hmay
  | handleStream x best =>
    obtain ⟨hx, ⟨⟩⟩ := Option.ite_none_right_eq_some.mp hstep
    refine (handleStream_keeps h.live x best).steady h (handleStream_tied h.tied h.live hx (fun _ _ heq => ?_) hmay)
    cases heq
  | circuitHandleStream c x =>
    obtain ⟨⟨hc, hx⟩, ⟨⟩⟩ := Option.ite_none_right_eq_some.mp hstep
    have hkeeps := setStream_keeps x (fun stream => { stream with detachHandler := false }) s
    have htied := setStream_tied h.tied (x := x) (g := fun stream => { stream with detachHandler := false }) rfl rfl
    have hc' : c < (s.setStream x fun stream => { stream with detachHandler := false }).circuitCount := hc
    have hattach : Keeps _ (s.circuitHandleStream c x) := attach_keeps hc' x
    refine (hkeeps.trans hattach).steady h (attach_tied htied hx hc (fun _ _ heq => ?_) ?_)
    · cases heq
    · unfold MayAttach
      rw [setStream_stream_self]
      exact hmay
  | attach c x =>
    obtain ⟨⟨hc, hx⟩, ⟨⟩⟩ := Option.ite_none_right_eq_some.mp hstep
    refine (attach_keeps hc x).steady h (attach_tied h.tied hx hc (fun _ _ heq => ?_) hmay)
    cases heq
  | sendDhtRequest c request =>
    obtain ⟨-, ⟨⟩⟩ := Option.ite_none_right_eq_some.mp hstep
    split
    · exact h
    · exact setCircuit_steady h rfl rfl fun hdone => hdone
  | torReady ready =>
    obtain rfl := Option.some.inj hstep
    exact ⟨⟨h.tied.link, h.tied.active, h.tied.waits, h.tied.made⟩, h.shut, h.live, h.known⟩

theorem initial_steady : initial.Steady where
  tied := by
    refine ⟨⟨fun c x => ?_, fun _ => List.disjoint_nil_left _, fun _ => List.nodup_nil, fun _ => List.nodup_nil⟩,
      fun c x hx => absurd hx List.not_mem_nil, fun c x hx => absurd hx List.not_mem_nil, fun x c hx => by cases hx⟩
    exact iff_of_false (fun hx => hx.elim List.not_mem_nil List.not_mem_nil) nofun
  shut := fun _ _ => rfl
  live := fun _ hc => absurd hc List.not_mem_nil
  known := fun _ hc => absurd hc List.not_mem_nil

end

/-- Streams and circuits agree as long as every step is disciplined. -/
theorem members_agree {actions : List AppAction} {s : SocksApplication}
    (hrun : Run step Disciplined initial actions s) : s.MembersAgree :=
  (hrun.invariant (I := Steady) (fun h hmay hstep => step_steady h hmay hstep) initial_steady).tied.membersAgree

/-- An event that names another circuit puts the stream there, and it stays where it is. -/
theorem streamStatusEvent_two_circuits {app : SocksApplication} {c d x id : Nat} {status : StreamStatus} (best : Option Nat)
    (hx : x ∈ (app.circuit c).streams) (hget : app.getCircuit id = some d) (hcd : c ≠ d)
    (hstatus : status ∉ [.detached, .failed, .closed]) :
    x ∈ ((app.streamStatusEvent x status (some id) best).circuit c).streams ∧
      x ∈ ((app.streamStatusEvent x status (some id) best).circuit d).streams := by
  have htaken : (app.setStream x fun stream => { stream with status := status }).takeCircuit x (some id) =
      (((app.setStream x fun stream => { stream with status := status }).setStream x fun stream =>
        { stream with circuit := some d }).addStream d x, true) := by
    have hsame : (app.setStream x fun stream => { stream with status := status }).getCircuit id = some d := hget
    rw [takeCircuit, hsame]
  simp only [List.mem_cons, List.not_mem_nil, or_false, not_or] at hstatus
  obtain ⟨hdetached, hfailed, hclosed⟩ := hstatus
  unfold streamStatusEvent
  dsimp only
  rw [htaken]
  dsimp only
  split
  · exact absurd rfl hdetached
  · exact absurd rfl hfailed
  · exact absurd rfl hclosed
  · unfold addStream
    rw [setCircuit_circuit, if_neg hcd, setCircuit_circuit_self]
    exact ⟨hx, List.mem_insert_self⟩

instance decidableMayAttach (c x : Nat) (app : SocksApplication) : Decidable (app.MayAttach c x) :=
  inferInstanceAs (Decidable ((app.stream x).isDone = true ∨ (app.circuit c).isDone = true ∨ app.torReady = false ∨
    if (app.circuit c).isReady then
      x ∈ (app.circuit c).streams ∨ (app.stream x).circuit = none ∧ (app.stream x).status ∉ [.failed, .detached]
    else x ∈ (app.circuit c).pendingStreams ∨ (app.stream x).circuit = none ∧ (app.stream x).status ≠ .failed))

instance (x : Nat) (best : Option Nat) (app : SocksApplication) : Decidable (app.MayHandle x best) :=
  inferInstanceAs (Decidable (_ → ∀ c ∈ app.findOrBuildBestCircuit best, app.MayAttach c x))

instance decidableMayRelease (c : Nat) (best : List (Nat × Nat)) (app : SocksApplication) :
    Decidable (app.MayRelease c best) :=
  inferInstanceAs (Decidable (_ → ∀ x ∈ (app.circuit c).pendingStreams, _ → app.reattaches x (best.lookup x) = false))

instance decidableMayServe (c : Nat) (app : SocksApplication) : Decidable (app.MayServe c) :=
  inferInstanceAs (Decidable (∀ x ∈ (app.circuit c).pendingStreams, app.torReady = true ∧ (app.stream x).status ≠ .detached))

instance decidableMayTake (x : Nat) (circId : Option Nat) (app : SocksApplication) : Decidable (app.MayTake x circId) :=
  match circId with
  | none => isTrue trivial
  | some id =>
    show Decidable (match app.getCircuit id with
      | none => (app.stream x).circuit = none
      | some c => (app.stream x).circuit = none ∨
        (app.stream x).circuit = some c ∧ x ∉ (app.circuit c).pendingStreams) from
    match app.getCircuit id with
    | none => inferInstanceAs (Decidable ((app.stream x).circuit = none))
    | some c => inferInstanceAs (Decidable ((app.stream x).circuit = none ∨
        (app.stream x).circuit = some c ∧ x ∉ (app.circuit c).pendingStreams))

instance decidableCircDisciplined (c : Nat) (best : List (Nat × Nat)) (app : SocksApplication) :
    ∀ event, Decidable (app.CircDisciplined c event best)
  | .closed | .failed => decidableMayRelease c best app
  | .built => inferInstanceAs (Decidable (if (app.circuit c).isBitBlinderCircuit && (app.circuit c).sendPayments then
      app.torReady = false → app.MayRelease c best else app.MayServe c))
  | .launched | .extended => isTrue trivial

instance decidableDisciplined (app : SocksApplication) : ∀ action, Decidable (app.Disciplined action)
  | .circEvent id event best =>
    show Decidable (match app.getCircuit id with
      | none => True
      | some c => app.CircDisciplined c event best) from
    match app.getCircuit id with
    | none => isTrue trivial
    | some c => decidableCircDisciplined c best app event
  | .parReady c => decidableMayServe c app
  | .parFailed c best | .close c best => decidableMayRelease c best app
  | .streamEvent x status circId best => inferInstanceAs (Decidable (app.MayTake x circId ∧ (status = .detached →
      (circId.all fun id => (app.getCircuit id).isSome) = true → app.reattaches x best = false)))
  | .handleStream x best => inferInstanceAs (Decidable (app.MayHandle x best))
  | .circuitHandleStream c x | .attach c x => decidableMayAttach c x app
  | .createCircuit _ | .creationSuccess .. | .creationFailure _ | .newStream .. | .sendDhtRequest .. | .torReady _ =>
    isTrue trivial

/-- One stream waits for a circuit, is detached from it and waits for another one. -/
def detachedActions : List AppAction :=
  [.createCircuit true, .newStream false true, .handleStream 0 (some 0), .creationSuccess 0 5 [],
    .circEvent 5 .built [], .parReady 0, .streamEvent 0 .sentconnect (some 5) none, .createCircuit true,
    .streamEvent 0 .detached (some 5) (some 1)]

theorem detached_members_agree : ∃ s, Run step Disciplined initial detachedActions s ∧
    (s.circuit 1).pendingStreams = [0] ∧ s.numActiveStreams 1 = 1 ∧ s.MembersAgree := by
  have hend : (exec step initial detachedActions).any
      (fun s => decide ((s.circuit 1).pendingStreams = [0] ∧ s.numActiveStreams 1 = 1)) = true := by
    decide
  have hok : EachStep step Disciplined initial detachedActions := by decide
  obtain ⟨s, hrun, hs⟩ := exists_run hend hok
  obtain ⟨hpending, hactive⟩ := of_decide_eq_true hs
  exact ⟨s, hrun, hpending, hactive, members_agree hrun⟩

/-- The circuit that it is moved to is ready, and does not count it. -/
theorem reattached_stream_not_counted : ∃ s, Run step (fun _ _ => True) initial
      [.createCircuit false, .creationSuccess 0 5 [], .circEvent 5 .built [], .createCircuit false,
        .creationSuccess 1 6 [], .circEvent 6 .built [], .newStream false true, .handleStream 0 (some 0),
        .streamEvent 0 .sentconnect (some 5) none, .streamEvent 0 .detached (some 5) (some 1)] s ∧
    (s.circuit 1).streams = [0] ∧ (s.stream 0).circuit = some 1 ∧ (s.stream 0).status = .detached ∧
    s.numActiveStreams 1 = 0 ∧ ¬s.MembersAgree := by
  have hend : (exec step initial
      [.createCircuit false, .creationSuccess 0 5 [], .circEvent 5 .built [], .createCircuit false,
        .creationSuccess 1 6 [], .circEvent 6 .built [], .newStream false true, .handleStream 0 (some 0),
        .streamEvent 0 .sentconnect (some 5) none, .streamEvent 0 .detached (some 5) (some 1)]).any
      (fun s => decide ((s.circuit 1).streams = [0] ∧ (s.stream 0).circuit = some 1 ∧
        (s.stream 0).status = .detached ∧ s.numActiveStreams 1 = 0 ∧ s.streamCount = 1)) = true := by
    decide
  obtain ⟨s, hrun, hs⟩ := exists_run hend (eachStep_true _ _)
  obtain ⟨hstreams, hcircuit, hstatus, hactive, hcount⟩ := of_decide_eq_true hs
  refine ⟨s, hrun, hstreams, hcircuit, hstatus, hactive, fun hagree => ?_⟩
  have hone := hagree.active 1
  rw [hactive, hcount] at hone
  simp [List.range_succ, hcircuit, hstatus] at hone

end SocksApplication

end BitBlinder.Tor.Socks
