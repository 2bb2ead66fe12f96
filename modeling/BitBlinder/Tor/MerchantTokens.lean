import BitBlinder.Tor.PaidTraffic

/-!
# Merchant tokens

The tokens of one relay and the payments that wait for them. A `StreamView`
holds what matters of a stream: the request ids that are left, the waiting
payments, and what was queued, started and used so far. Every call changes the
view of its own stream by a few operations, and no other view.
-/

namespace BitBlinder.Tor

set_option autoImplicit false
set_option maxRecDepth 2048

open Struct Effects
open ClientPaymentHandler (numPayments)

/-- A started payment comes with the number of tokens it needs and the number there was. -/
structure StreamView where
  tokens : List Nat
  pending : List (Nat × Nat × Nat)
  next : Nat
  queued : List Nat
  started : List (Nat × Nat × Nat)
  used : List Nat
  starved : Nat

namespace StreamView

/-- The tokens that a waiting payment needs. -/
def needed (p : Nat × Nat × Nat) : Nat := numPayments p.1 p.2.1

/-- The first of the waiting payments has its tokens. -/
def Served (tokens : Nat) : List (Nat × Nat × Nat) → Prop
  | [] => False
  | p :: _ => needed p ≤ tokens

instance decidableServed (tokens : Nat) : (pending : List (Nat × Nat × Nat)) → Decidable (Served tokens pending)
  | [] => isFalse id
  | p :: _ => inferInstanceAs (Decidable (needed p ≤ tokens))

/-- No payment is started without its tokens, no request is used twice, and waiting payments
are started in their order and as soon as there are tokens for them. -/
structure Disciplined (v : StreamView) : Prop where
  provided : ∀ e ∈ v.started, e.2.1 ≤ e.2.2
  fed : v.starved = 0
  used_once : v.used.Nodup
  fifo : v.queued = (v.started.map Prod.fst).filter (· ∈ v.queued) ++ v.pending.map fun p => p.2.2
  prompt : ¬Served v.tokens.length v.pending

/-- What holds also in the course of a call. -/
structure Sound (v : StreamView) : Prop where
  tokens_nodup : v.tokens.Nodup
  tokens_lt : ∀ id ∈ v.tokens, id < 256 ^ 4
  provided : ∀ e ∈ v.started, e.2.1 ≤ e.2.2
  fed : v.starved = 0
  used_once : v.used.Nodup
  spent : ∀ id ∈ v.used, id ∉ v.tokens
  fifo : v.queued = (v.started.map Prod.fst).filter (· ∈ v.queued) ++ v.pending.map fun p => p.2.2
  queued_lt : ∀ id ∈ v.queued, id < v.next
  started_lt : ∀ e ∈ v.started, e.1 < v.next

theorem Sound.disciplined {v : StreamView} (h : v.Sound) (hprompt : ¬Served v.tokens.length v.pending) :
    v.Disciplined :=
  ⟨h.provided, h.fed, h.used_once, h.fifo, hprompt⟩

/-! ### Operations -/

def store (ids : List Nat) (v : StreamView) : StreamView :=
  { v with tokens := ids.foldl (fun tokens id => id :: tokens.erase id) v.tokens }

def register (v : StreamView) : StreamView := { v with next := v.next + 1 }

def enqueue (p : Nat × Nat × Nat) (v : StreamView) : StreamView :=
  { v with queued := v.queued ++ [p.2.2], pending := v.pending ++ [p] }

def enter (paymentId number : Nat) (v : StreamView) : StreamView :=
  { v with started := v.started ++ [(paymentId, number, v.tokens.length)] }

def take (id : Nat) (v : StreamView) : StreamView := { v with tokens := v.tokens.erase id }

def use (id : Nat) (v : StreamView) : StreamView := { v with used := v.used ++ [id] }

theorem Sound.store {v : StreamView} (h : v.Sound) {ids : List Nat} (hlt : ∀ id ∈ ids, id < 256 ^ 4)
    (hunused : ∀ id ∈ ids, id ∉ v.used) : (v.store ids).Sound := by
  induction ids generalizing v with
  | nil => exact h
  | cons id ids ih =>
    have hfirst : Sound { v with tokens := id :: v.tokens.erase id } := by
      refine { h with tokens_nodup := ?_, tokens_lt := ?_, spent := ?_ }
      · exact List.nodup_cons.mpr ⟨h.tokens_nodup.not_mem_erase, h.tokens_nodup.erase id⟩
      · intro other hother
        rcases List.mem_cons.mp hother with rfl | hother
        · exact hlt other List.mem_cons_self
        · exact h.tokens_lt other (List.mem_of_mem_erase hother)
      · intro other hother hmem
        rcases List.mem_cons.mp hmem with rfl | hmem
        · exact hunused other List.mem_cons_self hother
        · exact h.spent other hother (List.mem_of_mem_erase hmem)
    apply ih hfirst
    · exact fun other hother => hlt other (List.mem_cons_of_mem _ hother)
    · exact fun other hother => hunused other (List.mem_cons_of_mem _ hother)

theorem Sound.register {v : StreamView} (h : v.Sound) : v.register.Sound := by
  refine { h with queued_lt := ?_, started_lt := ?_ }
  · intro id hid
    exact Nat.lt_succ_of_lt (h.queued_lt id hid)
  · intro e he
    exact Nat.lt_succ_of_lt (h.started_lt e he)

/-- A payment that was not started waits at the end. -/
theorem Sound.enqueue {v : StreamView} (h : v.Sound) (readTokens writeTokens : Nat) :
    (v.register.enqueue (readTokens, writeTokens, v.next)).Sound := by
  refine { h.register with fifo := ?_, queued_lt := ?_ }
  · have hstarted : (v.started.map Prod.fst).filter (· ∈ v.queued ++ [v.next]) =
        (v.started.map Prod.fst).filter (· ∈ v.queued) := by
      apply List.filter_congr
      intro id hid
      obtain ⟨e, he, rfl⟩ := List.mem_map.mp hid
      have hlt := h.started_lt e he
      have hne : e.1 ≠ v.next := by omega
      simp [hne]
    calc
      v.queued ++ [v.next] =
          (v.started.map Prod.fst).filter (· ∈ v.queued) ++ v.pending.map (fun p => p.2.2) ++ [v.next] :=
        congrArg (· ++ [v.next]) h.fifo
      _ = (v.started.map Prod.fst).filter (· ∈ v.queued ++ [v.next]) ++
          (v.pending ++ [(readTokens, writeTokens, v.next)]).map fun p => p.2.2 := by
        rw [hstarted, List.map_append, List.append_assoc]
        rfl
  · intro id hid
    rcases List.mem_append.mp hid with hid | hid
    · exact h.register.queued_lt id hid
    · cases List.mem_singleton.mp hid
      exact Nat.lt_succ_self v.next

theorem provided_concat {v : StreamView} (h : v.Sound) {paymentId number : Nat} (hnumber : number ≤ v.tokens.length) :
    ∀ e ∈ v.started ++ [(paymentId, number, v.tokens.length)], e.2.1 ≤ e.2.2 := by
  intro e he
  rcases List.mem_append.mp he with he | he
  · exact h.provided e he
  · cases List.mem_singleton.mp he
    exact hnumber

/-- A new payment is started at once. -/
theorem Sound.enter_new {v : StreamView} (h : v.Sound) {number : Nat} (hnumber : number ≤ v.tokens.length) :
    (v.register.enter v.next number).Sound := by
  refine { h.register with provided := provided_concat h hnumber, fifo := ?_, started_lt := ?_ }
  · have hnew : v.next ∉ v.queued := fun hmem => Nat.lt_irrefl _ (h.queued_lt _ hmem)
    calc
      v.queued = (v.started.map Prod.fst).filter (· ∈ v.queued) ++ v.pending.map fun p => p.2.2 := h.fifo
      _ = ((v.started ++ [(v.next, number, v.tokens.length)]).map Prod.fst).filter (· ∈ v.queued) ++
          v.pending.map fun p => p.2.2 := by
        simp [hnew]
  · intro e he
    rcases List.mem_append.mp he with he | he
    · exact h.register.started_lt e he
    · cases List.mem_singleton.mp he
      exact Nat.lt_succ_self v.next

/-- The first of the waiting payments is started. -/
theorem Sound.enter_pending {v : StreamView} (h : v.Sound) {p : Nat × Nat × Nat} {rest : List (Nat × Nat × Nat)}
    (hpending : v.pending = p :: rest) (hnumber : needed p ≤ v.tokens.length) :
    (StreamView.enter p.2.2 (needed p) { v with pending := rest }).Sound := by
  have hfifo := h.fifo
  rw [hpending] at hfifo
  have hqueued : p.2.2 ∈ v.queued := by
    rw [hfifo]
    simp
  refine { h with provided := provided_concat h hnumber, fifo := ?_, started_lt := ?_ }
  · calc
      v.queued = (v.started.map Prod.fst).filter (· ∈ v.queued) ++ (p :: rest).map fun p => p.2.2 := hfifo
      _ = ((v.started ++ [(p.2.2, needed p, v.tokens.length)]).map Prod.fst).filter (· ∈ v.queued) ++
          rest.map fun p => p.2.2 := by
        simp [hqueued]
  · intro e he
    rcases List.mem_append.mp he with he | he
    · exact h.started_lt e he
    · cases List.mem_singleton.mp he
      exact h.queued_lt _ hqueued

theorem Sound.take {v : StreamView} (h : v.Sound) (id : Nat) : (v.take id).Sound := by
  refine { h with tokens_nodup := h.tokens_nodup.erase id, tokens_lt := ?_, spent := ?_ }
  · exact fun other hother => h.tokens_lt other (List.mem_of_mem_erase hother)
  · exact fun other hother hmem => h.spent other hother (List.mem_of_mem_erase hmem)

/-- A token that goes into a message to the bank is used for the first time. -/
theorem Sound.use {v : StreamView} (h : v.Sound) {id : Nat} (hid : id ∈ v.tokens) :
    ((v.take id).use id).Sound := by
  refine { h.take id with used_once := ?_, spent := ?_ }
  · have hnew : id ∉ v.used := fun hused => h.spent id hused hid
    have hused : (v.used.concat id).Nodup := h.used_once.concat hnew
    rwa [List.concat_eq_append] at hused
  · intro other hother
    rcases List.mem_append.mp hother with hother | hother
    · exact (h.take id).spent other hother
    · cases List.mem_singleton.mp hother
      exact h.tokens_nodup.not_mem_erase

/-- The passes of the loop that pays: each takes a token, and uses it if there is a coin for it. -/
inductive Spends : Nat → StreamView → StreamView → Prop where
  | done (v : StreamView) : Spends 0 v v
  | lost {v : StreamView} {id : Nat} (mem : id ∈ v.tokens) : Spends 1 v (v.take id)
  | paid {n : Nat} {v w : StreamView} {id : Nat} (mem : id ∈ v.tokens) :
      Spends n ((v.take id).use id) w → Spends (n + 1) v w

namespace Spends

theorem sound {n : Nat} {v w : StreamView} (h : Spends n v w) (hv : v.Sound) : w.Sound := by
  induction h with
  | done v => exact hv
  | lost mem => exact hv.take _
  | paid mem _ ih => exact ih (hv.use mem)

theorem length {n : Nat} {v w : StreamView} (h : Spends n v w) : w.tokens.length = v.tokens.length - n := by
  induction h with
  | done v => rfl
  | lost mem => exact List.length_erase_of_mem mem
  | @paid n v w id mem _ ih =>
    have hlength : (v.tokens.erase id).length = v.tokens.length - 1 := List.length_erase_of_mem mem
    change w.tokens.length = (v.tokens.erase id).length - n at ih
    omega

theorem pending {n : Nat} {v w : StreamView} (h : Spends n v w) : w.pending = v.pending := by
  induction h with
  | done v => rfl
  | lost mem => rfl
  | paid mem _ ih => exact ih

end Spends

end StreamView

/-! ### The view of a stream -/

namespace Output

def queuedOn (i : Nat) : Output → Option Nat
  | queued j paymentId => if j = i then some paymentId else none
  | _ => none

def startedOn (i : Nat) : Output → Option (Nat × Nat × Nat)
  | started j paymentId number held => if j = i then some (paymentId, number, held) else none
  | _ => none

def usedOn (i : Nat) : Output → Option Nat
  | used j requestId => if j = i then some requestId else none
  | _ => none

end Output

/-- What an output adds to the view of stream `i`. -/
def StreamView.record (i : Nat) (o : Output) (v : StreamView) : StreamView :=
  { v with
    queued := v.queued ++ [o].filterMap (Output.queuedOn i)
    started := v.started ++ [o].filterMap (Output.startedOn i)
    used := v.used ++ [o].filterMap (Output.usedOn i)
    starved := v.starved + [o].count (.starved i) }

/-- An output that is not about stream `i`. -/
theorem StreamView.record_eq_self {i : Nat} {o : Output} (hqueued : o.queuedOn i = none)
    (hstarted : o.startedOn i = none) (hused : o.usedOn i = none) (hstarved : o ≠ .starved i) (v : StreamView) :
    v.record i o = v := by
  simp [StreamView.record, List.filterMap_cons_none hqueued, List.filterMap_cons_none hstarted,
    List.filterMap_cons_none hused, hstarved]

namespace ClientPaymentHandler
variable {β : Type}

def viewOf (i : Nat) (history : List Output) (stream : PaymentStream) : StreamView where
  tokens := stream.paymentTokens.keys
  pending := stream.pendingPayments
  next := stream.currentRequestId
  queued := history.filterMap (Output.queuedOn i)
  started := history.filterMap (Output.startedOn i)
  used := history.filterMap (Output.usedOn i)
  starved := history.count (.starved i)

def view (s : ClientPaymentHandler β) (i : Nat) : Option StreamView :=
  (s.paymentStreams[i]?).map (viewOf i s.history)

/-- The views are those of `base`, but for the view `v` of stream `i`. -/
def Shows (base : Nat → Option StreamView) (i : Nat) (v : StreamView) (s : ClientPaymentHandler β) : Prop :=
  s.view = Function.update base i (some v)

def SameViews (s t : ClientPaymentHandler β) : Prop := t.view = s.view

instance : IsPreorder (ClientPaymentHandler β) SameViews where
  refl _ := rfl
  trans _ _ _ h h' := Eq.trans h' h

theorem shows_view {s : ClientPaymentHandler β} {i : Nat} {v : StreamView} (h : s.view i = some v) :
    s.Shows s.view i v := by
  rw [Shows, ← h, Function.update_eq_self]

section
variable {base : Nat → Option StreamView} {i : Nat} {v : StreamView} {s t : ClientPaymentHandler β}

theorem Shows.of_sameViews (h : s.Shows base i v) (hst : SameViews s t) : t.Shows base i v :=
  Eq.trans hst h

theorem Shows.stream (h : s.Shows base i v) :
    ∃ stream, s.paymentStreams[i]? = some stream ∧ viewOf i s.history stream = v := by
  have hi : s.view i = some v := by
    rw [h, Function.update_self]
  exact Option.map_eq_some_iff.mp hi

theorem Shows.setStream (h : s.Shows base i v) {f : PaymentStream → PaymentStream} {g : StreamView → StreamView}
    (hf : ∀ history stream, viewOf i history (f stream) = g (viewOf i history stream)) :
    Shows base i (g v) { s with paymentStreams := s.paymentStreams.modify i f } := by
  obtain ⟨stream, hi, hv⟩ := h.stream
  funext j
  have hj := congrFun h j
  by_cases hji : j = i
  · subst hji
    simp only [view, List.getElem?_modify, hi, Function.update_self]
    simp [hf, hv]
  · rw [Function.update_of_ne hji] at hj ⊢
    rw [← hj]
    simp [view, Ne.symm hji]

theorem view_output (o : Output) (j : Nat) :
    view { s with history := s.history ++ [o] } j = (s.view j).map (StreamView.record j o) := by
  unfold view
  cases s.paymentStreams[j]? with
  | none => rfl
  | some stream =>
    simp only [viewOf, StreamView.record, List.filterMap_append, List.count_append, Option.map_some]

theorem Shows.output (h : s.Shows base i v) {o : Output} (hother : ∀ j w, j ≠ i → StreamView.record j o w = w) :
    Shows base i (v.record i o) { s with history := s.history ++ [o] } := by
  funext j
  have hj := congrFun h j
  rw [view_output]
  by_cases hji : j = i
  · subst hji
    rw [hj, Function.update_self, Function.update_self, Option.map_some]
  · rw [Function.update_of_ne hji] at hj ⊢
    rw [hj]
    cases base j with
    | none => rfl
    | some w => rw [Option.map_some, hother j w hji]

theorem Shows.queued (h : s.Shows base i v) (paymentId : Nat) :
    Shows base i { v with queued := v.queued ++ [paymentId] }
      { s with history := s.history ++ [.queued i paymentId] } := by
  have hv : v.record i (.queued i paymentId) = { v with queued := v.queued ++ [paymentId] } := by
    simp [StreamView.record, Output.queuedOn, Output.startedOn, Output.usedOn]
  rw [← hv]
  apply h.output
  intro j w hj
  have hnone : (Output.queued i paymentId).queuedOn j = none := if_neg (Ne.symm hj)
  exact StreamView.record_eq_self hnone rfl rfl (by simp) w

theorem Shows.started (h : s.Shows base i v) (paymentId number : Nat) :
    Shows base i (v.enter paymentId number)
      { s with history := s.history ++ [.started i paymentId number v.tokens.length] } := by
  have hv : v.record i (.started i paymentId number v.tokens.length) = v.enter paymentId number := by
    simp [StreamView.record, StreamView.enter, Output.queuedOn, Output.startedOn, Output.usedOn]
  rw [← hv]
  apply h.output
  intro j w hj
  have hnone : (Output.started i paymentId number v.tokens.length).startedOn j = none := if_neg (Ne.symm hj)
  exact StreamView.record_eq_self rfl hnone rfl (by simp) w

theorem Shows.used (h : s.Shows base i v) (requestId : Nat) :
    Shows base i (v.use requestId) { s with history := s.history ++ [.used i requestId] } := by
  have hv : v.record i (.used i requestId) = v.use requestId := by
    simp [StreamView.record, StreamView.use, Output.queuedOn, Output.startedOn, Output.usedOn]
  rw [← hv]
  apply h.output
  intro j w hj
  have hnone : (Output.used i requestId).usedOn j = none := if_neg (Ne.symm hj)
  exact StreamView.record_eq_self rfl rfl hnone (by simp) w

end

/-! ### What leaves the views alone -/

theorem sameViews_of_eq {s t : ClientPaymentHandler β} (hstreams : t.paymentStreams = s.paymentStreams)
    (hhistory : t.history = s.history) : SameViews s t := by
  funext j
  rw [view, view, hstreams, hhistory]

theorem output_sameViews {o : Output} (h : ∀ j w, StreamView.record j o w = w) :
    Moves SameViews (output o : Pay β Unit) := by
  intro s
  change view { s with history := s.history ++ [o] } = s.view
  funext j
  rw [view_output]
  cases s.view j with
  | none => rfl
  | some w => rw [Option.map_some, h j w]

theorem setStream_sameViews {f : PaymentStream → PaymentStream} (i : Nat)
    (hf : ∀ history stream, viewOf i history (f stream) = viewOf i history stream) :
    Moves SameViews (setStream i f : Pay β Unit) := by
  intro s
  change view { s with paymentStreams := s.paymentStreams.modify i f } = s.view
  cases hi : s.view i with
  | none =>
    have hnone : s.paymentStreams[i]? = none := by simpa [view] using hi
    rw [List.modify_eq_self (List.getElem?_eq_none_iff.mp hnone)]
  | some v =>
    have hshows := (shows_view hi).setStream (g := id) hf
    rw [hshows, id_eq, ← hi, Function.update_eq_self]

theorem firing_sameViews : Firing (SameViews : ClientPaymentHandler β → ClientPaymentHandler β → Prop) where
  fired _ _ := sameViews_of_eq rfl rfl
  collect _ _ _ _ := sameViews_of_eq rfl rfl
  cancel _ _ := sameViews_of_eq rfl rfl
  credit _ _ _ := output_sameViews fun _ w => StreamView.record_eq_self rfl rfl rfl (by simp) w
  request _ _ := sameViews_of_eq rfl rfl
  close := .modify fun _ => sameViews_of_eq rfl rfl
  release i _ := setStream_sameViews i fun _ _ => rfl

theorem sent_sameViews (name : MessageName) (numHops : Nat) (msg : Bytes) :
    Moves SameViews (output (.sent name numHops msg) : Pay β Unit) := by
  apply output_sameViews
  intro j w
  exact StreamView.record_eq_self rfl rfl rfl (by simp) w

/-! ### Paying -/

/-- The tokens that the loop of `start_bank_process` takes: it ends at the first coin that is
missing or cannot be written. -/
def tokensTaken (env : PaymentEnvironment β) : Nat → β → Nat
  | 0, _ => 0
  | k + 1, bank =>
    match env.getAcoins bank with
    | .ok (coin :: _) bank =>
      match coin.writeBinary with
      | .ok _ => tokensTaken env k bank + 1
      | .error _ => 1
    | .ok [] _ => 1
    | .error _ _ => 1

/-- The tokens that `start_bank_process` takes. -/
def startTaken (env : PaymentEnvironment β) (bank : β) (p : Nat × Nat × Nat) : Nat :=
  match paymentHeader p.1 p.2.1 p.2.2 with
  | .ok _ => tokensTaken env (StreamView.needed p) bank
  | .error _ => 0

theorem writeLong_of_lt {id : Nat} (h : id < 256 ^ 4) : ∃ bs, Basic.writeLong id = .ok bs := by
  have hpack : Fmt.packUInt 4 id = some (packBE 4 id) := Fmt.packUInt_eq_some_iff.mpr ⟨h, rfl⟩
  simp [Basic.writeLong, Basic.writeField, Basic.structPack, Struct.pack, Fmt.pack, hpack]

/-- The number of payments is also a part of the header. -/
theorem writeByte_of_paymentHeader {readTokens writeTokens paymentId : Nat} {header : Bytes}
    (h : paymentHeader readTokens writeTokens paymentId = .ok header) :
    ∃ bs, Basic.writeByte (numPayments readTokens writeTokens) = .ok bs := by
  obtain ⟨_, -, h⟩ := PyExcept.bind_eq_ok h
  obtain ⟨_, -, h⟩ := PyExcept.bind_eq_ok h
  obtain ⟨_, -, h⟩ := PyExcept.bind_eq_ok h
  obtain ⟨_, -, h⟩ := PyExcept.bind_eq_ok h
  obtain ⟨number, hnumber, -⟩ := PyExcept.bind_eq_ok h
  exact ⟨number, hnumber⟩

section
variable {base : Nat → Option StreamView} {i : Nat} {v : StreamView} {s : ClientPaymentHandler β}
  (env : PaymentEnvironment β)

theorem outcome_getAcoins {Q : List ACoin → ClientPaymentHandler β → Prop} {E : PyError → ClientPaymentHandler β → Prop} :
    Outcome (getAcoins env) s Q E ↔
      match env.getAcoins s.bank with
      | .ok coins bank => Q coins { s with bank }
      | .error e bank => E e { s with bank } := by
  simp only [Outcome, getAcoins]
  cases env.getAcoins s.bank with
  | ok coins bank => rfl
  | error e bank => rfl

theorem popitem_shows (h : s.Shows base i v) (htokens : 0 < v.tokens.length) :
    Outcome (popitem env i) s (fun p t => p.1 ∈ v.tokens ∧ t.Shows base i (v.take p.1) ∧ t.bank = s.bank)
      fun _ _ => False := by
  obtain ⟨stream, hi, rfl⟩ := h.stream
  unfold popitem
  rw [outcome_bind, outcome_getStream hi, outcome_bind, outcome_get, outcome_bind, outcome_modify]
  dsimp only
  have hlength : 0 < stream.paymentTokens.entries.length := by
    simpa [viewOf, AList.keys, List.keys] using htokens
  have hlt := Nat.mod_lt (env.popitem s.popped) hlength
  rw [List.getElem?_eq_getElem hlt]
  generalize hentry : stream.paymentTokens.entries[env.popitem s.popped % stream.paymentTokens.entries.length] = entry
  obtain ⟨requestId, token⟩ := entry
  have hmem : (⟨requestId, token⟩ : Sigma fun _ : Nat => Bytes) ∈ stream.paymentTokens.entries := by
    rw [← hentry]
    exact List.getElem_mem hlt
  dsimp only
  rw [outcome_bind, setStream, outcome_modify, outcome_pure]
  refine ⟨List.mem_keys_of_mem hmem, ?_, rfl⟩
  have hpopped : Shows base i (viewOf i s.history stream) { s with popped := s.popped + 1 } :=
    h.of_sameViews (sameViews_of_eq rfl rfl)
  apply hpopped.setStream
  intro history stream
  simp only [viewOf, StreamView.take, AList.keys_erase]

theorem payLoop_spends {k : Nat} (paymentId : Nat) (msg bankMsg : Bytes) (h : s.Shows base i v)
    (hlt : ∀ id ∈ v.tokens, id < 256 ^ 4) (hk : k ≤ v.tokens.length) :
    Outcome (payLoop env i paymentId k msg bankMsg) s
      (fun _ t => ∃ w, StreamView.Spends (tokensTaken env k s.bank) v w ∧ t.Shows base i w)
      fun _ t => ∃ w, StreamView.Spends (tokensTaken env k s.bank) v w ∧ t.Shows base i w := by
  induction k generalizing s v msg bankMsg with
  | zero => exact ⟨v, .done v, h⟩
  | succ k ih =>
    unfold payLoop
    rw [outcome_bind]
    refine (popitem_shows env h (by omega)).mono ?_ fun _ _ hfalse => hfalse.elim
    rintro ⟨requestId, token⟩ t ⟨hmem, ht, hbank⟩
    dsimp only at hmem ht ⊢
    have hlost : tokensTaken env (k + 1) s.bank = 1 →
        ∀ u : ClientPaymentHandler β, SameViews t u →
        ∃ w, StreamView.Spends (tokensTaken env (k + 1) s.bank) v w ∧ u.Shows base i w := by
      intro htaken u hu
      rw [htaken]
      exact ⟨_, .lost hmem, ht.of_sameViews hu⟩
    rw [outcome_bind, outcome_getAcoins, hbank]
    cases hcoins : env.getAcoins s.bank with
    | error e bank => exact hlost (by simp [tokensTaken, hcoins]) _ (sameViews_of_eq rfl rfl)
    | ok coins bank =>
      cases coins with
      | nil =>
        have htaken : tokensTaken env (k + 1) s.bank = 1 := by simp [tokensTaken, hcoins]
        have hfinish : Moves SameViews (do
            finishPayment i paymentId (.error (.insufficientACoins "No ACoins left."))
            return none : Pay β (Option (Bytes × Bytes))) :=
          .bind (firing_sameViews.finishPayment i paymentId _) fun _ => .pure _
        refine (hfinish _).mono (fun _ u hu => hlost htaken u ?_) fun _ u hu => hlost htaken u ?_
        · exact trans_of SameViews (sameViews_of_eq rfl rfl) hu
        · exact trans_of SameViews (sameViews_of_eq rfl rfl) hu
      | cons coin coins =>
        dsimp only
        rw [outcome_bind, outcome_modify, outcome_bind, outcome_attempt]
        cases hwrite : coin.writeBinary with
        | error e => exact hlost (by simp [tokensTaken, hcoins, hwrite]) _ (sameViews_of_eq rfl rfl)
        | ok coinBytes =>
          have htaken : tokensTaken env (k + 1) s.bank = tokensTaken env k bank + 1 := by
            simp [tokensTaken, hcoins, hwrite]
          obtain ⟨idBytes, hid⟩ := writeLong_of_lt (hlt requestId hmem)
          have htype : Basic.writeByte COIN_TYPE_A = .ok [1] := by decide
          dsimp only
          rw [outcome_bind, outcome_attempt, htype]
          dsimp only
          rw [outcome_bind, outcome_attempt, hid]
          dsimp only
          rw [outcome_bind, output, outcome_modify]
          have hlength : (v.tokens.erase requestId).length = v.tokens.length - 1 := List.length_erase_of_mem hmem
          have hused := (ht.of_sameViews (t := { t with bank, coinsSpent := t.coinsSpent + 1 })
            (sameViews_of_eq rfl rfl)).used requestId
          have hrest := ih (msg ++ [1] ++ idBytes) (bankMsg ++ coinBytes ++ token) hused
            (fun id hmem => hlt id (List.mem_of_mem_erase hmem)) (by
              change k ≤ (v.tokens.erase requestId).length
              omega)
          have hpaid : ∀ u : ClientPaymentHandler β,
              (∃ w, StreamView.Spends (tokensTaken env k bank) ((v.take requestId).use requestId) w ∧ u.Shows base i w) →
              ∃ w, StreamView.Spends (tokensTaken env (k + 1) s.bank) v w ∧ u.Shows base i w := by
            rintro u ⟨w, hspends, hu⟩
            rw [htaken]
            exact ⟨w, .paid hmem hspends, hu⟩
          exact hrest.mono (fun _ u hu => hpaid u hu) fun _ u hu => hpaid u hu

theorem startBankProcess_spends {readTokens writeTokens paymentId : Nat} (h : s.Shows base i v)
    (hlt : ∀ id ∈ v.tokens, id < 256 ^ 4) (hnumber : numPayments readTokens writeTokens ≤ v.tokens.length) :
    Outcome (startBankProcess env i readTokens writeTokens paymentId) s
      (fun _ t => ∃ w, StreamView.Spends (startTaken env s.bank (readTokens, writeTokens, paymentId))
        (v.enter paymentId (numPayments readTokens writeTokens)) w ∧ t.Shows base i w)
      fun _ t => ∃ w, StreamView.Spends (startTaken env s.bank (readTokens, writeTokens, paymentId))
        (v.enter paymentId (numPayments readTokens writeTokens)) w ∧ t.Shows base i w := by
  have hheld : s.held i = v.tokens.length := by
    obtain ⟨stream, hi, rfl⟩ := h.stream
    simp [held, hi, viewOf, AList.keys, List.keys]
  unfold startBankProcess
  rw [outcome_bind, outcome_get, outcome_bind, output, outcome_modify, hheld]
  have hstarted := h.started paymentId (numPayments readTokens writeTokens)
  rw [outcome_bind, outcome_attempt]
  cases hheader : paymentHeader readTokens writeTokens paymentId with
  | error e =>
    refine ⟨_, ?_, hstarted⟩
    simp only [startTaken, hheader]
    exact .done _
  | ok header =>
    obtain ⟨number, hwrite⟩ := writeByte_of_paymentHeader hheader
    have htaken : startTaken env s.bank (readTokens, writeTokens, paymentId) =
        tokensTaken env (numPayments readTokens writeTokens) s.bank := by
      simp only [startTaken, hheader, StreamView.needed]
    dsimp only
    rw [outcome_bind, outcome_attempt, hwrite, htaken]
    dsimp only
    rw [outcome_bind]
    refine (payLoop_spends env paymentId header number hstarted hlt hnumber).mono ?_ fun _ _ hw => hw
    rintro paid t ⟨w, hspends, ht⟩
    cases paid with
    | none => exact ⟨w, hspends, ht⟩
    | some paid =>
      have hsend := moves_bankRelay (R := SameViews) env (fun _ => sameViews_of_eq rfl rfl)
        sent_sameViews i paid
      refine (hsend t).mono (fun _ u hu => ?_) fun _ u hu => ?_
      · exact ⟨w, hspends, ht.of_sameViews hu⟩
      · exact ⟨w, hspends, ht.of_sameViews hu⟩

end

/-! ### Messages -/

theorem tokensRead_lt (verify : Bytes → Bytes → PyExcept Bool) (circDone : Bool) (tokenSize fuel : Nat) (msg : Bytes) :
    ∀ e ∈ (tokensRead verify circDone tokenSize fuel msg).1, e.1 < 256 ^ 4 := by
  induction fuel generalizing msg with
  | zero => exact fun e he => by cases he
  | succ fuel ih =>
    unfold tokensRead
    split
    · exact fun e he => by cases he
    · split
      · exact fun e he => by cases he
      · rename_i requestId token tokenSig hunpack
        split
        · exact fun e he => by cases he
        · split
          · exact fun e he => by cases he
          · intro e he
            rcases List.mem_cons.mp he with rfl | he
            · unfold unpackToken at hunpack
              split at hunpack
              · cases hunpack
                exact unpackBE_take_lt 4 _
              · cases hunpack
            · exact ih _ e he

theorem tokensFor_lt (env : PaymentEnvironment β) (s : ClientPaymentHandler β) (i : Nat) (msg : Bytes) :
    ∀ e ∈ (s.tokensFor env i msg).1, e.1 < 256 ^ 4 := by
  unfold tokensFor paymentTokensRead
  split
  · exact fun e he => by cases he
  · split
    · exact fun e he => by cases he
    · split
      · exact fun e he => by cases he
      · split
        · exact fun e he => by cases he
        · exact tokensRead_lt _ _ _ _ _

theorem viewOf_storeTokens (i : Nat) (tokens : List (Nat × Bytes)) (history : List Output) (stream : PaymentStream) :
    viewOf i history (stream.storeTokens tokens) = (viewOf i history stream).store (tokens.map Prod.fst) := by
  induction tokens generalizing stream with
  | nil => rfl
  | cons e tokens ih =>
    have hfirst : viewOf i history { stream with paymentTokens := stream.paymentTokens.insert e.1 e.2 } =
        { viewOf i history stream with tokens := e.1 :: (viewOf i history stream).tokens.erase e.1 } := by
      simp only [viewOf, AList.keys_insert]
    have hrest := ih { stream with paymentTokens := stream.paymentTokens.insert e.1 e.2 }
    rw [hfirst] at hrest
    exact hrest

section
variable {base : Nat → Option StreamView} {i : Nat} {v : StreamView} {s : ClientPaymentHandler β}
  (env : PaymentEnvironment β)

theorem readPaymentTokens_shows (msg : Bytes) (h : s.Shows base i v) :
    Outcome (readPaymentTokens env i msg) s
      (fun valid t => (s.tokensFor env i msg).2 = .ok valid ∧ t.bank = s.bank ∧
        t.Shows base i (v.store ((s.tokensFor env i msg).1.map Prod.fst)))
      fun e t => (s.tokensFor env i msg).2 = .error e ∧
        t.Shows base i (v.store ((s.tokensFor env i msg).1.map Prod.fst)) := by
  obtain ⟨stream, hi, -⟩ := h.stream
  have htokens : s.tokensFor env i msg = paymentTokensRead (env.verify stream.hexId) s.circDone msg := by
    rw [tokensFor, hi]
  rw [htokens]
  have hstored : ∀ tokens verdict, (s.stored i tokens verdict).Shows base i (v.store (tokens.map Prod.fst)) := by
    intro tokens verdict
    have hstreams := h.setStream (viewOf_storeTokens i tokens)
    exact hstreams.of_sameViews (sameViews_of_eq rfl rfl)
  refine (readPaymentTokens_readsAs env i msg hi).mono ?_ ?_
  · rintro valid t ⟨hvalid, rfl⟩
    exact ⟨hvalid, rfl, hstored _ _⟩
  · rintro e t ⟨he, rfl⟩
    exact ⟨he, hstored _ _⟩

end

/-! ### Runs of the streams -/

/-- The calls of one stream, and what changes around it. -/
inductive StreamAction (β : Type) where
  | sendPayment (i readTokens writeTokens : Nat)
  | setupReply (i version : Nat) (msg : Bytes)
  | receipt (i : Nat) (msg : Bytes)
  | bank (bank : β)
  | torReady (isReady : Bool)
  | circuitDone
  | circuitClosed

def streamStep (env : PaymentEnvironment β) (s : ClientPaymentHandler β) :
    StreamAction β → Option (ClientPaymentHandler β)
  | .sendPayment i readTokens writeTokens => (s.paymentStreams[i]?).map fun _ =>
      finish (sendPayment env readTokens writeTokens i) s
  | .setupReply i version msg => (s.paymentStreams[i]?).map fun _ => finish (streamSetupReply env i version msg) s
  | .receipt i msg => (s.paymentStreams[i]?).map fun _ => finish (streamReceipt env i msg) s
  | .bank bank => some { s with bank }
  | .torReady isReady => some { s with isReady }
  | .circuitDone => some { s with circDone := true }
  | .circuitClosed => some { s with baseCircuit := { s.baseCircuit with isClosed := true } }

/-- The tokens in a receipt. -/
def receiptTokens (env : PaymentEnvironment β) (s : ClientPaymentHandler β) (i : Nat) (msg : Bytes) :
    List (Nat × Bytes) × PyExcept Bool :=
  match Basic.readLong msg with
  | .error e => ([], .error e)
  | .ok (_, msg) => s.tokensFor env i msg

/-- None of the tokens was used before. -/
def Unused (v : StreamView) (tokens : List (Nat × Bytes)) : Prop := ∀ e ∈ tokens, e.1 ∉ v.used

instance (v : StreamView) (tokens : List (Nat × Bytes)) : Decidable (Unused v tokens) :=
  inferInstanceAs (Decidable (∀ e ∈ tokens, e.1 ∉ v.used))

/-- The number of waiting payments says whether there are tokens for the first of them, and when
it is started, none are left for the second. -/
def WellTimed (env : PaymentEnvironment β) (bank : β) (tokens : Nat) : List (Nat × Nat × Nat) → Prop
  | [] => True
  | p :: pending => (StreamView.needed p ≤ pending.length + 1 ↔ StreamView.needed p ≤ tokens) ∧
      (StreamView.needed p ≤ tokens → ¬StreamView.Served (tokens - startTaken env bank p) pending)

instance decidableWellTimed (env : PaymentEnvironment β) (bank : β) (tokens : Nat) :
    (pending : List (Nat × Nat × Nat)) → Decidable (WellTimed env bank tokens pending)
  | [] => isTrue trivial
  | _ :: _ => inferInstanceAs (Decidable ((_ ↔ _) ∧ (_ → _)))

/-- The number of tokens once these are stored. -/
def heldAfter (v : StreamView) (tokens : List (Nat × Bytes)) : Nat := (v.store (tokens.map Prod.fst)).tokens.length

/-- A receipt that is read to its end may start a payment. -/
def Resumes (env : PaymentEnvironment β) (bank : β) (v : StreamView) (reading : List (Nat × Bytes) × PyExcept Bool) :
    Prop :=
  if reading.2 = .ok true then WellTimed env bank (heldAfter v reading.1) v.pending
  else ¬StreamView.Served (heldAfter v reading.1) v.pending

instance (env : PaymentEnvironment β) (bank : β) (v : StreamView) (reading : List (Nat × Bytes) × PyExcept Bool) :
    Decidable (Resumes env bank v reading) := by
  unfold Resumes
  infer_instance

/-- A message brings no token that was used before, and leaves no waiting payment for which
there are tokens. -/
def Supplied (env : PaymentEnvironment β) (s : ClientPaymentHandler β) : StreamAction β → Prop
  | .setupReply i _ msg => ∀ v ∈ s.view i, Unused v (s.tokensFor env i msg).1 ∧
      ¬StreamView.Served (heldAfter v (s.tokensFor env i msg).1) v.pending
  | .receipt i msg => ∀ v ∈ s.view i, Unused v (s.receiptTokens env i msg).1 ∧
      Resumes env s.bank v (s.receiptTokens env i msg)
  | .sendPayment _ _ _ | .bank _ | .torReady _ | .circuitDone | .circuitClosed => True

instance decidableSupplied (env : PaymentEnvironment β) (s : ClientPaymentHandler β) :
    (a : StreamAction β) → Decidable (s.Supplied env a)
  | .setupReply i _ _ => inferInstanceAs (Decidable (∀ v ∈ s.view i, _ ∧ ¬_))
  | .receipt i _ => inferInstanceAs (Decidable (∀ v ∈ s.view i, _ ∧ _))
  | .sendPayment _ _ _ | .bank _ | .torReady _ | .circuitDone | .circuitClosed => isTrue trivial

/-- What holds between the calls. -/
def Orderly (s : ClientPaymentHandler β) : Prop :=
  ∀ i, ∀ v ∈ s.view i, v.Sound ∧ ¬StreamView.Served v.tokens.length v.pending

/-- A call that leaves its own stream orderly. -/
theorem Orderly.of_shows {s t : ClientPaymentHandler β} (hs : s.Orderly) {i : Nat} {w : StreamView}
    (ht : t.Shows s.view i w) (hw : w.Sound) (hprompt : ¬StreamView.Served w.tokens.length w.pending) : t.Orderly := by
  intro j v hv
  rw [ht] at hv
  by_cases hji : j = i
  · subst hji
    rw [Function.update_self] at hv
    cases hv
    exact ⟨hw, hprompt⟩
  · rw [Function.update_of_ne hji] at hv
    exact hs j v hv

theorem Orderly.of_sameViews {s t : ClientPaymentHandler β} (hs : s.Orderly) (hst : SameViews s t) : t.Orderly := by
  intro j v hv
  rw [hst] at hv
  exact hs j v hv

theorem served_mono {tokens more : Nat} (h : tokens ≤ more) {pending : List (Nat × Nat × Nat)}
    (hserved : StreamView.Served tokens pending) : StreamView.Served more pending := by
  cases pending with
  | nil => exact hserved
  | cons p pending => exact Nat.le_trans hserved h

/-- A payment that has to wait does not make the first one start. -/
theorem not_served_concat {tokens : Nat} {pending : List (Nat × Nat × Nat)} {p : Nat × Nat × Nat}
    (h : ¬StreamView.Served tokens pending) (hp : tokens < StreamView.needed p) :
    ¬StreamView.Served tokens (pending ++ [p]) := by
  cases pending with
  | nil => exact Nat.not_le.mpr hp
  | cons q pending => exact h

section
variable {env : PaymentEnvironment β} {s : ClientPaymentHandler β} {i : Nat} {v : StreamView}

theorem sendPayment_orderly (hs : s.Orderly) (hi : s.view i = some v) (readTokens writeTokens : Nat) :
    Outcome (sendPayment env readTokens writeTokens i) s (fun _ => Orderly) fun _ => Orderly := by
  obtain ⟨hsound, hprompt⟩ := hs i v hi
  have hshows := shows_view hi
  obtain ⟨stream, hstream, rfl⟩ := hshows.stream
  unfold sendPayment setStream
  rw [outcome_bind, outcome_getStream hstream, outcome_bind, outcome_modify]
  have hregister : Shows s.view i (viewOf i s.history stream).register
      (s.registered i stream.currentRequestId) := hshows.setStream fun _ _ => rfl
  rw [outcome_ite]
  split
  · exact hs.of_shows hregister hsound.register hprompt
  · obtain ⟨stream', hstream', hview⟩ := hregister.stream
    have htokens : stream'.paymentTokens.entries.length = (viewOf i s.history stream).tokens.length := by
      have hlength := congrArg (fun v : StreamView => v.tokens.length) hview
      simpa [viewOf, StreamView.register, AList.keys, List.keys] using hlength
    rw [outcome_bind, queueOrStart, outcome_bind]
    apply (outcome_getStream hstream').mpr
    rw [outcome_ite, htokens]
    split
    · rename_i hwait
      rw [outcome_bind, output, outcome_modify, setStream, outcome_modify]
      have hqueued := (hregister.queued stream.currentRequestId).setStream
        (g := fun v => { v with pending := v.pending ++ [(readTokens, writeTokens, stream.currentRequestId)] })
        (f := fun stream' => { stream' with
          pendingPayments := stream'.pendingPayments ++ [(readTokens, writeTokens, stream.currentRequestId)] })
        fun _ _ => rfl
      exact hs.of_shows hqueued (hsound.enqueue readTokens writeTokens) (not_served_concat hprompt hwait)
    · rename_i hstart
      have hstarted : ∀ t : ClientPaymentHandler β, (∃ w, StreamView.Spends
          (startTaken env s.bank (readTokens, writeTokens, stream.currentRequestId))
          ((viewOf i s.history stream).register.enter stream.currentRequestId (numPayments readTokens writeTokens)) w ∧
          t.Shows s.view i w) → t.Orderly := by
        rintro t ⟨w, hspends, ht⟩
        have hw := hspends.sound (hsound.enter_new (Nat.not_lt.mp hstart))
        refine hs.of_shows ht hw fun hserved => hprompt ?_
        rw [hspends.pending] at hserved
        have hfewer : w.tokens.length ≤ (viewOf i s.history stream).tokens.length := by
          rw [hspends.length]
          exact Nat.sub_le _ _
        exact served_mono hfewer hserved
      exact (startBankProcess_spends env hregister hsound.tokens_lt (Nat.not_lt.mp hstart)).mono
        (fun _ t ht => hstarted t ht) fun _ t ht => hstarted t ht

theorem sound_stored (h : v.Sound) {tokens : List (Nat × Bytes)} (hlt : ∀ e ∈ tokens, e.1 < 256 ^ 4)
    (hunused : Unused v tokens) : (v.store (tokens.map Prod.fst)).Sound := by
  apply h.store
  · intro id hid
    obtain ⟨e, he, rfl⟩ := List.mem_map.mp hid
    exact hlt e he
  · intro id hid
    obtain ⟨e, he, rfl⟩ := List.mem_map.mp hid
    exact hunused e he

theorem streamSetupReply_orderly (hs : s.Orderly) (hi : s.view i = some v) (version : Nat) (msg : Bytes)
    (hunused : Unused v (s.tokensFor env i msg).1)
    (hshort : ¬StreamView.Served (heldAfter v (s.tokensFor env i msg).1) v.pending) :
    Outcome (streamSetupReply env i version msg) s (fun _ => Orderly) fun _ => Orderly := by
  obtain ⟨hsound, -⟩ := hs i v hi
  have hstored := sound_stored hsound (tokensFor_lt env s i msg) hunused
  have hversion : Shows s.view i v
      { s with paymentStreams := s.paymentStreams.modify i fun stream => { stream with version } } :=
    (shows_view hi).setStream (g := id) fun _ _ => rfl
  have htokens : tokensFor env
      { s with paymentStreams := s.paymentStreams.modify i fun stream => { stream with version } } i msg =
      s.tokensFor env i msg := by
    obtain ⟨stream, hstream, -⟩ := (shows_view hi).stream
    simp [tokensFor, hstream]
  unfold streamSetupReply
  rw [outcome_bind, setStream, outcome_modify, outcome_bind]
  have hread := readPaymentTokens_shows env msg hversion
  rw [htokens] at hread
  refine hread.mono ?_ fun e t ht => hs.of_shows ht.2 hstored hshort
  rintro valid t ⟨-, -, ht⟩
  have horderly := hs.of_shows ht hstored hshort
  have hdone : Moves SameViews (when (valid = true)
      (setStream i fun stream => { stream with setupDone := true }) : Pay β Unit) :=
    .when fun _ => setStream_sameViews i fun _ _ => rfl
  exact (hdone t).mono (fun _ _ hu => horderly.of_sameViews hu) fun _ _ hu => horderly.of_sameViews hu

/-- The first waiting payment is started when there are tokens for it. -/
theorem startPending_orderly (hs : s.Orderly) {t : ClientPaymentHandler β} (ht : t.Shows s.view i v)
    (hsound : v.Sound) (htimed : WellTimed env t.bank v.tokens.length v.pending) :
    Outcome (startPending env i) t (fun _ => Orderly) fun _ => Orderly := by
  obtain ⟨stream, hi, hview⟩ := ht.stream
  have hpending : stream.pendingPayments = v.pending := by
    rw [← hview]
    rfl
  unfold startPending
  rw [outcome_bind, outcome_getStream hi, hpending]
  cases hp : v.pending with
  | nil =>
    refine hs.of_shows ht hsound ?_
    rw [hp]
    exact id
  | cons p pending =>
    rw [hp] at htimed
    obtain ⟨hcount, hsecond⟩ := htimed
    dsimp only
    rw [outcome_when]
    split
    · rename_i hstart
      have hnumber : StreamView.needed p ≤ v.tokens.length := hcount.mp hstart
      rw [outcome_bind, setStream, outcome_modify]
      have hrest : Shows s.view i { v with pending }
          { t with paymentStreams := t.paymentStreams.modify i fun stream =>
            { stream with pendingPayments := pending } } :=
        ht.setStream (g := fun v => { v with pending }) fun _ _ => rfl
      have hstarted : ∀ u : ClientPaymentHandler β, (∃ w, StreamView.Spends (startTaken env t.bank p)
          (StreamView.enter p.2.2 (StreamView.needed p) { v with pending }) w ∧ u.Shows s.view i w) → u.Orderly := by
        rintro u ⟨w, hspends, hu⟩
        refine hs.of_shows hu (hspends.sound (hsound.enter_pending hp hnumber)) ?_
        rw [hspends.length, hspends.pending]
        exact hsecond hnumber
      exact (startBankProcess_spends env hrest hsound.tokens_lt hnumber).mono
        (fun _ u hu => hstarted u hu) fun _ u hu => hstarted u hu
    · rename_i hstay
      refine hs.of_shows ht hsound fun hserved => hstay (hcount.mpr ?_)
      rwa [hp] at hserved

theorem streamReceipt_orderly (hs : s.Orderly) (hi : s.view i = some v) (msg : Bytes)
    (hunused : Unused v (s.receiptTokens env i msg).1)
    (hresumes : Resumes env s.bank v (s.receiptTokens env i msg)) :
    Outcome (streamReceipt env i msg) s (fun _ => Orderly) fun _ => Orderly := by
  obtain ⟨hsound, -⟩ := hs i v hi
  unfold streamReceipt
  rw [outcome_bind, outcome_attempt]
  unfold receiptTokens at hunused hresumes
  cases hid : Basic.readLong msg with
  | error e => exact hs
  | ok p =>
    obtain ⟨ourId, msg⟩ := p
    rw [hid] at hunused hresumes
    dsimp only at hunused hresumes ⊢
    have hstored := sound_stored hsound (tokensFor_lt env s i msg) hunused
    rw [outcome_bind]
    unfold Resumes at hresumes
    refine (readPaymentTokens_shows env msg (shows_view hi)).mono ?_ ?_
    · rintro valid t ⟨hvalid, hbank, ht⟩
      rw [outcome_when]
      cases valid with
      | false =>
        rw [if_neg (by simp [hvalid])] at hresumes
        exact hs.of_shows ht hstored hresumes
      | true =>
        rw [if_pos hvalid, ← hbank] at hresumes
        rw [if_pos rfl, outcome_bind]
        have hreceipt : Moves SameViews (output (.receipt i ourId) : Pay β Unit) :=
          output_sameViews fun _ w => StreamView.record_eq_self rfl rfl rfl (by simp) w
        have hreceived := ht.of_sameViews (hreceipt.finish t)
        rw [output, outcome_modify]
        exact Moves.after (R := SameViews) (startPending_orderly hs hreceived hstored hresumes)
          (fun _ => firing_sameViews.finishPayment i ourId _) fun hst h => h.of_sameViews hst
    · rintro e t ⟨he, ht⟩
      rw [if_neg (by simp [he])] at hresumes
      exact hs.of_shows ht hstored hresumes

theorem streamStep_orderly {t : ClientPaymentHandler β} {a : StreamAction β} (hs : s.Orderly)
    (hok : s.Supplied env a) (hstep : streamStep env s a = some t) : t.Orderly := by
  cases a with
  | sendPayment i readTokens writeTokens =>
    obtain ⟨stream, hi, rfl⟩ := Option.map_eq_some_iff.mp hstep
    have hview : s.view i = some (viewOf i s.history stream) := by rw [view, hi, Option.map_some]
    exact outcome_finish.mp (sendPayment_orderly hs hview readTokens writeTokens)
  | setupReply i version msg =>
    obtain ⟨stream, hi, rfl⟩ := Option.map_eq_some_iff.mp hstep
    have hview : s.view i = some (viewOf i s.history stream) := by rw [view, hi, Option.map_some]
    obtain ⟨hunused, hshort⟩ := hok _ hview
    exact outcome_finish.mp (streamSetupReply_orderly hs hview version msg hunused hshort)
  | receipt i msg =>
    obtain ⟨stream, hi, rfl⟩ := Option.map_eq_some_iff.mp hstep
    have hview : s.view i = some (viewOf i s.history stream) := by rw [view, hi, Option.map_some]
    obtain ⟨hunused, hresumes⟩ := hok _ hview
    exact outcome_finish.mp (streamReceipt_orderly hs hview msg hunused hresumes)
  | bank bank =>
    cases hstep
    exact hs.of_sameViews (sameViews_of_eq rfl rfl)
  | torReady isReady =>
    cases hstep
    exact hs.of_sameViews (sameViews_of_eq rfl rfl)
  | circuitDone =>
    cases hstep
    exact hs.of_sameViews (sameViews_of_eq rfl rfl)
  | circuitClosed =>
    cases hstep
    exact hs.of_sameViews (sameViews_of_eq rfl rfl)

end

theorem new_orderly (env : PaymentEnvironment β) (bank : β) (finalPath : List Bytes) :
    (new env bank finalPath).Orderly := by
  intro i v hv
  obtain ⟨stream, hi, rfl⟩ := Option.map_eq_some_iff.mp hv
  obtain ⟨hexId, hop, rfl⟩ := new_streams (List.mem_of_getElem? hi)
  refine ⟨⟨List.nodup_nil, ?_, ?_, rfl, List.nodup_nil, ?_, rfl, ?_, ?_⟩, id⟩
  · exact fun id hid => by cases hid
  · exact fun e he => by cases he
  · exact fun id hid => by cases hid
  · exact fun id hid => by cases hid
  · exact fun e he => by cases he

/-- When no message repeats a token or brings tokens for a payment that goes on waiting, every
stream deals with its tokens as it should, in every state of every run. -/
theorem merchant_tokens_disciplined (env : PaymentEnvironment β) (bank : β) (finalPath : List Bytes)
    {as : List (StreamAction β)} {s : ClientPaymentHandler β}
    (h : Run (streamStep env) (Supplied env) (new env bank finalPath) as s) {i : Nat} {v : StreamView}
    (hv : s.view i = some v) : v.Disciplined := by
  have horderly := h.invariant streamStep_orderly (new_orderly env bank finalPath)
  obtain ⟨hsound, hprompt⟩ := horderly i v hv
  exact hsound.disciplined hprompt

/-- Tokens of a relay with the given request ids. -/
def exampleSupply (ids : List Nat) : Bytes :=
  packBE 1 ids.length ++ ids.flatMap fun id => packBE 4 id ++ List.replicate 224 0

def examplePayment (number : Nat) : StreamAction Client.BankConnection :=
  .sendPayment 0 (number * Globals.CELLS_PER_PAYMENT) 0

/-- A payment that waits until the receipt of another brings a token. -/
def exampleResumed : List (StreamAction Client.BankConnection) :=
  [.setupReply 0 1 (exampleSupply [0]), examplePayment 1, examplePayment 1, .bank exampleBank,
    .receipt 0 (packBE 4 0 ++ exampleSupply [1])]

theorem merchant_tokens_disciplined_one_hop :
    ∃ s v, Run (streamStep exampleEnvironment) (Supplied exampleEnvironment)
        (new exampleEnvironment exampleBank [exampleRelay]) exampleResumed s ∧
      s.view 0 = some v ∧ v.used = [0, 1] ∧ v.queued = [1] ∧ v.started = [(0, 1, 1), (1, 1, 1)] ∧ v.Disciplined := by
  have hend : (exec (streamStep exampleEnvironment) (new exampleEnvironment exampleBank [exampleRelay])
      exampleResumed).any (fun s => (s.view 0).any fun v => decide (v.used = [0, 1] ∧ v.queued = [1] ∧
        v.started = [(0, 1, 1), (1, 1, 1)])) = true := by
    decide
  have hok : EachStep (streamStep exampleEnvironment) (Supplied exampleEnvironment)
      (new exampleEnvironment exampleBank [exampleRelay]) exampleResumed := by
    decide
  obtain ⟨s, hrun, hview⟩ := exists_run hend hok
  obtain ⟨v, hv, hdecide⟩ := (Option.any_eq_true _ _).mp hview
  obtain ⟨hused, hqueued, hstarted⟩ := of_decide_eq_true hdecide
  exact ⟨s, v, hrun, hv, hused, hqueued, hstarted,
    merchant_tokens_disciplined exampleEnvironment exampleBank [exampleRelay] hrun hv⟩

/-- A bank connection that is logged in and holds six coins. -/
def stockedBank : Client.BankConnection :=
  (exec (Client.BankConnection.step Client.exampleEnvironment) .new
    (Client.loggingIn 0 2 ++ [.connectionLost 0] ++ (List.range 6).map fun k =>
      .addAcoin { receipt := packBE 32 k, interval := 2, signature := [], value := 1 })).getD .new

/-- Two payments of one token, and four of four tokens that wait. The first receipt replaces one
token, and the first of the waiting payments is started with three. -/
def exampleStarved : List (StreamAction Client.BankConnection) :=
  [.setupReply 0 1 (exampleSupply [0, 1, 2, 3]), examplePayment 1, examplePayment 1,
    examplePayment 4, examplePayment 4, examplePayment 4, examplePayment 4,
    .receipt 0 (packBE 4 0 ++ exampleSupply [4])]

/-- A payment of two tokens that waits alone, while the receipt brings four. -/
def exampleStalled : List (StreamAction Client.BankConnection) :=
  [.setupReply 0 1 (exampleSupply [0]), examplePayment 1, examplePayment 2,
    .receipt 0 (packBE 4 0 ++ exampleSupply [1, 2, 3, 4])]

theorem waiting_payments_mishandled :
    (∃ s v, Run (streamStep exampleEnvironment) (fun _ _ => True)
        (new exampleEnvironment stockedBank [exampleRelay]) exampleStarved s ∧
      s.view 0 = some v ∧ (2, 4, 3) ∈ v.started ∧ v.starved = 1 ∧ ¬v.Disciplined) ∧
    ∃ s v, Run (streamStep exampleEnvironment) (fun _ _ => True)
        (new exampleEnvironment exampleBank [exampleRelay]) exampleStalled s ∧
      s.view 0 = some v ∧ StreamView.Served v.tokens.length v.pending ∧ ¬v.Disciplined := by
  have hstarved : (exec (streamStep exampleEnvironment) (new exampleEnvironment stockedBank [exampleRelay])
      exampleStarved).any (fun s => (s.view 0).any fun v => decide ((2, 4, 3) ∈ v.started ∧ v.starved = 1)) = true := by
    decide +kernel
  have hstalled : (exec (streamStep exampleEnvironment) (new exampleEnvironment exampleBank [exampleRelay])
      exampleStalled).any (fun s => (s.view 0).any fun v =>
        decide (StreamView.Served v.tokens.length v.pending)) = true := by
    decide +kernel
  constructor
  · obtain ⟨s, hrun, hview⟩ := exists_run hstarved (eachStep_true _ _)
    obtain ⟨v, hv, hdecide⟩ := (Option.any_eq_true _ _).mp hview
    obtain ⟨hstarted, hfailed⟩ := of_decide_eq_true hdecide
    refine ⟨s, v, hrun, hv, hstarted, hfailed, fun h => ?_⟩
    exact absurd (h.provided _ hstarted) (by decide)
  · obtain ⟨s, hrun, hview⟩ := exists_run hstalled (eachStep_true _ _)
    obtain ⟨v, hv, hdecide⟩ := (Option.any_eq_true _ _).mp hview
    have hserved := of_decide_eq_true hdecide
    exact ⟨s, v, hrun, hv, hserved, fun h => h.prompt hserved⟩

end ClientPaymentHandler

end BitBlinder.Tor
