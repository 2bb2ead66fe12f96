import BitBlinder.Tor.PaidTraffic

/-!
# The tokens in flight

`inflightReadTokens` and `inflightWriteTokens` are raised when the setup or a
payment is started, and lowered when Tor has answered the ADDTOKENS command
that ends it. Every other end is a failure that leaves them as they are, and a
setup that is completed twice is answered twice.
-/

namespace BitBlinder.Tor

set_option autoImplicit false
set_option maxRecDepth 2048

open Struct Effects

namespace TokenRequest

def readTokens : TokenRequest → Nat
  | start => START_READ_TOKENS
  | payment readTokens _ => readTokens

def writeTokens : TokenRequest → Nat
  | start => START_WRITE_TOKENS
  | payment _ writeTokens => writeTokens

/-- Whether Tor's answer reaches the callback that lowers the tokens in flight. -/
def settledBy : TokenRequest → TokenReply → Bool
  | _, .values _ _ => true
  | start, .nothing => true
  | payment _ _, .nothing => false
  | _, .malformed => false

end TokenRequest

namespace Payment

/-- What a payment asks of Tor in the end. -/
def request (p : Payment) : TokenRequest := .payment p.readTokens p.writeTokens

/-- What a payment will ask of Tor, while receipts for it are missing. -/
def awaited (p : Payment) : Option TokenRequest :=
  match p.paymentsDone.results with
  | none => some p.request
  | some _ => none

/-- What a payment asks of Tor now that the last receipt has come. -/
def owed (p : Payment) : List TokenRequest :=
  match p.paymentsDone.results with
  | none => []
  | some _ => [p.request]

theorem owed_append_awaited (p : Payment) : p.owed ++ p.awaited.toList = [p.request] := by
  unfold owed awaited
  cases p.paymentsDone.results with
  | none => rfl
  | some _ => rfl

end Payment

namespace ClientPaymentHandler
variable {β : Type}

/-- The start grant and the payments that wait for messages from the hops. Nothing comes any
more once the circuit is done. -/
def awaited (s : ClientPaymentHandler β) : List TokenRequest :=
  if s.circDone then []
  else (if s.setupStarted ∧ !s.setupDone then [.start] else []) ++ s.payments.filterMap Payment.awaited

/-- What was started, and has neither been answered nor failed. -/
def outstanding (s : ClientPaymentHandler β) : List TokenRequest := s.awaited ++ s.tokenRequests

/-- The setup is completed once, Tor takes and answers what it is asked, and the circuit is not
closed before all that is awaited has come. -/
def Accounted (env : PaymentEnvironment β) (s : ClientPaymentHandler β) : Action β → Prop
  | .sendSetupMessage => s.setupStarted = true ∨ s.circDone = false
  | .setupTimeout => s.awaited = []
  | .setupReply msg => (s.CompletesSetup env msg → s.setupStarted = true ∧ s.setupDone = false) ∧
      (s.setupVerdict env msg = .ok false → s.awaited = [])
  | .sendPaymentRequest _ _ => if s.setupDone then s.circDone = true ∨ s.isReady = true ∧ 0 < s.paymentStreams.length
      else s.setupStarted = true ∨ s.circDone = false
  | .receipt msg => (s.circDone = true ∨ s.isReady = true) ∧ (s.receiptVerdict env msg = .ok false → s.awaited = [])
  | .paymentTimeout _ => s.awaited = []
  | .tokensAdded k reply => ∀ request ∈ s.tokenRequests[k]?, request.settledBy reply = true
  | .circuitDone => s.awaited = []
  | .bank _ | .torReady _ | .circuitClosed => True

instance decidableAccounted (env : PaymentEnvironment β) (s : ClientPaymentHandler β) :
    (a : Action β) → Decidable (s.Accounted env a)
  | .sendSetupMessage => inferInstanceAs (Decidable (_ ∨ _))
  | .setupTimeout | .paymentTimeout _ | .circuitDone => inferInstanceAs (Decidable (s.awaited = []))
  | .setupReply _ => inferInstanceAs (Decidable ((_ → _) ∧ (_ → _)))
  | .sendPaymentRequest _ _ => inferInstanceAs (Decidable (if s.setupDone then _ else _))
  | .receipt _ => inferInstanceAs (Decidable ((_ ∨ _) ∧ (_ → _)))
  | .tokensAdded k _ => inferInstanceAs (Decidable (∀ request ∈ s.tokenRequests[k]?, _))
  | .bank _ | .torReady _ | .circuitClosed => isTrue trivial

/-! ### Payment ids -/

/-- The deferred was given out and does not wait any more. -/
def Spent (s : ClientPaymentHandler β) (d : Nat × Nat) : Prop :=
  ∀ waiting next, (streamIds s.paymentStreams)[d.1]? = some (waiting, next) → d.2 < next ∧ d.2 ∉ waiting

/-- A waiting id is below the next one, and in the list once. -/
structure Numbered (s : ClientPaymentHandler β) : Prop where
  waiting : ∀ x ∈ streamIds s.paymentStreams, x.1.Nodup ∧ ∀ id ∈ x.1, id < x.2
  fired : ∀ e ∈ s.fired, s.Spent e.1 ∧ isFailure e.2 = false
  collected : ∀ p ∈ s.payments, ∀ d r, (d, some r) ∈ p.paymentsDone.entries → s.Spent d ∧ isFailure r = false

theorem Numbered.of_eq {s t : ClientPaymentHandler β} (h : s.Numbered) (hids : streamIds t.paymentStreams = streamIds s.paymentStreams)
    (hfired : t.fired = s.fired) (hpayments : t.payments = s.payments) : t.Numbered := by
  have hspent : ∀ d, s.Spent d → t.Spent d := by
    intro d hd
    unfold Spent
    rwa [hids]
  refine ⟨fun x hx => h.waiting x (by rwa [← hids]), fun e he => ?_, fun p hp d r hr => ?_⟩
  · obtain ⟨hd, hok⟩ := h.fired e (by rwa [← hfired])
    exact ⟨hspent _ hd, hok⟩
  · obtain ⟨hd, hok⟩ := h.collected p (by rwa [← hpayments]) d r hr
    exact ⟨hspent _ hd, hok⟩

/-- The ids of stream `i` change, and no spent id waits again. -/
theorem Numbered.modify {s : ClientPaymentHandler β} (h : s.Numbered) (i : Nat) {f : PaymentStream → PaymentStream}
    {g : List Nat × Nat → List Nat × Nat}
    (hf : ∀ stream, ((f stream).paymentDeferreds, (f stream).currentRequestId) =
      g (stream.paymentDeferreds, stream.currentRequestId))
    (hwaiting : ∀ x, (streamIds s.paymentStreams)[i]? = some x → (g x).1.Nodup ∧ ∀ id ∈ (g x).1, id < (g x).2)
    (hspent : ∀ x id, (streamIds s.paymentStreams)[i]? = some x → id < x.2 → id ∉ x.1 → id < (g x).2 ∧ id ∉ (g x).1) :
    Numbered { s with paymentStreams := s.paymentStreams.modify i f } := by
  have hids := streamIds_modify s.paymentStreams i hf
  have hkept : ∀ d, s.Spent d → Spent { s with paymentStreams := s.paymentStreams.modify i f } d := by
    intro d hd waiting next hx
    rw [hids, List.getElem?_modify] at hx
    cases hold : (streamIds s.paymentStreams)[d.1]? with
    | none => simp [hold] at hx
    | some x =>
      obtain ⟨hlt, hnot⟩ := hd x.1 x.2 hold
      rw [hold] at hx
      split at hx
      · rename_i hi
        rw [← hi] at hold
        have hg : g x = (waiting, next) := Option.some.inj hx
        have hkept := hspent x d.2 hold hlt hnot
        rwa [hg] at hkept
      · cases hx
        exact ⟨hlt, hnot⟩
  refine ⟨fun x hx => ?_, fun e he => ?_, fun p hp d r hr => ?_⟩
  · rw [hids] at hx
    obtain ⟨j, hj⟩ := List.getElem?_of_mem hx
    rw [List.getElem?_modify] at hj
    cases hold : (streamIds s.paymentStreams)[j]? with
    | none => simp [hold] at hj
    | some y =>
      rw [hold] at hj
      split at hj
      · rename_i hi
        rw [← hi] at hold
        cases hj
        exact hwaiting y hold
      · cases hj
        exact h.waiting _ (List.mem_of_getElem? hold)
  · obtain ⟨hd, hok⟩ := h.fired e he
    exact ⟨hkept _ hd, hok⟩
  · obtain ⟨hd, hok⟩ := h.collected p hp d r hr
    exact ⟨hkept _ hd, hok⟩

theorem Numbered.modifyPayment {s : ClientPaymentHandler β} (h : s.Numbered) (k : Nat) {f : Payment → Payment}
    (hentries : ∀ p d r, (d, some r) ∈ (f p).paymentsDone.entries →
      (d, some r) ∈ p.paymentsDone.entries ∨ s.Spent d ∧ isFailure r = false) :
    Numbered { s with payments := s.payments.modify k f } := by
  refine ⟨h.waiting, h.fired, fun p hp d r hr => ?_⟩
  rcases mem_modify hp with hp | ⟨q, hq, rfl⟩
  · exact h.collected p hp d r hr
  · rcases hentries q d r hr with hr | hd
    · exact h.collected q hq d r hr
    · exact hd

/-! ### The books -/

/-- The tokens in flight are those of `extra` and of what is outstanding. -/
structure Carries (extra : List TokenRequest) (s : ClientPaymentHandler β) : Prop where
  read : s.inflightReadTokens = (((extra ++ s.outstanding).map TokenRequest.readTokens).sum : Nat)
  write : s.inflightWriteTokens = (((extra ++ s.outstanding).map TokenRequest.writeTokens).sum : Nat)

namespace Carries
variable {extra extra' : List TokenRequest} {s t : ClientPaymentHandler β} {r : TokenRequest}

theorem of_perm (h : s.Carries extra) (hread : t.inflightReadTokens = s.inflightReadTokens)
    (hwrite : t.inflightWriteTokens = s.inflightWriteTokens)
    (hperm : (extra' ++ t.outstanding).Perm (extra ++ s.outstanding)) : t.Carries extra' := by
  constructor
  · rw [hread, h.read, (hperm.map _).sum_nat]
  · rw [hwrite, h.write, (hperm.map _).sum_nat]

theorem raise (h : s.Carries extra) (hread : t.inflightReadTokens = s.inflightReadTokens + r.readTokens)
    (hwrite : t.inflightWriteTokens = s.inflightWriteTokens + r.writeTokens)
    (hperm : (extra' ++ t.outstanding).Perm (r :: (extra ++ s.outstanding))) : t.Carries extra' := by
  constructor
  · rw [hread, h.read, (hperm.map _).sum_nat, List.map_cons, List.sum_cons]
    omega
  · rw [hwrite, h.write, (hperm.map _).sum_nat, List.map_cons, List.sum_cons]
    omega

theorem lower (h : s.Carries extra) (hread : t.inflightReadTokens = s.inflightReadTokens - r.readTokens)
    (hwrite : t.inflightWriteTokens = s.inflightWriteTokens - r.writeTokens)
    (hperm : (r :: (extra' ++ t.outstanding)).Perm (extra ++ s.outstanding)) : t.Carries extra' := by
  have hsumr := h.read
  have hsumw := h.write
  rw [← (hperm.map _).sum_nat, List.map_cons, List.sum_cons] at hsumr hsumw
  exact ⟨by rw [hread, hsumr]; omega, by rw [hwrite, hsumw]; omega⟩

end Carries

structure Owing (extra : List TokenRequest) (s : ClientPaymentHandler β) : Prop
    extends Numbered s, Carries extra s where
  setup : s.setupDone = true → s.setupStarted = true

/-- The books are in order, and an open circuit can be paid for. -/
structure Ready (circDone : Bool) (s : ClientPaymentHandler β) : Prop extends Owing [] s where
  done : s.circDone = circDone
  ready : circDone = false → s.isReady = true

/-- A change of what the books do not look at. -/
theorem Owing.of_eq {extra : List TokenRequest} {s t : ClientPaymentHandler β} (h : s.Owing extra)
    (hnumbered : t.Numbered) (hread : t.inflightReadTokens = s.inflightReadTokens)
    (hwrite : t.inflightWriteTokens = s.inflightWriteTokens) (houtstanding : t.outstanding = s.outstanding)
    (hstarted : t.setupStarted = s.setupStarted) (hsetup : t.setupDone = s.setupDone) : t.Owing extra := by
  refine ⟨hnumbered, h.toCarries.of_perm hread hwrite (.of_eq ?_), ?_⟩
  · rw [houtstanding]
  · rw [hstarted, hsetup]
    exact h.setup

/-- Only the tokens, the state of the setup and the waiting payments of a stream change. -/
theorem Owing.stream {extra : List TokenRequest} {s : ClientPaymentHandler β} (h : s.Owing extra) (i : Nat)
    {f : PaymentStream → PaymentStream} (hdeferreds : ∀ stream, (f stream).paymentDeferreds = stream.paymentDeferreds)
    (hcurrent : ∀ stream, (f stream).currentRequestId = stream.currentRequestId) :
    Owing extra { s with paymentStreams := s.paymentStreams.modify i f } := by
  refine h.of_eq ?_ rfl rfl rfl rfl rfl
  refine h.toNumbered.modify i (g := id) (fun stream => ?_) (fun x hx => ?_) fun _ _ _ hlt hnot => ⟨hlt, hnot⟩
  · rw [hdeferreds, hcurrent]
    rfl
  · exact h.waiting x (List.mem_of_getElem? hx)

theorem filterMap_cons_toList {α γ : Type} (f : α → Option γ) (a : α) (l : List α) :
    (a :: l).filterMap f = (f a).toList ++ l.filterMap f := by
  rw [List.filterMap_cons]
  cases f a with
  | none => rfl
  | some b => rfl

/-- The last receipt for a payment may have come. -/
theorem awaited_modify {payments : List Payment} {k : Nat} {p : Payment} (hk : payments[k]? = some p)
    (hp : p.awaited = some p.request) {f : Payment → Payment} (hf : (f p).request = p.request) :
    ((f p).owed ++ (payments.modify k f).filterMap Payment.awaited).Perm (payments.filterMap Payment.awaited) := by
  calc ((f p).owed ++ (payments.modify k f).filterMap Payment.awaited).Perm
        ((f p).owed ++ (f p :: payments.eraseIdx k).filterMap Payment.awaited) :=
          ((modify_perm hk f).filterMap _).append_left _
    _ = (p :: payments.eraseIdx k).filterMap Payment.awaited := by
          rw [filterMap_cons_toList, ← List.append_assoc, Payment.owed_append_awaited, hf, filterMap_cons_toList, hp]
          rfl
    List.Perm _ (payments.filterMap Payment.awaited) := (cons_eraseIdx_perm hk).filterMap _

theorem outstanding_payments {s : ClientPaymentHandler β} {payments : List Payment} {owed : List TokenRequest}
    (h : (owed ++ payments.filterMap Payment.awaited).Perm (s.payments.filterMap Payment.awaited)) :
    ((if s.circDone then [] else owed) ++ outstanding { s with payments }).Perm s.outstanding := by
  unfold outstanding awaited
  split
  · exact .refl _
  · generalize (if s.setupStarted ∧ !s.setupDone then [TokenRequest.start] else []) = grant
    rw [← List.append_assoc, ← List.append_assoc]
    refine List.Perm.append_right _ ?_
    calc (owed ++ grant ++ payments.filterMap Payment.awaited).Perm
          (grant ++ owed ++ payments.filterMap Payment.awaited) := List.perm_append_comm.append_right _
      _ = grant ++ (owed ++ payments.filterMap Payment.awaited) := List.append_assoc _ _ _
      List.Perm _ (grant ++ s.payments.filterMap Payment.awaited) := h.append_left _

/-- The tokens are in the hands of Tor, unless the circuit is done. -/
theorem addTokens_ready {circDone : Bool} {s : ClientPaymentHandler β} {request : TokenRequest}
    (h : s.Owing (if s.circDone then [] else [request])) (hdone : s.circDone = circDone)
    (hready : circDone = false → s.isReady = true) :
    Outcome (addTokens request) s (fun _ => Ready circDone) fun _ => Ready circDone := by
  unfold addTokens
  rw [outcome_bind, outcome_get, outcome_ite]
  split
  · rename_i hcirc
    rw [if_pos hcirc] at h
    exact ⟨h, hdone, hready⟩
  · rename_i hcirc
    rw [if_neg hcirc] at h
    have hopen : circDone = false := by simpa [hdone] using hcirc
    rw [outcome_ite, if_neg (by simp [hready hopen]), outcome_bind, outcome_modify, outcome_pure]
    refine ⟨⟨h.toNumbered.of_eq rfl rfl rfl, ?_, h.setup⟩, hdone, hready⟩
    refine h.toCarries.of_perm rfl rfl ?_
    rw [List.nil_append]
    change (s.awaited ++ (s.tokenRequests ++ [request])).Perm ([request] ++ (s.awaited ++ s.tokenRequests))
    rw [← List.append_assoc]
    exact List.perm_append_comm

/-- Marking the timeout of a payment as cancelled. -/
theorem Owing.cancel {extra : List TokenRequest} {s : ClientPaymentHandler β} (h : s.Owing extra) (k : Nat) :
    Owing extra { s with payments := s.payments.modify k fun p => { p with event := false } } := by
  refine ⟨h.toNumbered.modifyPayment k fun _ _ _ hr => Or.inl hr, ?_, h.setup⟩
  refine h.toCarries.of_perm rfl rfl (List.Perm.append_left _ ?_)
  have hsame : (s.payments.modify k fun p => { p with event := false }).filterMap Payment.awaited =
      s.payments.filterMap Payment.awaited := by
    generalize s.payments = payments
    induction payments generalizing k with
    | nil => simp
    | cons p payments ih =>
      cases k with
      | zero => rfl
      | succ k => simp only [List.modify_succ_cons, filterMap_cons_toList, ih k]
  have hperm := outstanding_payments (s := s) (List.Perm.of_eq ((List.nil_append _).trans hsame))
  rwa [ite_self, List.nil_append] at hperm

theorem listFired_ready {circDone : Bool} {s : ClientPaymentHandler β} {p : Payment}
    (h : s.Owing (if s.circDone then [] else p.owed)) (hdone : s.circDone = circDone)
    (hready : circDone = false → s.isReady = true) (hsome : p.paymentsDone.deferreds ≠ [])
    (hok : ∀ d r, (d, some r) ∈ p.paymentsDone.entries → isFailure r = false) (k : Nat) :
    Outcome (listFired k p) s (fun _ => Ready circDone) fun _ => Ready circDone := by
  unfold listFired
  unfold Payment.owed at h
  cases hresults : p.paymentsDone.results with
  | none =>
    rw [hresults, ite_self] at h
    exact ⟨h, hdone, hready⟩
  | some results =>
    rw [hresults] at h
    have hany : ¬results.any isFailure = true := by
      intro hany
      obtain ⟨r, hr, hfailure⟩ := List.any_eq_true.mp hany
      obtain ⟨d, hd⟩ := DeferredList.mem_results hresults hr
      rw [hok d r hd] at hfailure
      cases hfailure
    dsimp only
    rw [outcome_rescue]
    cases results with
    | nil =>
      obtain ⟨d, hd⟩ := List.exists_mem_of_ne_nil _ hsome
      obtain ⟨r, hr, -⟩ := DeferredList.exists_result hresults hd
      cases hr
    | cons result results =>
      rw [allReceiptsReceived, outcome_ite, if_neg hany]
      · simp only [output, outcome_bind, outcome_modify]
        have hcancel := h.cancel k
        refine (addTokens_ready ?_ ?_ ?_).mono (fun _ _ h => h) fun _ _ h => h
        · exact ⟨hcancel.toNumbered.of_eq rfl rfl rfl, hcancel.toCarries.of_perm rfl rfl (.refl _), hcancel.setup⟩
        · exact hdone
        · exact hready
      · intro hnil
        cases hnil

theorem fire_ready {circDone : Bool} {s : ClientPaymentHandler β} (h : s.Ready circDone) {d : Nat × Nat}
    (hd : s.Spent d)
    (hnone : ∀ p ∈ s.payments, d ∈ p.paymentsDone.deferreds → ∀ r, (d, some r) ∉ p.paymentsDone.entries)
    (result : Except PyError PaymentResult) :
    Outcome (fire d result) s (fun _ => Ready circDone) fun _ => Ready circDone := by
  simp only [fire, outcome_bind, outcome_modify, outcome_get]
  have hresult : isFailure (addErrback genericErrorHandler result) = false := by
    cases result with
    | ok result => rfl
    | error e => rfl
  generalize addErrback genericErrorHandler result = result at hresult ⊢
  have hfired : Ready circDone { s with fired := s.fired ++ [(d, result)] } := by
    refine ⟨⟨⟨h.waiting, fun e he => ?_, h.collected⟩, h.toCarries.of_perm rfl rfl (.refl _), h.setup⟩, h.done, h.ready⟩
    rcases List.mem_append.mp he with he | he
    · exact h.fired e he
    · rw [List.mem_singleton.mp he]
      exact ⟨hd, hresult⟩
  split
  · exact hfired
  · rename_i k hk
    obtain ⟨hlt, hmem, -⟩ := List.findIdx?_eq_some_iff_getElem.mp hk
    have hk : s.payments[k]? = some s.payments[k] := List.getElem?_eq_getElem hlt
    simp only [decide_eq_true_eq] at hmem
    -- The deferred has not fired before, so the list of its payment has not either.
    have hresults : s.payments[k].paymentsDone.results = none :=
      DeferredList.results_eq_none hmem (hnone _ (List.getElem_mem hlt) hmem)
    have hawaited : s.payments[k].awaited = some s.payments[k].request := by
      unfold Payment.awaited
      rw [hresults]
    simp only [outcome_bind, outcome_modify, outcome_get, List.getElem?_modify_eq, hk, Option.map_eq_map,
      Option.map_some]
    have hcollect : Numbered { s with
        fired := s.fired ++ [(d, result)]
        payments := s.payments.modify k fun payment =>
          { payment with paymentsDone := payment.paymentsDone.collect d result } } := by
      refine hfired.toNumbered.modifyPayment k fun p d' r hr => ?_
      rcases DeferredList.mem_entries_collect hr with hr | hr
      · exact Or.inl hr
      · cases hr
        exact Or.inr ⟨hd, hresult⟩
    have hperm := awaited_modify hk hawaited
      (f := fun payment => { payment with paymentsDone := payment.paymentsDone.collect d result }) rfl
    refine listFired_ready ⟨hcollect, ?_, h.setup⟩ h.done h.ready ?_ ?_ k
    · exact hfired.toCarries.of_perm rfl rfl (outstanding_payments hperm)
    · rw [DeferredList.deferreds_collect]
      exact List.ne_nil_of_mem hmem
    · intro d' r hr
      refine (hcollect.collected _ ?_ d' r hr).2
      exact List.mem_of_getElem? (by rw [List.getElem?_modify_eq, hk]; rfl)

theorem streamIds_getElem? {s : ClientPaymentHandler β} {i : Nat} {stream : PaymentStream}
    (hi : s.paymentStreams[i]? = some stream) :
    (streamIds s.paymentStreams)[i]? = some (stream.paymentDeferreds, stream.currentRequestId) := by
  unfold streamIds
  rw [List.getElem?_map, hi]
  rfl

theorem finishPayment_ready {circDone : Bool} {s : ClientPaymentHandler β} (h : s.Ready circDone)
    (i paymentId : Nat) (result : Except PyError PaymentResult) :
    Outcome (finishPayment i paymentId result) s (fun _ => Ready circDone) fun _ => Ready circDone := by
  unfold finishPayment
  rw [outcome_bind]
  cases hi : s.paymentStreams[i]? with
  | none => exact (outcome_getStream_none hi).mpr h
  | some stream =>
    rw [outcome_getStream hi, outcome_ite]
    split
    · rename_i hwaits
      rw [outcome_bind, setStream, outcome_modify]
      have hx := streamIds_getElem? hi
      obtain ⟨hnodup, hlt⟩ := h.waiting _ (List.mem_of_getElem? hx)
      have hnumbered : Numbered { s with paymentStreams := s.paymentStreams.modify i fun stream =>
          { stream with paymentDeferreds := stream.paymentDeferreds.erase paymentId } } := by
        refine h.toNumbered.modify i (g := fun x => (x.1.erase paymentId, x.2)) (fun _ => rfl) ?_ ?_
        · intro x hx'
          obtain ⟨hnodup, hlt⟩ := h.waiting x (List.mem_of_getElem? hx')
          exact ⟨hnodup.erase _, fun id hid => hlt id (List.mem_of_mem_erase hid)⟩
        · intro x id _ hlt hnot
          exact ⟨hlt, fun hid => hnot (List.mem_of_mem_erase hid)⟩
      refine fire_ready ⟨⟨hnumbered, h.toCarries.of_perm rfl rfl (.refl _), h.setup⟩, h.done, h.ready⟩ ?_ ?_ result
      · intro waiting next hids
        rw [streamIds_modify _ i (g := fun x => (x.1.erase paymentId, x.2)) fun _ => rfl, List.getElem?_modify_eq, hx] at hids
        cases hids
        exact ⟨hlt _ hwaits, fun hid => hnodup.not_mem_erase hid⟩
      · intro p hp _ r hr
        exact ((h.collected p hp _ r hr).1 _ _ hx).2 hwaits
    · exact h

def KeepsReady (circDone : Bool) (s t : ClientPaymentHandler β) : Prop := s.Ready circDone → t.Ready circDone

instance (circDone : Bool) : IsPreorder (ClientPaymentHandler β) (KeepsReady circDone) where
  refl _ h := h
  trans _ _ _ hst htu h := htu (hst h)

theorem Ready.of_eq {circDone : Bool} {s t : ClientPaymentHandler β} (h : s.Ready circDone)
    (hnumbered : t.Numbered) (hread : t.inflightReadTokens = s.inflightReadTokens)
    (hwrite : t.inflightWriteTokens = s.inflightWriteTokens) (houtstanding : t.outstanding = s.outstanding)
    (hstarted : t.setupStarted = s.setupStarted) (hsetup : t.setupDone = s.setupDone)
    (hdone : t.circDone = s.circDone) (hready : t.isReady = s.isReady) : t.Ready circDone := by
  refine ⟨h.toOwing.of_eq hnumbered hread hwrite houtstanding hstarted hsetup, hdone.trans h.done, ?_⟩
  rw [hready]
  exact h.ready

theorem paying_keepsReady (circDone : Bool) : Paying (KeepsReady (β := β) circDone) where
  aside _ _ _ _ _ h := h.of_eq (h.toNumbered.of_eq rfl rfl rfl) rfl rfl rfl rfl rfl rfl rfl
  output _ := .modify fun _ h => h.of_eq (h.toNumbered.of_eq rfl rfl rfl) rfl rfl rfl rfl rfl rfl rfl
  stream i f hdeferreds hcurrent := .modify fun _ h => ⟨h.toOwing.stream i hdeferreds hcurrent, h.done, h.ready⟩
  register := by
    intro i s stream hi h
    refine h.of_eq ?_ rfl rfl rfl rfl rfl rfl rfl
    have hx := streamIds_getElem? hi
    refine h.toNumbered.modify i (g := fun x => (x.1 ++ [stream.currentRequestId], x.2 + 1)) (fun _ => rfl) ?_ ?_
    · intro x hx'
      rw [hx] at hx'
      cases hx'
      obtain ⟨hnodup, hlt⟩ := h.waiting _ (List.mem_of_getElem? hx)
      constructor
      · dsimp only
        rw [← List.concat_eq_append]
        exact hnodup.concat fun hmem => Nat.lt_irrefl _ (hlt _ hmem)
      · intro id hid
        rcases List.mem_append.mp hid with hid | hid
        · exact Nat.lt_succ_of_lt (hlt id hid)
        · rw [List.mem_singleton.mp hid]
          exact Nat.lt_succ_self _
    · intro x id hx' hlt hnot
      rw [hx] at hx'
      cases hx'
      refine ⟨Nat.lt_succ_of_lt hlt, fun hid => ?_⟩
      rcases List.mem_append.mp hid with hid | hid
      · exact hnot hid
      · rw [List.mem_singleton.mp hid] at hlt
        exact Nat.lt_irrefl _ hlt
  finish i paymentId result := .of_invariant fun _ h => finishPayment_ready h i paymentId result

/-- The request of a new payment is awaited with the others or owed at once. -/
theorem outstanding_append {s : ClientPaymentHandler β} (hopen : s.circDone = false) (p : Payment) :
    (p.owed ++ outstanding { s with payments := s.payments ++ [p] }).Perm (p.request :: s.outstanding) := by
  have hcons : p.request :: s.outstanding = p.owed ++ p.awaited.toList ++ s.outstanding := by
    rw [p.owed_append_awaited]
    rfl
  have hone : [p].filterMap Payment.awaited = p.awaited.toList := by
    rw [filterMap_cons_toList]
    exact List.append_nil _
  rw [hcons, List.perm_iff_count]
  intro request
  simp only [outstanding, awaited, hopen, Bool.false_eq_true, ↓reduceIte, List.filterMap_append, hone,
    List.count_append]
  omega

theorem awaitReceipts_ready {s : ClientPaymentHandler β} (h : s.Ready false) (readTokens writeTokens : Nat)
    {ds : List (Nat × Nat)} (hds : ds ≠ []) :
    Outcome (awaitReceipts readTokens writeTokens ds) s (fun _ => Ready false) fun _ => Ready false := by
  simp only [awaitReceipts, outcome_bind, outcome_get, outcome_modify]
  have hcollected : ∀ d r, (d, some r) ∈ (DeferredList.new ds s.resultOf).entries → s.Spent d ∧ isFailure r = false := by
    intro d r hr
    obtain ⟨d', -, heq⟩ := List.mem_map.mp hr
    simp only [Prod.mk.injEq] at heq
    obtain ⟨rfl, hresult⟩ := heq
    obtain ⟨e, he, rfl⟩ := Option.map_eq_some_iff.mp hresult
    have hkey : e.1 = d' := by simpa using List.find?_some he
    rw [← hkey]
    exact h.fired e (List.mem_of_find?_eq_some he)
  generalize hp : ({ readTokens, writeTokens, paymentsDone := .new ds s.resultOf, event := true } : Payment) = p
  have hdone : p.paymentsDone = .new ds s.resultOf := by rw [← hp]
  have hread : p.request.readTokens = readTokens := by rw [← hp]; rfl
  have hwrite : p.request.writeTokens = writeTokens := by rw [← hp]; rfl
  refine listFired_ready ?_ ?_ ?_ ?_ ?_ _
  · refine ⟨⟨h.waiting, h.fired, fun q hq d r hr => ?_⟩, ?_, h.setup⟩
    · rcases List.mem_append.mp hq with hq | hq
      · exact h.collected q hq d r hr
      · rw [List.mem_singleton.mp hq, hdone] at hr
        exact hcollected d r hr
    · refine Carries.raise (r := p.request) h.toCarries ?_ ?_ ?_
      · rw [hread]
      · rw [hwrite]
      · have hopen : ¬s.circDone = true := by simp [h.done]
        dsimp only
        rw [if_neg hopen]
        exact outstanding_append h.done p
  · exact h.done
  · exact h.ready
  · rw [hdone, DeferredList.deferreds_new]
    exact hds
  · intro d r hr
    rw [hdone] at hr
    exact (hcollected d r hr).2

/-! ### Steps -/

/-- Nothing is lost when the circuit is closed while nothing is awaited. -/
theorem Owing.close {s : ClientPaymentHandler β} (h : s.Owing []) (hs : s.awaited = []) :
    Owing [] { s with circDone := true } := by
  refine ⟨h.toNumbered.of_eq rfl rfl rfl, h.toCarries.of_perm rfl rfl (.of_eq ?_), h.setup⟩
  unfold outstanding
  rw [hs]
  rfl

theorem sendSetupMessage_owing {s : ClientPaymentHandler β} (h : s.Owing [])
    (hok : s.setupStarted = true ∨ s.circDone = false) :
    Outcome sendSetupMessage s (fun _ => Owing []) fun _ => Owing [] := by
  unfold sendSetupMessage
  rw [outcome_bind, outcome_get, outcome_when]
  split
  · rename_i hstarted
    have hstarted : s.setupStarted = false := by simpa using hstarted
    have hopen : s.circDone = false := by simpa [hstarted] using hok
    have hsetup : s.setupDone = false := by
      cases hdone : s.setupDone with
      | false => rfl
      | true => exact absurd (h.setup hdone) (by simp [hstarted])
    have hsent : ∀ name numHops msg, Moves (fun s t : ClientPaymentHandler β => s.Owing [] → t.Owing [])
        (output (.sent name numHops msg)) := by
      intro name numHops msg
      exact .modify fun t ht => ht.of_eq (ht.toNumbered.of_eq rfl rfl rfl) rfl rfl rfl rfl rfl
    have hpre : IsPreorder (ClientPaymentHandler β) fun s t => s.Owing [] → t.Owing [] :=
      { refl := fun _ ht => ht, trans := fun _ _ _ hst htu ht => htu (hst ht) }
    rw [outcome_bind, outcome_modify]
    refine (moves_sendSetups hsent s.paymentStreams).invariant ?_
    refine ⟨h.toNumbered.of_eq rfl rfl rfl, ?_, fun _ => rfl⟩
    refine Carries.raise (r := .start) h.toCarries rfl rfl ?_
    simp only [outstanding, awaited, hstarted, hopen, hsetup]
    exact .refl _
  · exact h

theorem sendPaymentRequest_owing {env : PaymentEnvironment β} {s : ClientPaymentHandler β} (h : s.Owing [])
    (readTokens writeTokens : Nat) (hok : s.Accounted env (.sendPaymentRequest readTokens writeTokens)) :
    Outcome (sendPaymentRequest env readTokens writeTokens) s (fun _ => Owing []) fun _ => Owing [] := by
  unfold sendPaymentRequest
  simp only [Accounted] at hok
  rw [outcome_bind, outcome_get, outcome_ite]
  split
  · exact h
  · rw [outcome_ite]
    split
    · rename_i hsetup
      have hsetup : s.setupDone = false := by simpa using hsetup
      rw [if_neg (by simp [hsetup])] at hok
      rw [outcome_bind]
      refine (sendSetupMessage_owing h hok).mono (fun _ t ht => ?_) fun _ _ ht => ht
      exact ht.of_eq (ht.toNumbered.of_eq rfl rfl rfl) rfl rfl rfl rfl rfl
    · rename_i hsetup
      rw [if_pos (by simpa using hsetup)] at hok
      rw [outcome_when]
      split
      · rename_i hopen
        have hopen : s.circDone = false := by simpa using hopen
        obtain ⟨hready, hstreams⟩ : s.isReady = true ∧ 0 < s.paymentStreams.length := by simpa [hopen] using hok
        have hs : s.Ready false := ⟨h, hopen, fun _ => hready⟩
        rw [outcome_bind]
        have hpay := ((paying_keepsReady false).sendPayments env readTokens writeTokens
          (List.range s.paymentStreams.length)).invariant hs
        refine (hpay.and (sendPayments_streams env readTokens writeTokens _ s)).mono (fun ds t ht => ?_)
          fun _ _ ht => ht.1.toOwing
        have hds : ds ≠ [] := by
          rintro rfl
          have hlength := congrArg List.length ht.2
          rw [List.length_range] at hlength
          exact Nat.ne_of_lt hstreams hlength
        exact (awaitReceipts_ready ht.1 readTokens writeTokens hds).mono (fun _ _ hu => hu.toOwing)
          fun _ _ hu => hu.toOwing
      · exact h

/-- Reading tokens closes the circuit when it finds a wrong signature. -/
theorem stored_owing {s : ClientPaymentHandler β} (h : s.Owing []) (i : Nat) (tokens : List (Nat × Bytes))
    {verdict : PyExcept Bool} (hok : verdict = .ok false → s.awaited = []) : (s.stored i tokens verdict).Owing [] := by
  have hstream : Owing [] { s with paymentStreams := s.paymentStreams.modify i (PaymentStream.storeTokens tokens) } :=
    h.stream i (fun _ => rfl) fun _ => rfl
  by_cases hverdict : verdict = .ok false
  · have hclose := hstream.close (hok hverdict)
    simpa [stored, hverdict] using hclose
  · simpa [stored, hverdict] using hstream

theorem stored_circDone (s : ClientPaymentHandler β) (i : Nat) (tokens : List (Nat × Bytes)) :
    (s.stored i tokens (.ok true)).circDone = s.circDone := by
  simp [stored]

theorem handleReceipt_owing {env : PaymentEnvironment β} {s : ClientPaymentHandler β} (h : s.Owing [])
    (msg : Bytes) (hok : s.Accounted env (.receipt msg)) :
    Outcome (handleReceipt env msg) s (fun _ => Owing []) fun _ => Owing [] := by
  obtain ⟨hready, hverdict⟩ := hok
  unfold handleReceipt
  cases hversion : Basic.readByte msg with
  | error e => exact h
  | ok p =>
    simp only [outcome_bind, outcome_attempt, outcome_get]
    cases hstream : s.getPaymentStream p.2 with
    | error e => exact h
    | ok q =>
      obtain ⟨i, rest⟩ := q
      obtain ⟨stream, hi⟩ := getPaymentStream_ok hstream
      unfold streamReceipt
      dsimp only
      rw [outcome_bind, outcome_attempt]
      cases hid : Basic.readLong rest with
      | error e => exact h
      | ok r =>
        have hreceipt : s.receiptVerdict env msg = (paymentTokensRead (env.verify stream.hexId) s.circDone r.2).2 := by
          simp [receiptVerdict, addressee, tokensFor, hversion, hstream, hid, hi]
        rw [hreceipt] at hverdict
        dsimp only
        rw [outcome_bind]
        refine (readPaymentTokens_readsAs env i r.2 hi).mono ?_ ?_
        · rintro valid t ⟨hvalid, rfl⟩
          have hstored := stored_owing h i (paymentTokensRead (env.verify stream.hexId) s.circDone r.2).1 hverdict
          rw [outcome_when]
          split
          · rename_i htrue
            rw [htrue] at hvalid
            have hpaying := paying_keepsReady (β := β) s.circDone
            have hstart : Moves (KeepsReady s.circDone) (do
                output (.receipt i r.1)
                startPending env i
                finishPayment i r.1 (.ok .received) : Pay β Unit) := by
              refine .bind (hpaying.output fun _ _ _ h => by cases h) fun _ => ?_
              exact .bind (hpaying.startPending env i) fun _ => hpaying.finish i r.1 _
            refine (hstart.invariant ⟨hstored, ?_, ?_⟩).mono (fun _ _ h => h.toOwing) fun _ _ h => h.toOwing
            · rw [hvalid]
              exact stored_circDone s i _
            · intro hopen
              exact hready.resolve_left (by simp [hopen])
          · exact hstored
        · rintro e t ⟨-, rfl⟩
          exact stored_owing h i _ hverdict

theorem setupReplied_owing {env : PaymentEnvironment β} {s t : ClientPaymentHandler β} (h : s.Owing [])
    {msg : Bytes} (hok : s.Accounted env (.setupReply msg)) (ht : SetupReplied env s msg t) : t.Owing [] := by
  obtain ⟨honce, hclose⟩ := hok
  cases ht with
  | completed ids_eq completes =>
    obtain ⟨hstarted, hsetup⟩ := honce completes
    have hopen : s.circDone = false := completes.1
    refine ⟨h.toNumbered.of_eq ids_eq rfl rfl, h.toCarries.of_perm rfl rfl ?_, fun _ => hstarted⟩
    -- The grant is no longer awaited from the hops, but from Tor.
    have hbefore : s.outstanding = .start :: (s.payments.filterMap Payment.awaited ++ s.tokenRequests) := by
      simp [outstanding, awaited, hstarted, hsetup, hopen]
    rw [List.nil_append, List.nil_append, hbefore]
    simp only [outstanding, awaited, hopen, Bool.false_eq_true, ↓reduceIte, Bool.not_true, and_false, List.nil_append]
    rw [← List.append_assoc]
    exact List.perm_append_singleton _ _
  | @stored parVersion paymentStreams circDone ids_eq incomplete closed =>
    have hstreams : Owing [] { s with parVersion, paymentStreams } :=
      h.of_eq (h.toNumbered.of_eq ids_eq rfl rfl) rfl rfl rfl rfl rfl
    by_cases hverdict : s.setupVerdict env msg = .ok false
    · have hclosed := hstreams.close (hclose hverdict)
      simpa [closed, hverdict] using hclosed
    · simpa [closed, hverdict] using hstreams

theorem tokensAdded_owing {s : ClientPaymentHandler β} (h : s.Owing []) {k : Nat} {request : TokenRequest}
    {reply : TokenReply} (hk : s.tokenRequests[k]? = some request) (hreply : request.settledBy reply = true) :
    Owing [] (finish (tokensAdded request reply) { s with tokenRequests := s.tokenRequests.eraseIdx k }) := by
  have hperm : (request :: (s.awaited ++ s.tokenRequests.eraseIdx k)).Perm s.outstanding :=
    List.perm_middle.symm.trans ((cons_eraseIdx_perm hk).append_left _)
  cases request with
  | start =>
    cases reply with
    | values read write => exact ⟨h.toNumbered.of_eq rfl rfl rfl, h.toCarries.lower rfl rfl hperm, h.setup⟩
    | nothing => exact ⟨h.toNumbered.of_eq rfl rfl rfl, h.toCarries.lower rfl rfl hperm, h.setup⟩
    | malformed => cases hreply
  | payment readTokens writeTokens =>
    cases reply with
    | values read write => exact ⟨h.toNumbered.of_eq rfl rfl rfl, h.toCarries.lower rfl rfl hperm, h.setup⟩
    | nothing => cases hreply
    | malformed => cases hreply

theorem step_owing {env : PaymentEnvironment β} {s t : ClientPaymentHandler β} {a : Action β} (h : s.Owing [])
    (hok : s.Accounted env a) (hstep : step env s a = some t) : t.Owing [] := by
  cases a with
  | sendSetupMessage =>
    cases hstep
    exact outcome_finish.mp (sendSetupMessage_owing h hok)
  | setupTimeout =>
    obtain rfl := step_setupTimeout hstep
    exact h.close hok
  | setupReply msg =>
    cases hstep
    exact setupReplied_owing h hok (handleSetupReply_replied env msg s)
  | sendPaymentRequest readTokens writeTokens =>
    cases hstep
    exact outcome_finish.mp (sendPaymentRequest_owing h readTokens writeTokens hok)
  | receipt msg =>
    cases hstep
    exact outcome_finish.mp (handleReceipt_owing h msg hok)
  | paymentTimeout k =>
    obtain rfl := step_paymentTimeout hstep
    exact (h.close hok).cancel k
  | tokensAdded k reply =>
    obtain ⟨request, hrequest, rfl⟩ := Option.map_eq_some_iff.mp hstep
    exact tokensAdded_owing h hrequest (hok request hrequest)
  | bank bank =>
    cases hstep
    exact h.of_eq (h.toNumbered.of_eq rfl rfl rfl) rfl rfl rfl rfl rfl
  | torReady isReady =>
    cases hstep
    exact h.of_eq (h.toNumbered.of_eq rfl rfl rfl) rfl rfl rfl rfl rfl
  | circuitDone =>
    cases hstep
    exact h.close hok
  | circuitClosed =>
    cases hstep
    exact h.of_eq (h.toNumbered.of_eq rfl rfl rfl) rfl rfl rfl rfl rfl

theorem new_owing (env : PaymentEnvironment β) (bank : β) (finalPath : List Bytes) :
    (new env bank finalPath).Owing [] := by
  refine ⟨⟨fun x hx => ?_, fun e he => ?_, fun p hp => ?_⟩, ⟨rfl, rfl⟩, fun h => ?_⟩
  · obtain ⟨stream, hstream, rfl⟩ := List.mem_map.mp hx
    obtain ⟨hexId, hop, rfl⟩ := new_streams hstream
    exact ⟨List.nodup_nil, fun _ h => by cases h⟩
  · cases he
  · cases hp
  · cases h

/-- In every accounted run the tokens in flight are exactly those of what was started and has
neither been answered nor failed. -/
theorem inflight_eq_outstanding (env : PaymentEnvironment β) (bank : β) (finalPath : List Bytes)
    {as : List (Action β)} {s : ClientPaymentHandler β}
    (h : Run (step env) (Accounted env) (new env bank finalPath) as s) :
    s.inflightReadTokens = ((s.outstanding.map TokenRequest.readTokens).sum : Nat) ∧
      s.inflightWriteTokens = ((s.outstanding.map TokenRequest.writeTokens).sum : Nat) ∧
      0 ≤ s.inflightReadTokens ∧ 0 ≤ s.inflightWriteTokens ∧
      (s.outstanding = [] → s.inflightReadTokens = 0 ∧ s.inflightWriteTokens = 0) := by
  have hs : s.Owing [] := h.invariant step_owing (new_owing env bank finalPath)
  have hread : s.inflightReadTokens = ((s.outstanding.map TokenRequest.readTokens).sum : Nat) := hs.read
  have hwrite : s.inflightWriteTokens = ((s.outstanding.map TokenRequest.writeTokens).sum : Nat) := hs.write
  refine ⟨hread, hwrite, ?_, ?_, fun hnil => ?_⟩
  · rw [hread]
    exact Int.natCast_nonneg _
  · rw [hwrite]
    exact Int.natCast_nonneg _
  · rw [hread, hwrite, hnil]
    exact ⟨rfl, rfl⟩

/-- The start grant is answered, and a payment has got its only receipt. -/
def exampleAnswered : List (Action Client.BankConnection) :=
  exampleRequest ++ [.tokensAdded 0 (.values 10 10), .receipt (1 :: exampleRelay ++ packBE 4 0 ++ exampleTokens)]

theorem inflight_eq_outstanding_answered :
    ∃ s, Run (step exampleEnvironment) (Accounted exampleEnvironment)
        (new exampleEnvironment exampleBank [exampleRelay]) exampleAnswered s ∧
      s.outstanding = [.payment Globals.CELLS_PER_PAYMENT 0] ∧
      s.inflightReadTokens = Globals.CELLS_PER_PAYMENT ∧ s.inflightWriteTokens = 0 := by
  have hend : (exec (step exampleEnvironment) (new exampleEnvironment exampleBank [exampleRelay])
      exampleAnswered).any (fun s => decide (s.outstanding = [.payment Globals.CELLS_PER_PAYMENT 0])) = true := by
    decide
  have hok : EachStep (step exampleEnvironment) (Accounted exampleEnvironment)
      (new exampleEnvironment exampleBank [exampleRelay]) exampleAnswered := by
    decide
  obtain ⟨s, hrun, hdecide⟩ := exists_run hend hok
  have houtstanding := of_decide_eq_true hdecide
  obtain ⟨hread, hwrite, -⟩ := inflight_eq_outstanding exampleEnvironment exampleBank [exampleRelay] hrun
  rw [houtstanding] at hread hwrite
  exact ⟨s, hrun, houtstanding, hread, hwrite⟩

/-- The only hop sends its setup reply twice, and Tor answers both commands. -/
def exampleRepeated : List (Action Client.BankConnection) :=
  [.sendSetupMessage, .setupReply (1 :: exampleRelay ++ exampleTokens),
    .setupReply (1 :: exampleRelay ++ exampleTokens), .tokensAdded 0 (.values 10 10), .tokensAdded 0 (.values 20 20)]

theorem repeated_setup_negative :
    ∃ s, Run (step exampleEnvironment) (fun _ _ => True)
        (new exampleEnvironment exampleBank [exampleRelay]) exampleRepeated s ∧
      s.outstanding = [] ∧ s.inflightReadTokens < 0 ∧ s.inflightWriteTokens < 0 := by
  have hend : (exec (step exampleEnvironment) (new exampleEnvironment exampleBank [exampleRelay])
      exampleRepeated).any (fun s => decide (s.outstanding = [] ∧ s.inflightReadTokens < 0 ∧
        s.inflightWriteTokens < 0)) = true := by
    decide
  obtain ⟨s, hrun, hdecide⟩ := exists_run hend (eachStep_true _ _)
  exact ⟨s, hrun, of_decide_eq_true hdecide⟩

end ClientPaymentHandler

end BitBlinder.Tor
